import DataOpsStudio.Library.Dict
import DataOpsStudio.Library.Outcome
import DataOpsStudio.Library.Text
import Mathlib.Algebra.Order.Ring.Rat
import Mathlib.Data.List.ReduceOption
import Mathlib.Tactic.Linarith

/-!
# The rate limiter

Requests are counted by group and caller.  The limiter keeps the times of the requests that it has
allowed and forgets those that have left the window; a request is refused if the window is full.
The clock does not go back.

The limiter keeps less than it has seen.  What it decides is what would be decided if it kept the
times of all the requests that it has allowed.
-/

namespace Access

open Text

/-- How many requests are allowed in a window.  Times are in seconds. -/
structure RateLimitRule where
  limit : ℤ
  windowSeconds : ℚ := 60

structure RateLimitDecision where
  allowed : Bool
  retryAfterSeconds : ℚ := 0
deriving DecidableEq

/-- What is raised: there is no rule for a group, or the rule allows nothing at all. -/
inductive RateLimitError where
  | keyError
  | indexError
deriving DecidableEq

/-- A limit of its own stands for all the groups. -/
structure RateLimiter where
  limit : Option ℤ := none
  windowSeconds : ℚ := 60
  policies : Dict Text RateLimitRule
  hits : Dict (Text × Text) (List ℚ) := Dict.empty

/-- A request that is to be counted. -/
structure Request where
  group : Text
  key : Text
  now : ℚ

def Request.bucket (request : Request) : Text × Text :=
  (request.group, request.key)

namespace RateLimiter

/-- The rule of a group; it is that of the general group where the group has none. -/
def rule (limiter : RateLimiter) (group : Text) : Except RateLimitError RateLimitRule :=
  match limiter.limit with
  | some limit => .ok { limit := limit, windowSeconds := limiter.windowSeconds }
  | none =>
      match limiter.policies.get? "general_read".toList with
      | none => .error .keyError
      | some general => .ok ((limiter.policies.get? group).getD general)

/-- The times that a bucket keeps. -/
def kept (limiter : RateLimiter) (bucket : Text × Text) : List ℚ :=
  (limiter.hits.get? bucket).getD []

def setHits (limiter : RateLimiter) (bucket : Text × Text) (hits : List ℚ) : RateLimiter :=
  { limiter with hits := limiter.hits.set bucket hits }

/-- Counts a request, or refuses it. -/
def check (limiter : RateLimiter) (request : Request) :
    Except RateLimitError (RateLimitDecision × RateLimiter) := do
  let rule ← limiter.rule request.group
  let cutoff := request.now - rule.windowSeconds
  let hits := (limiter.kept request.bucket).filter fun hit => cutoff ≤ hit
  if rule.limit ≤ hits.length then
    match hits with
    | [] => .error .indexError
    | first :: _ =>
        .ok ({ allowed := false
               retryAfterSeconds := max (1 / 1000) (first + rule.windowSeconds - request.now) },
          limiter.setHits request.bucket hits)
  else
    .ok ({ allowed := true }, limiter.setHits request.bucket (hits ++ [request.now]))

/-- Checks the requests one after the other. -/
def checkAll (limiter : RateLimiter) :
    List Request → Except RateLimitError (List (Request × RateLimitDecision) × RateLimiter)
  | [] => .ok ([], limiter)
  | request :: rest => do
      let (decision, limiter) ← limiter.check request
      let (decisions, limiter) ← limiter.checkAll rest
      .ok ((request, decision) :: decisions, limiter)

end RateLimiter

/-- The times at which requests of a bucket have been allowed. -/
def allowedTimes (bucket : Text × Text) (decisions : List (Request × RateLimitDecision)) : List ℚ :=
  (decisions.filter fun decided => decided.1.bucket = bucket && decided.2.allowed).map (·.1.now)

/-! ### One check -/

namespace RateLimiter

variable {limiter limiter' : RateLimiter} {request : Request} {bucket : Text × Text}

theorem kept_setHits {hits : List ℚ} {bucket' : Text × Text} :
  (limiter.setHits bucket hits).kept bucket'
    = if bucket' = bucket then hits else limiter.kept bucket'
  := by
  rw [kept, setHits]
  dsimp only
  split
  case isTrue h =>
    rw [h, Dict.get?_set_self]
    rfl
  case isFalse h =>
    rw [Dict.get?_set_of_ne _ _ (Ne.symm h)]
    rfl

/-- What a check does: the times that have left the window are forgotten, and the time of the
request is added if fewer than the limit are left. -/
structure Checked (rule : RateLimitRule) (limiter : RateLimiter) (request : Request)
    (decision : RateLimitDecision) (limiter' : RateLimiter) : Prop where
  ruled : limiter.rule request.group = .ok rule
  same : ∀ group, limiter'.rule group = limiter.rule group
  other : ∀ bucket, bucket ≠ request.bucket → limiter'.kept bucket = limiter.kept bucket
  kept : limiter'.kept request.bucket
    = ((limiter.kept request.bucket).filter fun hit => request.now - rule.windowSeconds ≤ hit)
      ++ if decision.allowed then [request.now] else []
  allowed : decision.allowed = true ↔
    (((limiter.kept request.bucket).filter fun hit =>
      request.now - rule.windowSeconds ≤ hit).length : ℤ) < rule.limit
  retry : decision.allowed = false → ∃ first ∈ limiter.kept request.bucket,
    request.now - rule.windowSeconds ≤ first
      ∧ (((limiter.kept request.bucket).filter fun hit =>
          request.now - rule.windowSeconds ≤ hit).head? = some first)
      ∧ decision.retryAfterSeconds = max (1 / 1000) (first + rule.windowSeconds - request.now)

theorem check_spec {decision : RateLimitDecision}
    (h : limiter.check request = .ok (decision, limiter')) :
  ∃ rule, Checked rule limiter request decision limiter'
  := by
  rw [check] at h
  obtain ⟨rule, hrule, h⟩ := Outcome.bind_eq_ok.mp h
  use rule
  dsimp only at h
  split at h
  case isTrue hfull =>
    split at h
    case h_1 => cases h
    case h_2 first more hhits =>
      obtain ⟨rfl, rfl⟩ := Prod.mk.inj (Except.ok.inj h)
      have hfirst : first ∈ (limiter.kept request.bucket).filter fun hit =>
          request.now - rule.windowSeconds ≤ hit := by
        rw [hhits]
        exact List.mem_cons_self
      rw [List.mem_filter, decide_eq_true_eq] at hfirst
      constructor
      · exact hrule
      · intro group
        rfl
      · intro bucket hne
        rw [kept_setHits, if_neg hne]
      · rw [kept_setHits, if_pos rfl]
        exact (List.append_nil _).symm
      · constructor
        · intro hallowed
          cases hallowed
        · intro hlt
          exact absurd hfull (Int.not_le.mpr hlt)
      · intro _
        exact ⟨first, hfirst.1, hfirst.2, by rw [hhits]; rfl, rfl⟩
  case isFalse hfree =>
    obtain ⟨rfl, rfl⟩ := Prod.mk.inj (Except.ok.inj h)
    constructor
    · exact hrule
    · intro group
      rfl
    · intro bucket hne
      rw [kept_setHits, if_neg hne]
    · rw [kept_setHits, if_pos rfl]
      rfl
    · exact ⟨fun _ => Int.not_le.mp hfree, fun _ => rfl⟩
    · intro hrefused
      cases hrefused

/-! ### What is kept -/

/-- The bucket keeps those of the times that are not before `since`. -/
def Keeps (limiter : RateLimiter) (bucket : Text × Text) (since : ℚ) (times : List ℚ) : Prop :=
  ∀ cutoff, since ≤ cutoff →
    (limiter.kept bucket).filter (fun hit => cutoff ≤ hit)
      = times.filter fun time => cutoff ≤ time

theorem Keeps.later {since since' : ℚ} {times : List ℚ} (h : limiter.Keeps bucket since times)
    (hle : since ≤ since') :
  limiter.Keeps bucket since' times
  := fun cutoff hcutoff => h cutoff (hle.trans hcutoff)

/-- The times that a check keeps are those of before, and that of the request if it is allowed. -/
theorem Keeps.check {rule : RateLimitRule} {since : ℚ} {times : List ℚ}
    {decision : RateLimitDecision} (h : limiter.Keeps request.bucket since times)
    (hchecked : Checked rule limiter request decision limiter')
    (hsince : since ≤ request.now - rule.windowSeconds) :
  limiter'.Keeps request.bucket (request.now - rule.windowSeconds)
    (times ++ if decision.allowed then [request.now] else [])
  := by
  intro cutoff hcutoff
  have hfilter : ∀ times : List ℚ,
      (times.filter fun time => request.now - rule.windowSeconds ≤ time).filter
          (fun time => cutoff ≤ time)
        = times.filter fun time => cutoff ≤ time := by
    intro times
    rw [List.filter_filter]
    apply List.filter_congr
    intro time _
    rw [← Bool.decide_and, decide_eq_decide]
    exact ⟨fun hboth => hboth.1, fun hle => ⟨hle, hcutoff.trans hle⟩⟩
  rw [hchecked.kept, List.filter_append, List.filter_append, hfilter,
    h cutoff (hsince.trans hcutoff)]

/-! ### Runs -/

theorem checkAll_cons {rest : List Request} {decisions : List (Request × RateLimitDecision)}
    (h : limiter.checkAll (request :: rest) = .ok (decisions, limiter')) :
  ∃ decision next more, limiter.check request = .ok (decision, next)
    ∧ next.checkAll rest = .ok (more, limiter') ∧ decisions = (request, decision) :: more
  := by
  rw [checkAll] at h
  obtain ⟨⟨decision, next⟩, hcheck, h⟩ := Outcome.bind_eq_ok.mp h
  obtain ⟨⟨more, last⟩, hrest, h⟩ := Outcome.bind_eq_ok.mp h
  obtain ⟨rfl, rfl⟩ := Prod.mk.inj (Except.ok.inj h)
  exact ⟨decision, next, more, hcheck, hrest, rfl⟩

theorem allowedTimes_cons {decision : RateLimitDecision}
    {decisions : List (Request × RateLimitDecision)} :
  allowedTimes bucket ((request, decision) :: decisions)
    = (if request.bucket = bucket ∧ decision.allowed = true then [request.now] else [])
      ++ allowedTimes bucket decisions
  := by
  rw [allowedTimes, allowedTimes, List.filter_cons]
  by_cases h : request.bucket = bucket ∧ decision.allowed = true
  · rw [if_pos h, if_pos (by simpa using h)]
    rfl
  · rw [if_neg h, if_neg (by simpa using h)]
    rfl

/-- In a run a bucket keeps the times of the requests that have been allowed. -/
theorem Keeps.checkAll {rule : RateLimitRule} {since now : ℚ} {times : List ℚ}
    {requests : List Request} {decisions : List (Request × RateLimitDecision)}
    (hrule : limiter.rule bucket.1 = .ok rule) (h : limiter.Keeps bucket since times)
    (hsorted : requests.Pairwise (·.now ≤ ·.now))
    (hsince : ∀ request ∈ requests, since ≤ request.now - rule.windowSeconds)
    (hnow : ∀ request ∈ requests, request.now ≤ now) (hlast : since ≤ now - rule.windowSeconds)
    (hrun : limiter.checkAll requests = .ok (decisions, limiter')) :
  limiter'.rule bucket.1 = .ok rule
    ∧ limiter'.Keeps bucket (now - rule.windowSeconds) (times ++ allowedTimes bucket decisions)
  := by
  induction requests generalizing limiter since times decisions with
  | nil =>
      obtain ⟨rfl, rfl⟩ := Prod.mk.inj (Except.ok.inj hrun)
      rw [allowedTimes, List.filter_nil, List.map_nil, List.append_nil]
      exact ⟨hrule, h.later hlast⟩
  | cons request rest ih =>
      obtain ⟨decision, next, more, hcheck, hrest, rfl⟩ := checkAll_cons hrun
      rw [List.pairwise_cons] at hsorted
      rw [List.forall_mem_cons] at hsince hnow
      obtain ⟨rule', hchecked⟩ := check_spec hcheck
      have hnext := (hchecked.same bucket.1).trans hrule
      rw [allowedTimes_cons, ← List.append_assoc]
      by_cases hbucket : request.bucket = bucket
      · subst hbucket
        obtain rfl : rule' = rule := Except.ok.inj (hchecked.ruled.symm.trans hrule)
        have hkeeps := h.check hchecked hsince.1
        simp only [true_and]
        apply ih hnext hkeeps hsorted.2 _ hnow.2 _ hrest
        · intro request' hmem
          linarith [hsorted.1 request' hmem]
        · linarith [hnow.1]
      · rw [if_neg (fun hboth => hbucket hboth.1), List.append_nil]
        apply ih hnext _ hsorted.2 hsince.2 hnow.2 hlast hrest
        intro cutoff hcutoff
        rw [hchecked.other bucket (Ne.symm hbucket)]
        exact h cutoff hcutoff

/-- What is decided about a request after others, by a limiter that has seen no other requests. -/
theorem checked_after {rule : RateLimitRule} {before : List Request}
    {decisions : List (Request × RateLimitDecision)} {decision : RateLimitDecision}
    {last : RateLimiter} (hfresh : limiter.hits = Dict.empty)
    (hrule : limiter.rule request.group = .ok rule)
    (hsorted : (before ++ [request]).Pairwise (·.now ≤ ·.now))
    (hbefore : limiter.checkAll before = .ok (decisions, limiter'))
    (hcheck : limiter'.check request = .ok (decision, last)) :
  Checked rule limiter' request decision last
    ∧ (limiter'.kept request.bucket).filter (fun hit => request.now - rule.windowSeconds ≤ hit)
      = (allowedTimes request.bucket decisions).filter fun time =>
          request.now - rule.windowSeconds ≤ time
  := by
  obtain ⟨rule', hchecked⟩ := check_spec hcheck
  obtain ⟨hsorted, -, hle⟩ := List.pairwise_append.mp hsorted
  have hnow : ∀ request' ∈ before, request'.now ≤ request.now :=
    fun request' hmem => hle request' hmem request (List.mem_singleton.mpr rfl)
  -- the clock has not been earlier than at the first request
  obtain ⟨first, hfirst, hstart⟩ : ∃ first : ℚ, first ≤ request.now
      ∧ ∀ request' ∈ before, first ≤ request'.now := by
    cases before with
    | nil => exact ⟨request.now, le_rfl, fun _ h => (List.not_mem_nil h).elim⟩
    | cons request' rest =>
        use request'.now, hnow request' List.mem_cons_self
        rw [List.forall_mem_cons]
        exact ⟨le_rfl, (List.pairwise_cons.mp hsorted).1⟩
  have hnone : limiter.Keeps request.bucket (first - rule.windowSeconds) [] := by
    intro cutoff _
    rw [kept, hfresh]
    rfl
  obtain ⟨hruled, hkeeps⟩ := hnone.checkAll hrule hsorted
    (fun request' hmem => by linarith [hstart request' hmem]) hnow (by linarith) hbefore
  obtain rfl : rule' = rule := Except.ok.inj (hchecked.ruled.symm.trans hruled)
  exact ⟨hchecked, hkeeps _ le_rfl⟩

theorem checkAll_append {before rest : List Request}
    {decisions : List (Request × RateLimitDecision)}
    (h : limiter.checkAll (before ++ rest) = .ok (decisions, limiter')) :
  ∃ earlier next more, limiter.checkAll before = .ok (earlier, next)
    ∧ next.checkAll rest = .ok (more, limiter') ∧ decisions = earlier ++ more
  := by
  induction before generalizing limiter decisions with
  | nil => exact ⟨[], limiter, decisions, rfl, h, rfl⟩
  | cons request before ih =>
      obtain ⟨decision, next, tail, hcheck, htail, rfl⟩ := checkAll_cons h
      obtain ⟨earlier, next', more, hearlier, hmore, rfl⟩ := ih htail
      refine ⟨(request, decision) :: earlier, next', more, ?_, hmore, rfl⟩
      rw [checkAll, hcheck]
      show (next.checkAll before >>= _) = _
      rw [hearlier]
      rfl

theorem checkAll_append_of {before rest : List Request} {next : RateLimiter}
    {earlier more : List (Request × RateLimitDecision)}
    (hbefore : limiter.checkAll before = .ok (earlier, next))
    (hrest : next.checkAll rest = .ok (more, limiter')) :
  limiter.checkAll (before ++ rest) = .ok (earlier ++ more, limiter')
  := by
  induction before generalizing limiter earlier with
  | nil =>
      obtain ⟨rfl, rfl⟩ := Prod.mk.inj (Except.ok.inj hbefore)
      exact hrest
  | cons request before ih =>
      obtain ⟨decision, mid, tail, hcheck, htail, rfl⟩ := checkAll_cons hbefore
      rw [List.cons_append, checkAll, hcheck]
      show (mid.checkAll (before ++ rest) >>= _) = _
      rw [ih htail]
      rfl

/-- The requests of a run are those that have been decided about. -/
theorem map_fst_checkAll {requests : List Request} {decisions : List (Request × RateLimitDecision)}
    (h : limiter.checkAll requests = .ok (decisions, limiter')) :
  decisions.map Prod.fst = requests
  := by
  induction requests generalizing limiter decisions with
  | nil =>
      obtain ⟨rfl, -⟩ := Prod.mk.inj (Except.ok.inj h)
      rfl
  | cons request rest ih =>
      obtain ⟨decision, next, more, -, hrest, rfl⟩ := checkAll_cons h
      rw [List.map_cons, ih hrest]

end RateLimiter

variable {limiter last : RateLimiter} {rule : RateLimitRule} {bucket : Text × Text}
  {decisions : List (Request × RateLimitDecision)}

theorem allowedTimes_append {more : List (Request × RateLimitDecision)} :
  allowedTimes bucket (decisions ++ more)
    = allowedTimes bucket decisions ++ allowedTimes bucket more
  := by
  rw [allowedTimes, List.filter_append, List.map_append]
  rfl

theorem allowedTimes_sublist :
  (allowedTimes bucket decisions).Sublist ((decisions.map Prod.fst).map (·.now))
  := by
  rw [allowedTimes, List.map_map]
  exact List.filter_sublist.map _

/-- The requests of a bucket that have been allowed in a window. -/
def inWindow (start window : ℚ) (times : List ℚ) : ℕ :=
  times.countP fun time => start ≤ time && time ≤ start + window

/-- A window that ends when no time is later. -/
theorem inWindow_ending {now window : ℚ} {times : List ℚ} (h : ∀ time ∈ times, time ≤ now) :
  inWindow (now - window) window times = (times.filter fun time => now - window ≤ time).length
  := by
  rw [inWindow, ← List.countP_eq_length_filter]
  apply List.countP_congr
  intro time htime
  rw [sub_add_cancel, decide_eq_true (h time htime), Bool.and_true]

/-- A window that ends later holds those of the times in it that have not left it. -/
theorem inWindow_ending_later {times : List ℚ} {now later width : ℚ}
    (hle : ∀ time ∈ times, time ≤ now) (hlater : now ≤ later) :
  inWindow (later - width) width times
    = (times.filter fun time => now - width ≤ time).countP fun time => later - width ≤ time
  := by
  rw [inWindow_ending fun time htime => (hle time htime).trans hlater,
    List.countP_filter, ← List.countP_eq_length_filter]
  apply List.countP_congr
  intro time _
  rw [Bool.and_eq_true, decide_eq_true_eq, decide_eq_true_eq]
  exact ⟨fun h => ⟨h, by linarith⟩, fun h => h.1⟩

/-- What has been allowed has been allowed before the next request. -/
theorem allowedTimes_le {before : List Request} {request : Request}
    (hsorted : (before ++ [request]).Pairwise (·.now ≤ ·.now))
    (hbefore : limiter.checkAll before = .ok (decisions, last)) :
  ∀ time ∈ allowedTimes bucket decisions, time ≤ request.now
  := by
  intro time htime
  have hmem := allowedTimes_sublist.subset htime
  rw [RateLimiter.map_fst_checkAll hbefore, List.mem_map] at hmem
  obtain ⟨request', hmem, rfl⟩ := hmem
  exact (List.pairwise_append.mp hsorted).2.2 request' hmem request (List.mem_singleton.mpr rfl)

/-- The limiter decides as if it kept the times of all the requests that it has allowed: a request
is allowed exactly if fewer than the limit have been allowed in the window that ends with it. -/
theorem allowed_iff_window_free {before : List Request} {request : Request} {next : RateLimiter}
    {decision : RateLimitDecision} (hfresh : limiter.hits = Dict.empty)
    (hrule : limiter.rule request.group = .ok rule)
    (hsorted : (before ++ [request]).Pairwise (·.now ≤ ·.now))
    (hbefore : limiter.checkAll before = .ok (decisions, next))
    (hcheck : next.check request = .ok (decision, last)) :
  decision.allowed = true ↔
    (inWindow (request.now - rule.windowSeconds) rule.windowSeconds
      (allowedTimes request.bucket decisions) : ℤ) < rule.limit
  := by
  obtain ⟨hchecked, hkept⟩ := RateLimiter.checked_after hfresh hrule hsorted hbefore hcheck
  rw [hchecked.allowed, inWindow_ending (allowedTimes_le hsorted hbefore), hkept]

/-- In no window more requests of a bucket are allowed than the limit says. -/
theorem inWindow_le_limit {requests : List Request} (hfresh : limiter.hits = Dict.empty)
    (hrule : limiter.rule bucket.1 = .ok rule) (hsorted : requests.Pairwise (·.now ≤ ·.now))
    (hrun : limiter.checkAll requests = .ok (decisions, last)) (start : ℚ) :
  (inWindow start rule.windowSeconds (allowedTimes bucket decisions) : ℤ) ≤ max rule.limit 0
  := by
  induction requests using List.reverseRecOn generalizing decisions last with
  | nil =>
      obtain ⟨rfl, -⟩ := Prod.mk.inj (Except.ok.inj hrun)
      exact le_max_right _ _
  | append_singleton before request ih =>
      obtain ⟨earlier, next, more, hbefore, hmore, rfl⟩ := RateLimiter.checkAll_append hrun
      obtain ⟨decision, next', tail, hcheck, htail, rfl⟩ := RateLimiter.checkAll_cons hmore
      obtain ⟨rfl, rfl⟩ := Prod.mk.inj (Except.ok.inj htail)
      have hearlier := ih (List.pairwise_append.mp hsorted).1 hbefore
      rw [allowedTimes_append, RateLimiter.allowedTimes_cons, inWindow, List.countP_append]
      by_cases hcounts : (request.bucket = bucket ∧ decision.allowed = true)
          ∧ start ≤ request.now ∧ request.now ≤ start + rule.windowSeconds
      · obtain ⟨⟨rfl, hallowed⟩, hstart, hend⟩ := hcounts
        have hfree := (allowed_iff_window_free hfresh hrule hsorted hbefore hcheck).mp hallowed
        have hle : (allowedTimes request.bucket earlier).countP
              (fun time => start ≤ time && time ≤ start + rule.windowSeconds)
            ≤ inWindow (request.now - rule.windowSeconds) rule.windowSeconds
                (allowedTimes request.bucket earlier) := by
          apply List.countP_mono_left
          intro time htime hin
          have hle := allowedTimes_le hsorted hbefore time htime
          rw [Bool.and_eq_true, decide_eq_true_eq, decide_eq_true_eq] at hin ⊢
          constructor
          · linarith
          · linarith
        have hone : (if request.bucket = request.bucket ∧ decision.allowed = true
              then [request.now] else []).countP
            (fun time => start ≤ time && time ≤ start + rule.windowSeconds) ≤ 1 :=
          List.countP_le_length.trans (by split <;> simp)
        rw [show allowedTimes request.bucket [] = [] from rfl, List.append_nil]
        push_cast
        have hmax := le_max_left rule.limit 0
        omega
      · have hnone : ((if request.bucket = bucket ∧ decision.allowed = true
              then [request.now] else []) ++ allowedTimes bucket []).countP
            (fun time => start ≤ time && time ≤ start + rule.windowSeconds) = 0 := by
          rw [show allowedTimes bucket [] = [] from rfl, List.append_nil, List.countP_eq_zero]
          intro time htime hin
          split at htime
          case isTrue hboth =>
            obtain rfl := List.mem_singleton.mp htime
            rw [Bool.and_eq_true, decide_eq_true_eq, decide_eq_true_eq] at hin
            exact hcounts ⟨hboth, hin⟩
          case isFalse => exact (List.not_mem_nil htime).elim
        rw [hnone, Nat.add_zero]
        exact hearlier

/-! ### A limiter that allows one request -/

/-- A limiter that allows one request a minute. -/
def oneMinute : RateLimiter := { limit := some 1, policies := Dict.empty }

def requestAt (now : ℚ) : Request := { group := [], key := [], now := now }

theorem rule_oneMinute (now : ℚ) :
  oneMinute.rule (requestAt now).group = .ok { limit := 1 }
  := rfl

theorem oneMinute_before :
  oneMinute.checkAll [requestAt 0]
    = .ok ([(requestAt 0, { allowed := true })], oneMinute.setHits ([], []) [0])
  := rfl

theorem oneMinute_refused :
  (oneMinute.setHits ([], []) [0]).check (requestAt 2)
    = .ok ({ allowed := false, retryAfterSeconds := 58 },
        (oneMinute.setHits ([], []) [0]).setHits ([], []) [0])
  := by
  have hkept : (oneMinute.setHits ([], []) [0]).kept ([], []) = [0] :=
    RateLimiter.kept_setHits.trans (if_pos rfl)
  have hrule : (oneMinute.setHits ([], []) [0]).rule [] = .ok { limit := 1 } := rfl
  simp only [RateLimiter.check, Request.bucket, requestAt, hkept, hrule, bind, Except.bind]
  norm_num

theorem oneMinute_again :
  ((oneMinute.setHits ([], []) [0]).setHits ([], []) [0]).check (requestAt 61)
    = .ok ({ allowed := true },
        ((oneMinute.setHits ([], []) [0]).setHits ([], []) [0]).setHits ([], []) [61])
  := by
  have hkept : ((oneMinute.setHits ([], []) [0]).setHits ([], []) [0]).kept ([], []) = [0] :=
    RateLimiter.kept_setHits.trans (if_pos rfl)
  have hrule : ((oneMinute.setHits ([], []) [0]).setHits ([], []) [0]).rule []
      = .ok { limit := 1 } := rfl
  simp only [RateLimiter.check, Request.bucket, requestAt, hkept, hrule, bind, Except.bind]
  norm_num

/-! ### Sliding windows -/

/-- The limiter is a sliding window: a request is allowed exactly if fewer than the limit have been
allowed in the window that ends with it, and no window at all holds more than the limit. -/
theorem limiter_slides {before : List Request} {request : Request} {next : RateLimiter}
    {decision : RateLimitDecision} (hfresh : limiter.hits = Dict.empty)
    (hrule : limiter.rule request.group = .ok rule)
    (hsorted : (before ++ [request]).Pairwise (·.now ≤ ·.now))
    (hbefore : limiter.checkAll before = .ok (decisions, next))
    (hcheck : next.check request = .ok (decision, last)) :
  (decision.allowed = true ↔
      (inWindow (request.now - rule.windowSeconds) rule.windowSeconds
        (allowedTimes request.bucket decisions) : ℤ) < rule.limit)
    ∧ ∀ start, (inWindow start rule.windowSeconds (allowedTimes request.bucket decisions) : ℤ)
        ≤ max rule.limit 0
  := ⟨allowed_iff_window_free hfresh hrule hsorted hbefore hcheck,
    inWindow_le_limit hfresh hrule (List.pairwise_append.mp hsorted).1 hbefore⟩

/-- The second of two requests, of which the first has been allowed. -/
theorem limiter_slides_oneMinute :
  (false = true ↔
      (inWindow ((requestAt 2).now - 60) 60
        (allowedTimes (requestAt 2).bucket [(requestAt 0, { allowed := true })]) : ℤ) < 1)
    ∧ ∀ start, (inWindow start 60
        (allowedTimes (requestAt 2).bucket [(requestAt 0, { allowed := true })]) : ℤ) ≤ max 1 0
  := by
  have hsorted : ([requestAt 0] ++ [requestAt 2]).Pairwise (·.now ≤ ·.now) := by
    norm_num [requestAt]
  exact limiter_slides rfl (rule_oneMinute 2) hsorted oneMinute_before oneMinute_refused

/-- Of ordered times not all are late enough if the first of them is not. -/
theorem countP_lt_length_iff {first bound : ℚ} {rest : List ℚ}
    (hordered : ∀ time ∈ rest, first ≤ time) :
  (first :: rest).countP (fun time => bound ≤ time) < rest.length + 1 ↔ first < bound
  := by
  constructor
  · intro hlt
    by_contra hearly
    have hall : (first :: rest).countP (fun time => bound ≤ time) = (first :: rest).length := by
      rw [List.countP_eq_length]
      intro time htime
      rw [decide_eq_true_eq]
      obtain rfl | htime := List.mem_cons.mp htime
      · exact not_lt.mp hearly
      · exact (not_lt.mp hearly).trans (hordered time htime)
    rw [hall, List.length_cons] at hlt
    exact absurd hlt (lt_irrefl _)
  · intro hlate
    rw [List.countP_cons_of_neg (by rw [decide_eq_true_eq]; exact not_le.mpr hlate)]
    exact Nat.lt_succ_of_le List.countP_le_length

end Access
