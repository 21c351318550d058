import DataOpsStudio.Library.Text
import Mathlib.Data.List.Infix

/-!
# Patterns

Patterns of the kind that interpreters match by trying: a pattern is tried at a spot of a text,
and the spots where it can end come in the order in which they are preferred.  Alternatives prefer
what is written first, repetitions prefer to go on, and lazy ones to stop.  A search takes the
first spot at which a pattern matches, and the end that is preferred there.
-/

/-- A pattern. -/
inductive Regex where
  | empty
  | char (p : Char → Bool)
  | cat (r s : Regex)
  | alt (r s : Regex)
  | star (r : Regex)
  | lazyStar (r : Regex)
  | group (k : ℕ) (r : Regex)
  | boundary (isWord : Char → Bool)
  | textStart
  | lineStart
  | textEnd
  | notAhead (r : Regex)

namespace Regex

/-- A spot of a text: the character before it, the number of characters before it, what follows,
and the groups that have been read on the way. -/
structure Spot where
  before : Option Char
  passed : ℕ
  rest : Text
  groups : List (ℕ × Text) := []

/-- The spot of a text that has some number of characters before it. -/
def Spot.at (text : Text) (pos : ℕ) : Spot where
  before := (text.take pos).getLast?
  passed := pos
  rest := text.drop pos

/-- Whether a neighbour of a spot is a character of a word. -/
def wordAt (isWord : Char → Bool) (c : Option Char) : Bool := c.any isWord

/-- The ends of a repetition, which goes on for as long as the fuel and its progress last. -/
def starEnds (step : Spot → List Spot) : ℕ → Spot → List Spot
  | 0, p => [p]
  | fuel + 1, p =>
      (step p).flatMap (fun q => if q.passed = p.passed then [] else starEnds step fuel q) ++ [p]

/-- The ends of a lazy repetition. -/
def lazyStarEnds (step : Spot → List Spot) : ℕ → Spot → List Spot
  | 0, p => [p]
  | fuel + 1, p =>
      p :: (step p).flatMap
        (fun q => if q.passed = p.passed then [] else lazyStarEnds step fuel q)

/-- The spots at which a pattern that is tried at a spot can end. -/
def ends : Regex → Spot → List Spot
  | .empty, p => [p]
  | .char q, p =>
      match p.rest with
      | [] => []
      | c :: rest =>
          if q c then [{ p with before := some c, passed := p.passed + 1, rest }] else []
  | .cat r s, p => (ends r p).flatMap (ends s)
  | .alt r s, p => ends r p ++ ends s p
  | .star r, p => starEnds (ends r) p.rest.length p
  | .lazyStar r, p => lazyStarEnds (ends r) p.rest.length p
  | .group k r, p =>
      (ends r p).map
        (fun q => { q with groups := (k, p.rest.take (q.passed - p.passed)) :: q.groups })
  | .boundary isWord, p =>
      if wordAt isWord p.before = wordAt isWord p.rest.head? then [] else [p]
  | .textStart, p => if p.before.isNone then [p] else []
  | .lineStart, p => if p.before.all (· = '\n') then [p] else []
  | .textEnd, p => if p.rest = [] ∨ p.rest = ['\n'] then [p] else []
  | .notAhead r, p => if (ends r p).isEmpty then [p] else []

section Ends

variable (p : Spot) (r s : Regex) (isWord : Char → Bool)

theorem ends_empty : ends .empty p = [p] := rfl

theorem ends_cat : ends (.cat r s) p = (ends r p).flatMap (ends s) := rfl

theorem ends_alt : ends (.alt r s) p = ends r p ++ ends s p := rfl

theorem ends_char_nil {f : Char → Bool} (before : Option Char) (passed : ℕ)
    (groups : List (ℕ × Text)) :
  ends (.char f) ⟨before, passed, [], groups⟩ = []
  := rfl

theorem ends_char_cons {f : Char → Bool} (before : Option Char) (passed : ℕ) (c : Char)
    (rest : Text) (groups : List (ℕ × Text)) :
  ends (.char f) ⟨before, passed, c :: rest, groups⟩
    = if f c then [⟨some c, passed + 1, rest, groups⟩] else []
  := rfl

theorem ends_boundary :
  ends (.boundary isWord) p
    = if wordAt isWord p.before = wordAt isWord p.rest.head? then [] else [p]
  := rfl

theorem ends_textStart : ends .textStart p = if p.before.isNone then [p] else [] := rfl

theorem ends_lineStart : ends .lineStart p = if p.before.all (· = '\n') then [p] else [] := rfl

theorem ends_textEnd : ends .textEnd p = if p.rest = [] ∨ p.rest = ['\n'] then [p] else [] := rfl

theorem ends_notAhead : ends (.notAhead r) p = if (ends r p).isEmpty then [p] else [] := rfl

end Ends

/-- The end that is preferred when a pattern is tried at a spot. -/
def tryAt (r : Regex) (p : Spot) : Option Spot := (ends r p).head?

/-- Whether a pattern can match the whole of a text. -/
def fullmatch (r : Regex) (text : Text) : Bool := (ends r (Spot.at text 0)).any (·.rest.isEmpty)

/-- A match: where it starts and ends, and the groups that it has read. -/
structure Found where
  start : ℕ
  stop : ℕ
  groups : List (ℕ × Text)

/-- What a group has read. -/
def Found.group (found : Found) (k : ℕ) : Option Text := found.groups.lookup k

/-- The first match from a spot on. -/
def searchFrom (r : Regex) (before : Option Char) (passed : ℕ) : Text → Option Found
  | [] => (tryAt r ⟨before, passed, [], []⟩).map (fun q => ⟨passed, q.passed, q.groups⟩)
  | c :: rest =>
      match tryAt r ⟨before, passed, c :: rest, []⟩ with
      | some q => some ⟨passed, q.passed, q.groups⟩
      | none => searchFrom r (some c) (passed + 1) rest

/-- The first match of a pattern from a position on. -/
def search (r : Regex) (text : Text) (pos : ℕ) : Option Found :=
  searchFrom r (text.take pos).getLast? pos (text.drop pos)

theorem search_zero (r : Regex) (text : Text) :
  search r text 0 = searchFrom r none 0 text
  := rfl

/-- The matches from a spot on that do not overlap, `skip` characters of the last one being still
to be passed over. -/
def matchesFrom (r : Regex) : ℕ → Option Char → ℕ → Text → List Found
  | skip + 1, _, passed, c :: rest => matchesFrom r skip (some c) (passed + 1) rest
  | _ + 1, _, _, [] => []
  | 0, before, passed, [] =>
      ((tryAt r ⟨before, passed, [], []⟩).map (fun q => ⟨passed, q.passed, q.groups⟩)).toList
  | 0, before, passed, c :: rest =>
      match tryAt r ⟨before, passed, c :: rest, []⟩ with
      | some q =>
          ⟨passed, q.passed, q.groups⟩
            :: matchesFrom r (q.passed - passed - 1) (some c) (passed + 1) rest
      | none => matchesFrom r 0 (some c) (passed + 1) rest

/-- The matches of a pattern from a position on. -/
def finditer (r : Regex) (text : Text) (pos : ℕ) : List Found :=
  matchesFrom r 0 (text.take pos).getLast? pos (text.drop pos)

/-- A text from a spot on with every match replaced, `skip` characters of the last one being still
to be passed over. -/
def subFrom (r : Regex) (replace : Found → Text) : ℕ → Option Char → ℕ → Text → Text
  | skip + 1, _, passed, c :: rest => subFrom r replace skip (some c) (passed + 1) rest
  | _ + 1, _, _, [] => []
  | 0, before, passed, [] =>
      match tryAt r ⟨before, passed, [], []⟩ with
      | some q => replace ⟨passed, q.passed, q.groups⟩
      | none => []
  | 0, before, passed, c :: rest =>
      match tryAt r ⟨before, passed, c :: rest, []⟩ with
      | some q =>
          replace ⟨passed, q.passed, q.groups⟩
            ++ (if q.passed = passed then [c] else [])
            ++ subFrom r replace (q.passed - passed - 1) (some c) (passed + 1) rest
      | none => c :: subFrom r replace 0 (some c) (passed + 1) rest

/-- A text with every match of a pattern replaced. -/
def sub (r : Regex) (replace : Found → Text) (text : Text) : Text :=
  subFrom r replace 0 none 0 text

/-- The part of a text that a match takes up. -/
def Found.read (found : Found) (text : Text) : Text :=
  (text.drop found.start).take (found.stop - found.start)

/-! ### Common patterns -/

/-- A repetition that happens at least once. -/
def plus (r : Regex) : Regex := .cat r (.star r)

/-- A pattern that may be left out. -/
def optional (r : Regex) : Regex := .alt r .empty

/-- Patterns one after the other. -/
def seq (rs : List Regex) : Regex := rs.foldr .cat .empty

/-- One of several patterns, the first being preferred. -/
def oneOf : List Regex → Regex
  | [] => .char (fun _ => false)
  | [r] => r
  | r :: rs => .alt r (oneOf rs)

/-- The letters of a word, in either case. -/
def letters (word : String) : Regex :=
  seq (word.toList.map (fun c => .char (fun d => d.toLower == c.toLower)))

/-- A character. -/
def exactly (c : Char) : Regex := .char (· == c)

/-- White space. -/
def space : Regex := .char Text.isSpace

/-- A word by itself, in letters of either case. -/
def word (isWord : Char → Bool) (w : String) : Regex :=
  seq [.boundary isWord, letters w, .boundary isWord]

/-! ### Where a word matches -/

/-- Whether a text starts with a word, in letters of either case. -/
def startsWith (w s : Text) : Bool := (s.take w.length).map Char.toLower == w.map Char.toLower

/-- The spot some characters on. -/
def Spot.advance (p : Spot) (n : ℕ) : Spot where
  before := if n = 0 then p.before else (p.rest.take n).getLast?
  passed := p.passed + n
  rest := p.rest.drop n
  groups := p.groups

theorem Spot.advance_advance (p : Spot) {m n : ℕ} (h : m + n ≤ p.rest.length) :
  (p.advance m).advance n = p.advance (m + n)
  := by
  obtain ⟨before, passed, rest, groups⟩ := p
  simp only [Spot.advance, List.drop_drop, Nat.add_assoc, Spot.mk.injEq, and_true,
    Nat.add_eq_zero_iff]
  by_cases hn : n = 0
  · subst hn
    by_cases hm : m = 0
    · simp [hm]
    · simp [hm]
  · rw [if_neg hn, if_neg (fun hzero => hn hzero.2), List.take_add, List.getLast?_append_of_ne_nil]
    simp only [ne_eq, List.take_eq_nil_iff, not_or]
    refine ⟨hn, ?_⟩
    rw [List.drop_eq_nil_iff]
    simp only at h
    omega

/-- Letters are read one after the other. -/
theorem ends_letters (w : Text) (p : Spot) :
  ends (seq (w.map (fun c => .char (fun d => d.toLower == c.toLower)))) p
    = if startsWith w p.rest then [p.advance w.length] else []
  := by
  induction w generalizing p with
  | nil => simp [seq, ends_empty, startsWith, Spot.advance]
  | cons c w ih =>
      obtain ⟨before, passed, rest, groups⟩ := p
      cases rest with
      | nil => simp [seq, ends_cat, ends_char_nil, startsWith]
      | cons d rest =>
          have hcat : seq ((c :: w).map (fun c => Regex.char (fun d => d.toLower == c.toLower)))
              = .cat (.char (fun d => d.toLower == c.toLower))
                  (seq (w.map (fun c => .char (fun d => d.toLower == c.toLower)))) := rfl
          have hstarts : startsWith (c :: w) (d :: rest)
              = (d.toLower == c.toLower && startsWith w rest) := by
            simp [startsWith, List.map_take]
          rw [hcat, ends_cat, ends_char_cons]
          simp only [hstarts]
          by_cases hd : (d.toLower == c.toLower) = true
          · rw [if_pos hd, List.flatMap_singleton, ih, hd, Bool.true_and]
            by_cases hw : startsWith w rest = true
            · simp only [hw, if_true, List.length_cons]
              have hlength : w.length ≤ rest.length := by
                have heq := congrArg List.length (eq_of_beq hw)
                simp only [List.length_map, List.length_take] at heq
                omega
              have hadvance := Spot.advance_advance ⟨before, passed, d :: rest, groups⟩
                (m := 1) (n := w.length) (by simp only [List.length_cons]; omega)
              rw [Nat.add_comm w.length 1, ← hadvance]
              rfl
            · simp [hw]
          · simp [hd]

/-- A word matches where it is written between boundaries. -/
theorem ends_word {isWord : Char → Bool} {w : String} (hne : w.toList ≠ [])
    (hletters : ∀ c ∈ w.toList, ∀ d : Char, d.toLower = c.toLower → isWord d = true) (p : Spot) :
  ends (word isWord w) p
    = if wordAt isWord p.before = false ∧ startsWith w.toList p.rest = true ∧
        wordAt isWord (p.rest.drop w.toList.length).head? = false then
        [p.advance w.toList.length]
      else []
  := by
  have hword : word isWord w = .cat (.boundary isWord) (.cat (letters w)
      (.cat (.boundary isWord) .empty)) := rfl
  rw [hword, ends_cat, ends_boundary]
  by_cases hstarts : startsWith w.toList p.rest = true
  · have hread : ∀ d ∈ p.rest.take w.toList.length, isWord d = true := by
      intro d hd
      have hmem : d.toLower ∈ w.toList.map Char.toLower := by
        rw [← eq_of_beq hstarts]
        exact List.mem_map_of_mem hd
      obtain ⟨c, hc, heq⟩ := List.mem_map.mp hmem
      exact hletters c hc d heq.symm
    have hlength : w.toList.length ≤ p.rest.length := by
      have heq := congrArg List.length (eq_of_beq hstarts)
      simp only [List.length_map, List.length_take] at heq
      omega
    have hpos : 0 < w.toList.length := List.length_pos_of_ne_nil hne
    have hhead : wordAt isWord p.rest.head? = true := by
      obtain ⟨d, rest, hrest⟩ := List.exists_cons_of_ne_nil
        (List.ne_nil_of_length_pos (Nat.lt_of_lt_of_le hpos hlength))
      obtain ⟨n, hn⟩ := Nat.exists_eq_succ_of_ne_zero (Nat.ne_of_gt hpos)
      rw [hrest]
      apply hread
      rw [hrest, hn, List.take_succ_cons]
      exact List.mem_cons_self
    have hlast : wordAt isWord (p.rest.take w.toList.length).getLast? = true := by
      have htake : p.rest.take w.toList.length ≠ [] := by
        rw [ne_eq, List.take_eq_nil_iff]
        rintro (hzero | hnil)
        · omega
        · rw [hnil, List.length_nil] at hlength
          omega
      rw [List.getLast?_eq_some_getLast htake]
      exact hread _ (List.getLast_mem htake)
    rw [hhead]
    by_cases hbefore : wordAt isWord p.before = true
    · simp [hbefore]
    · rw [Bool.not_eq_true] at hbefore
      rw [hbefore, if_neg Bool.false_ne_true, List.flatMap_singleton, ends_cat, letters,
        ends_letters, if_pos hstarts, List.flatMap_singleton, ends_cat, ends_boundary]
      have hadvance : (p.advance w.toList.length).before
          = (p.rest.take w.toList.length).getLast? := by
        rw [Spot.advance, if_neg (by omega)]
      rw [hadvance, hlast]
      have hrest : (p.advance w.toList.length).rest = p.rest.drop w.toList.length := rfl
      rw [hrest]
      by_cases hafter : wordAt isWord (p.rest.drop w.toList.length).head? = true
      · rw [hafter, if_pos rfl, List.flatMap_nil, if_neg]
        rintro ⟨-, -, hfalse⟩
        cases hfalse
      · rw [Bool.not_eq_true] at hafter
        rw [hafter, if_neg Bool.false_ne_true.symm, List.flatMap_singleton, ends_empty,
          if_pos ⟨rfl, hstarts, rfl⟩]
  · rw [if_neg (fun h : _ ∧ _ ∧ _ => hstarts h.2.1)]
    split
    · rfl
    · rw [List.flatMap_singleton, ends_cat, letters, ends_letters, if_neg hstarts, List.flatMap_nil]

/-! ### What a pattern can read -/

/-- A pattern can read a text wherever it stands. -/
def Reads (r : Regex) (u : Text) : Prop :=
  ∀ (p : Spot) (s : Text), p.rest = u ++ s → p.advance u.length ∈ ends r p

theorem Spot.advance_zero (p : Spot) :
  p.advance 0 = p
  := by
  obtain ⟨before, passed, rest, groups⟩ := p
  simp only [Spot.advance, if_true, Nat.add_zero, List.drop_zero]

theorem mem_starEnds_char {f : Char → Bool} {u s : Text} {fuel : ℕ} (hu : ∀ c ∈ u, f c = true)
    (hfuel : u.length ≤ fuel) {p : Spot} (hp : p.rest = u ++ s) :
  p.advance u.length ∈ starEnds (ends (.char f)) fuel p
  := by
  induction u generalizing fuel p with
  | nil =>
      rw [List.length_nil, Spot.advance_zero]
      cases fuel with
      | zero => exact List.mem_singleton_self p
      | succ fuel => exact List.mem_append_right _ (List.mem_singleton_self p)
  | cons c u ih =>
      cases fuel with
      | zero => cases hfuel
      | succ fuel =>
          obtain ⟨before, passed, rest, groups⟩ := p
          dsimp only at hp
          subst hp
          have hstep : ends (.char f) ⟨before, passed, c :: u ++ s, groups⟩
              = [Spot.advance ⟨before, passed, c :: u ++ s, groups⟩ 1] := by
            rw [List.cons_append, ends_char_cons, if_pos (hu c List.mem_cons_self)]
            rfl
          have hlength : 1 + u.length ≤ (c :: u ++ s).length := by
            simp only [List.length_append, List.length_cons]
            omega
          rw [starEnds, hstep, List.flatMap_singleton, List.length_cons, Nat.add_comm u.length 1,
            ← Spot.advance_advance _ hlength]
          apply List.mem_append_left
          have hmoved : (Spot.advance ⟨before, passed, c :: u ++ s, groups⟩ 1).passed ≠ passed :=
            Nat.ne_of_gt (Nat.lt_succ_self passed)
          rw [if_neg hmoved]
          exact ih (fun d hd => hu d (List.mem_cons_of_mem c hd)) (Nat.le_of_succ_le_succ hfuel) rfl

theorem reads_star_char {f : Char → Bool} {u : Text} (hu : ∀ c ∈ u, f c = true) :
  Reads (.star (.char f)) u
  := by
  intro p s hp
  apply mem_starEnds_char hu _ hp
  rw [hp, List.length_append]
  exact Nat.le_add_right _ _

theorem Reads.cat {r r' : Regex} {u v : Text} (hr : Reads r u) (hr' : Reads r' v) :
  Reads (.cat r r') (u ++ v)
  := by
  intro p s hp
  have hlength : u.length + v.length ≤ p.rest.length := by
    rw [hp]
    simp only [List.length_append]
    omega
  rw [List.append_assoc] at hp
  have hrest : (p.advance u.length).rest = v ++ s := by
    rw [Spot.advance, hp, List.drop_left]
  rw [List.length_append, ← Spot.advance_advance p hlength]
  exact List.mem_flatMap.mpr ⟨_, hr p _ hp, hr' _ s hrest⟩

theorem reads_char {f : Char → Bool} {c : Char} (hc : f c = true) :
  Reads (.char f) [c]
  := by
  intro p s hp
  obtain ⟨before, passed, rest, groups⟩ := p
  dsimp only at hp
  subst hp
  rw [List.cons_append, ends_char_cons, if_pos hc]
  exact List.mem_singleton_self _

theorem reads_exactly (c : Char) :
  Reads (exactly c) [c]
  := reads_char (beq_self_eq_true c)

theorem reads_plus_char {f : Char → Bool} {u : Text} (hne : u ≠ []) (hu : ∀ c ∈ u, f c = true) :
  Reads (plus (.char f)) u
  := by
  cases u with
  | nil => cases hne rfl
  | cons c u =>
      exact Reads.cat (reads_char (hu c List.mem_cons_self))
        (reads_star_char (fun d hd => hu d (List.mem_cons_of_mem c hd)))

theorem reads_empty : Reads .empty [] := by
  intro p s hp
  rw [List.length_nil, Spot.advance_zero]
  exact List.mem_singleton_self p

theorem Reads.optional {r : Regex} {u : Text} (hr : Reads r u) :
  Reads (optional r) u
  := fun p s hp => List.mem_append_left _ (hr p s hp)

theorem reads_optional_nil (r : Regex) :
  Reads (optional r) []
  := fun p s hp => List.mem_append_right _ (reads_empty p s hp)

theorem reads_letters {w : String} {u : Text} (hu : u.map Char.toLower = w.toList.map Char.toLower) :
  Reads (letters w) u
  := by
  intro p s hp
  have hlength : u.length = w.toList.length := by
    have heq := congrArg List.length hu
    rwa [List.length_map, List.length_map] at heq
  have hstarts : startsWith w.toList p.rest = true := by
    rw [startsWith, hp, ← hlength, List.take_left, beq_iff_eq]
    exact hu
  rw [letters, ends_letters, if_pos hstarts, hlength]
  exact List.mem_singleton_self _

/-- A pattern matches when its first part can read what is there and its second part matches
behind. -/
theorem ends_cat_ne_nil {r r' : Regex} {u s : Text} {p : Spot} (hr : Reads r u)
    (hp : p.rest = u ++ s) (hr' : ends r' (p.advance u.length) ≠ []) :
  ends (.cat r r') p ≠ []
  := by
  obtain ⟨q, hq⟩ := List.exists_mem_of_ne_nil _ hr'
  exact List.ne_nil_of_mem (List.mem_flatMap.mpr ⟨_, hr p s hp, hq⟩)

theorem Spot.rest_advance {p : Spot} {u s : Text} (hp : p.rest = u ++ s) :
  (p.advance u.length).rest = s
  := by
  rw [Spot.advance, hp, List.drop_left]

/-- A group can read what its pattern can, and what follows matches whatever has been read. -/
theorem ends_cat_group_ne_nil {k : ℕ} {r r' : Regex} {u s : Text} {p : Spot} (hr : Reads r u)
    (hp : p.rest = u ++ s) (hr' : ∀ q : Spot, q.rest = s → ends r' q ≠ []) :
  ends (.cat (.group k r) r') p ≠ []
  := by
  obtain ⟨q, hq⟩ := List.exists_mem_of_ne_nil _
    (hr' { p.advance u.length with
        groups := (k, p.rest.take ((p.advance u.length).passed - p.passed))
          :: (p.advance u.length).groups }
      (Spot.rest_advance hp))
  exact List.ne_nil_of_mem (List.mem_flatMap.mpr ⟨_, List.mem_map.mpr ⟨_, hr p s hp, rfl⟩, hq⟩)

theorem Spot.before_advance {p : Spot} {u s : Text} (hne : u ≠ []) (hp : p.rest = u ++ s) :
  (p.advance u.length).before = u.getLast?
  := by
  rw [Spot.advance, hp, List.take_left]
  exact if_neg (fun h => hne (List.eq_nil_of_length_eq_zero h))

theorem ends_cat_empty (r : Regex) (p : Spot) :
  ends (.cat r .empty) p = ends r p
  := by
  rw [ends_cat]
  exact List.flatMap_singleton' (ends r p)

theorem isSome_tryAt_of_mem {r : Regex} {p q : Spot} (h : q ∈ ends r p) :
  (tryAt r p).isSome = true
  := by
  rw [tryAt]
  cases hspots : ends r p with
  | nil =>
      rw [hspots] at h
      cases h
  | cons q spots => rfl

theorem mem_ends_oneOf {r : Regex} {rs : List Regex} {p q : Spot} (hr : r ∈ rs)
    (hq : q ∈ ends r p) :
  q ∈ ends (oneOf rs) p
  := by
  induction rs with
  | nil => cases hr
  | cons s rs ih =>
      cases rs with
      | nil =>
          obtain rfl := List.mem_singleton.mp hr
          exact hq
      | cons s' rs =>
          rcases List.mem_cons.mp hr with rfl | hr
          · exact List.mem_append_left _ hq
          · exact List.mem_append_right _ (ih hr)

/-! ### Matches in a text that is put together -/

/-- The character before a spot behind some text. -/
def lastOr (before : Option Char) (u : Text) : Option Char := u.getLast?.or before

theorem lastOr_cons (before : Option Char) (c : Char) (u : Text) :
  lastOr before (c :: u) = lastOr (some c) u
  := by
  cases u with
  | nil => rfl
  | cons d u =>
      rw [lastOr, lastOr, List.getLast?_cons_cons]
      rw [List.getLast?_eq_some_getLast (List.cons_ne_nil d u)]
      rfl

theorem lastOr_append (before : Option Char) (u v : Text) :
  lastOr before (u ++ v) = lastOr (lastOr before u) v
  := by
  induction u generalizing before with
  | nil => rfl
  | cons c u ih => rw [List.cons_append, lastOr_cons, ih, lastOr_cons]

theorem matchesFrom_skip (r : Regex) (before : Option Char) (passed : ℕ) (u s : Text) :
  matchesFrom r u.length before passed (u ++ s)
    = matchesFrom r 0 (lastOr before u) (passed + u.length) s
  := by
  induction u generalizing before passed with
  | nil => rfl
  | cons c u ih =>
      rw [List.length_cons, List.cons_append, matchesFrom, ih, lastOr_cons, Nat.add_assoc,
        Nat.add_comm 1]

/-- Where nothing matches, the search goes on behind. -/
theorem matchesFrom_append {r : Regex} {before : Option Char} {passed : ℕ} {u s : Text}
    (h : ∀ v c w, u = v ++ c :: w →
      tryAt r ⟨lastOr before v, passed + v.length, c :: (w ++ s), []⟩ = none) :
  matchesFrom r 0 before passed (u ++ s)
    = matchesFrom r 0 (lastOr before u) (passed + u.length) s
  := by
  induction u generalizing before passed with
  | nil => rfl
  | cons c u ih =>
      have hnone := h [] c u rfl
      rw [List.cons_append, matchesFrom]
      simp only [lastOr, List.getLast?_nil, Option.none_or, List.length_nil, Nat.add_zero] at hnone
      rw [hnone]
      dsimp only
      rw [ih, lastOr_cons, List.length_cons, Nat.add_assoc, Nat.add_comm 1]
      intro v d w hsplit
      have hnext := h (c :: v) d w (by rw [hsplit, List.cons_append])
      rw [lastOr_cons, List.length_cons] at hnext
      rw [Nat.add_assoc, Nat.add_comm 1]
      exact hnext

/-- A match that takes up a text is followed by the matches behind it. -/
theorem matchesFrom_of_tryAt {r : Regex} {before : Option Char} {passed : ℕ} {u s : Text} {q : Spot}
    (hne : u ≠ []) (h : tryAt r ⟨before, passed, u ++ s, []⟩ = some q)
    (hq : q.passed = passed + u.length) :
  matchesFrom r 0 before passed (u ++ s)
    = ⟨passed, passed + u.length, q.groups⟩
      :: matchesFrom r 0 (lastOr before u) (passed + u.length) s
  := by
  obtain ⟨c, u, rfl⟩ := List.exists_cons_of_ne_nil hne
  rw [List.cons_append] at h ⊢
  rw [matchesFrom, h]
  dsimp only
  rw [hq, List.length_cons, lastOr_cons, Nat.add_sub_cancel_left, Nat.add_sub_cancel,
    matchesFrom_skip, Nat.add_assoc, Nat.add_comm 1]

/-! ### What a pattern has read -/

/-- A pattern that has been tried at one spot and ends at another has read a text. -/
structure HasRead (p q : Spot) (u : Text) : Prop where
  rest : p.rest = u ++ q.rest
  passed : q.passed = p.passed + u.length

theorem HasRead.refl (p : Spot) :
  HasRead p p []
  := ⟨rfl, rfl⟩

theorem HasRead.trans {p q r : Spot} {u v : Text} (h : HasRead p q u) (h' : HasRead q r v) :
  HasRead p r (u ++ v)
  := by
  constructor
  · rw [h.rest, h'.rest, List.append_assoc]
  · rw [h'.passed, h.passed, List.length_append, Nat.add_assoc]

theorem HasRead.take {p q : Spot} {u : Text} (h : HasRead p q u) :
  p.rest.take (q.passed - p.passed) = u
  := by rw [h.rest, h.passed, Nat.add_sub_cancel_left, List.take_left]

theorem hasRead_of_mem_char {f : Char → Bool} {p q : Spot} (h : q ∈ ends (.char f) p) :
  ∃ c, f c = true ∧ HasRead p q [c] ∧ q.groups = p.groups
  := by
  obtain ⟨before, passed, rest, groups⟩ := p
  cases rest with
  | nil => cases h
  | cons c rest =>
      rw [ends_char_cons] at h
      split at h
      · rename_i hc
        obtain rfl := List.mem_singleton.mp h
        exact ⟨c, hc, ⟨rfl, rfl⟩, rfl⟩
      · cases h

theorem hasRead_of_mem_starEnds {f : Char → Bool} {fuel : ℕ} {p q : Spot}
    (h : q ∈ starEnds (ends (.char f)) fuel p) :
  ∃ u, (∀ c ∈ u, f c = true) ∧ HasRead p q u ∧ q.groups = p.groups
  := by
  induction fuel generalizing p with
  | zero =>
      obtain rfl := List.mem_singleton.mp h
      exact ⟨[], by simp, .refl q, rfl⟩
  | succ fuel ih =>
      rcases List.mem_append.mp h with h | h
      · obtain ⟨q', hq', h⟩ := List.mem_flatMap.mp h
        split at h
        · cases h
        · obtain ⟨c, hc, hread, hgroups⟩ := hasRead_of_mem_char hq'
          obtain ⟨u, hu, hread', hgroups'⟩ := ih h
          refine ⟨c :: u, ?_, hread.trans hread', hgroups'.trans hgroups⟩
          intro d hd
          rcases List.mem_cons.mp hd with rfl | hd
          · apply hc
          · apply hu d hd
      · obtain rfl := List.mem_singleton.mp h
        exact ⟨[], by simp, .refl q, rfl⟩

theorem hasRead_of_mem_star {f : Char → Bool} {p q : Spot} (h : q ∈ ends (.star (.char f)) p) :
  ∃ u, (∀ c ∈ u, f c = true) ∧ HasRead p q u ∧ q.groups = p.groups
  := hasRead_of_mem_starEnds h

theorem mem_ends_seq_cons {r : Regex} {rs : List Regex} {p q : Spot}
    (h : q ∈ ends (seq (r :: rs)) p) :
  ∃ m ∈ ends r p, q ∈ ends (seq rs) m
  := List.mem_flatMap.mp h

/-- A sequence is read part after part. -/
theorem mem_ends_seq_append (rs ss : List Regex) {p q : Spot} :
  q ∈ ends (seq (rs ++ ss)) p ↔ ∃ m ∈ ends (seq rs) p, q ∈ ends (seq ss) m
  := by
  induction rs generalizing p with
  | nil =>
      constructor
      · intro h
        exact ⟨p, List.mem_singleton_self p, h⟩
      · rintro ⟨m, hm, h⟩
        rwa [List.mem_singleton.mp hm] at h
  | cons r rs ih =>
      constructor
      · intro h
        obtain ⟨m, hm, h⟩ := mem_ends_seq_cons h
        obtain ⟨m', hm', h⟩ := ih.mp h
        exact ⟨m', List.mem_flatMap.mpr ⟨m, hm, hm'⟩, h⟩
      · rintro ⟨m', hm', h⟩
        obtain ⟨m, hm, hm'⟩ := mem_ends_seq_cons hm'
        exact List.mem_flatMap.mpr ⟨m, hm, ih.mpr ⟨m', hm', h⟩⟩

/-- Whatever a pattern has read lies between where it was tried and where it ends. -/
theorem exists_hasRead {r : Regex} {p q : Spot} (h : q ∈ ends r p) : ∃ u, HasRead p q u := by
  have hstay : ∀ {p q : Spot}, q ∈ [p] → ∃ u, HasRead p q u := by
    intro p q h
    obtain rfl := List.mem_singleton.mp h
    exact ⟨[], .refl q⟩
  induction r generalizing p q with
  | empty => exact hstay h
  | char f =>
      obtain ⟨c, -, hread, -⟩ := hasRead_of_mem_char h
      exact ⟨[c], hread⟩
  | cat r s ihr ihs =>
      obtain ⟨m, hm, hq⟩ := List.mem_flatMap.mp h
      obtain ⟨u, hu⟩ := ihr hm
      obtain ⟨v, hv⟩ := ihs hq
      exact ⟨u ++ v, hu.trans hv⟩
  | alt r s ihr ihs =>
      rcases List.mem_append.mp h with h | h
      · exact ihr h
      · exact ihs h
  | star r ih =>
      have hrun : ∀ (fuel : ℕ) (p : Spot), q ∈ starEnds (ends r) fuel p → ∃ u, HasRead p q u := by
        intro fuel
        induction fuel with
        | zero => exact fun _ h => hstay h
        | succ fuel hfuel =>
            intro p h
            rcases List.mem_append.mp h with h | h
            · obtain ⟨m, hm, h⟩ := List.mem_flatMap.mp h
              split at h
              · cases h
              · obtain ⟨u, hu⟩ := ih hm
                obtain ⟨v, hv⟩ := hfuel m h
                exact ⟨u ++ v, hu.trans hv⟩
            · exact hstay h
      exact hrun _ p h
  | lazyStar r ih =>
      have hrun : ∀ (fuel : ℕ) (p : Spot), q ∈ lazyStarEnds (ends r) fuel p →
          ∃ u, HasRead p q u := by
        intro fuel
        induction fuel with
        | zero => exact fun _ h => hstay h
        | succ fuel hfuel =>
            intro p h
            rcases List.mem_cons.mp h with h | h
            · exact hstay (List.mem_singleton.mpr h)
            · obtain ⟨m, hm, h⟩ := List.mem_flatMap.mp h
              split at h
              · cases h
              · obtain ⟨u, hu⟩ := ih hm
                obtain ⟨v, hv⟩ := hfuel m h
                exact ⟨u ++ v, hu.trans hv⟩
      exact hrun _ p h
  | group k r ih =>
      obtain ⟨m, hm, rfl⟩ := List.mem_map.mp h
      obtain ⟨u, hu⟩ := ih hm
      exact ⟨u, hu.rest, hu.passed⟩
  | boundary isWord =>
      rw [ends_boundary] at h
      split at h
      · cases h
      · exact hstay h
  | textStart | lineStart | textEnd =>
      simp only [ends_textStart, ends_lineStart, ends_textEnd] at h
      split at h
      · exact hstay h
      · cases h
  | notAhead r _ =>
      rw [ends_notAhead] at h
      split at h
      · exact hstay h
      · cases h

/-- Whatever a pattern reads are characters of a kind. -/
def ReadsOnly (f : Char → Prop) (r : Regex) : Prop :=
  ∀ p q, q ∈ ends r p → ∃ u, HasRead p q u ∧ ∀ c ∈ u, f c

section ReadsOnly

variable {f : Char → Prop} {r : Regex} {g : Char → Bool}

theorem readsOnly_char (h : ∀ c, g c = true → f c) : ReadsOnly f (.char g) := by
  intro p q hq
  obtain ⟨c, hc, hread, -⟩ := hasRead_of_mem_char hq
  refine ⟨[c], hread, ?_⟩
  intro d hd
  rw [List.mem_singleton.mp hd]
  apply h c hc

theorem readsOnly_star_char (h : ∀ c, g c = true → f c) : ReadsOnly f (.star (.char g)) := by
  intro p q hq
  obtain ⟨u, hu, hread, -⟩ := hasRead_of_mem_star hq
  exact ⟨u, hread, fun c hc => h c (hu c hc)⟩

theorem ReadsOnly.optional (h : ReadsOnly f r) : ReadsOnly f (optional r) := by
  intro p q hq
  rcases List.mem_append.mp hq with hq | hq
  · exact h p q hq
  · obtain rfl := List.mem_singleton.mp hq
    exact ⟨[], .refl q, by simp⟩

theorem readsOnly_seq {rs : List Regex} (h : ∀ r ∈ rs, ReadsOnly f r) : ReadsOnly f (seq rs) := by
  induction rs with
  | nil =>
      intro p q hq
      obtain rfl := List.mem_singleton.mp hq
      exact ⟨[], .refl q, by simp⟩
  | cons r rs ih =>
      intro p q hq
      obtain ⟨m, hm, hq⟩ := mem_ends_seq_cons hq
      obtain ⟨u, hread, hu⟩ := h r List.mem_cons_self p m hm
      obtain ⟨v, hread', hv⟩ := ih (fun s hs => h s (List.mem_cons_of_mem r hs)) m q hq
      refine ⟨u ++ v, hread.trans hread', ?_⟩
      intro c hc
      rcases List.mem_append.mp hc with hc | hc
      · exact hu c hc
      · exact hv c hc

end ReadsOnly

/-- Whatever a pattern reads begins with a character of a kind. -/
def BeginsWith (f : Char → Prop) (r : Regex) : Prop :=
  ∀ p q, q ∈ ends r p → ∃ c u, HasRead p q (c :: u) ∧ f c

section BeginsWith

variable {f : Char → Prop} {r s : Regex}

theorem beginsWith_char {g : Char → Bool} (h : ∀ c, g c = true → f c) : BeginsWith f (.char g) := by
  intro p q hq
  obtain ⟨c, hc, hread, -⟩ := hasRead_of_mem_char hq
  exact ⟨c, [], hread, h c hc⟩

theorem BeginsWith.cat (h : BeginsWith f r) (s : Regex) : BeginsWith f (.cat r s) := by
  intro p q hq
  obtain ⟨m, hm, hq⟩ := List.mem_flatMap.mp hq
  obtain ⟨c, u, hread, hc⟩ := h p m hm
  obtain ⟨v, hv⟩ := exists_hasRead hq
  exact ⟨c, u ++ v, hread.trans hv, hc⟩

theorem BeginsWith.boundary_cat (h : BeginsWith f s) (isWord : Char → Bool) :
  BeginsWith f (.cat (.boundary isWord) s)
  := by
  intro p q hq
  obtain ⟨m, hm, hread⟩ := List.mem_flatMap.mp hq
  rw [ends_boundary] at hm
  split at hm
  · cases hm
  · rw [List.mem_singleton.mp hm] at hread
    exact h p q hread

theorem BeginsWith.alt (hr : BeginsWith f r) (hs : BeginsWith f s) : BeginsWith f (.alt r s) := by
  intro p q hq
  rcases List.mem_append.mp hq with hq | hq
  · exact hr p q hq
  · exact hs p q hq

theorem beginsWith_letters {w : String} {c : Char} (hw : w.toList.head? = some c)
    (h : ∀ d : Char, d.toLower = c.toLower → f d) :
  BeginsWith f (letters w)
  := by
  obtain ⟨rest, hrest⟩ := List.head?_eq_some_iff.mp hw
  have hletters : letters w = .cat (.char (fun d => d.toLower == c.toLower))
      (seq (rest.map (fun c => .char (fun d => d.toLower == c.toLower)))) := by
    rw [letters, hrest]
    rfl
  rw [hletters]
  apply BeginsWith.cat
  apply beginsWith_char
  intro d hd
  exact h d (eq_of_beq hd)

/-- A repetition that has read something has begun with what it repeats. -/
theorem BeginsWith.of_mem_star (h : BeginsWith f r) {p q : Spot} (hq : q ∈ ends (.star r) p)
    (hne : q.rest ≠ p.rest) :
  ∃ c t, p.rest = c :: t ∧ f c
  := by
  have hrest : ∀ fuel, q ∈ starEnds (ends r) fuel p → ∃ c t, p.rest = c :: t ∧ f c := by
    intro fuel hq
    cases fuel with
    | zero => exact absurd (by rw [List.mem_singleton.mp hq]) hne
    | succ fuel =>
        rcases List.mem_append.mp hq with hq | hq
        · obtain ⟨m, hm, -⟩ := List.mem_flatMap.mp hq
          obtain ⟨c, u, hread, hc⟩ := h p m hm
          exact ⟨c, u ++ m.rest, hread.rest, hc⟩
        · exact absurd (by rw [List.mem_singleton.mp hq]) hne
  exact hrest _ hq

end BeginsWith

/-- A match that a search has found is one where the pattern has been tried. -/
theorem exists_of_searchFrom {r : Regex} {before : Option Char} {passed : ℕ} {s : Text}
    {found : Found} (h : searchFrom r before passed s = some found) :
  ∃ p q k, q ∈ ends r p ∧ p.rest = s.drop k ∧ k ≤ s.length ∧ found.start = passed + k
    ∧ found.start = p.passed ∧ found.stop = q.passed
  := by
  have hhere : ∀ {before : Option Char} {passed : ℕ} {s : Text} {q : Spot},
      tryAt r ⟨before, passed, s, []⟩ = some q →
      found = ⟨passed, q.passed, q.groups⟩ →
      ∃ p q k, q ∈ ends r p ∧ p.rest = s.drop k ∧ k ≤ s.length ∧ found.start = passed + k
        ∧ found.start = p.passed ∧ found.stop = q.passed := by
    intro before passed s q htry hfound
    subst hfound
    exact ⟨_, q, 0, List.mem_of_head? htry, rfl, Nat.zero_le _, rfl, rfl, rfl⟩
  induction s generalizing before passed with
  | nil =>
      rw [searchFrom, Option.map_eq_some_iff] at h
      obtain ⟨q, htry, rfl⟩ := h
      exact hhere htry rfl
  | cons c s ih =>
      rw [searchFrom] at h
      split at h
      · next q htry => exact hhere htry (Option.some.inj h).symm
      · obtain ⟨p, q, k, hq, hrest, hk, hstart, hp, hstop⟩ := ih h
        refine ⟨p, q, k + 1, hq, hrest, Nat.succ_le_succ hk, ?_, hp, hstop⟩
        rw [hstart, Nat.add_assoc, Nat.add_comm 1]

theorem searchFrom_of_tryAt {r : Regex} {before : Option Char} {passed : ℕ} {s : Text} {q : Spot}
    (h : tryAt r ⟨before, passed, s, []⟩ = some q) :
  searchFrom r before passed s = some ⟨passed, q.passed, q.groups⟩
  := by
  cases s with
  | nil => rw [searchFrom, h, Option.map_some]
  | cons c s => rw [searchFrom, h]

/-- Where nothing matches, a search goes on behind. -/
theorem searchFrom_append {r : Regex} {before : Option Char} {passed : ℕ} {u s : Text}
    (h : ∀ v c w, u = v ++ c :: w →
      tryAt r ⟨lastOr before v, passed + v.length, c :: (w ++ s), []⟩ = none) :
  searchFrom r before passed (u ++ s) = searchFrom r (lastOr before u) (passed + u.length) s
  := by
  induction u generalizing before passed with
  | nil => rfl
  | cons c u ih =>
      have hnone := h [] c u rfl
      rw [List.cons_append, searchFrom]
      simp only [lastOr, List.getLast?_nil, Option.none_or, List.length_nil, Nat.add_zero] at hnone
      rw [hnone]
      dsimp only
      rw [ih, lastOr_cons, List.length_cons, Nat.add_assoc, Nat.add_comm 1]
      intro v d w hsplit
      have hnext := h (c :: v) d w (by rw [hsplit, List.cons_append])
      rw [lastOr_cons, List.length_cons] at hnext
      rw [Nat.add_assoc, Nat.add_comm 1]
      exact hnext

/-- A search finds nothing exactly when the pattern matches at no spot. -/
theorem searchFrom_eq_none_iff {r : Regex} {before : Option Char} {passed : ℕ} {s : Text} :
  searchFrom r before passed s = none
    ↔ ∀ v w, s = v ++ w → tryAt r ⟨lastOr before v, passed + v.length, w, []⟩ = none
  := by
  constructor
  · intro h v w hs
    induction v generalizing before passed s with
    | nil =>
        rw [List.nil_append] at hs
        subst hs
        cases htry : tryAt r ⟨before, passed, s, []⟩ with
        | none => exact htry
        | some q =>
            rw [searchFrom_of_tryAt htry] at h
            cases h
    | cons c v ih =>
        subst hs
        rw [List.cons_append, searchFrom] at h
        split at h
        · cases h
        · have hnext := ih h rfl
          rw [lastOr_cons, List.length_cons, Nat.add_comm v.length, ← Nat.add_assoc]
          exact hnext
  · intro h
    rw [← List.append_nil s, searchFrom_append]
    · have hend := h s [] (List.append_nil s).symm
      rw [searchFrom, hend, Option.map_none]
    · intro v c w hsplit
      apply h v
      rw [List.append_nil, hsplit]

/-! ### Replacing matches -/

theorem subFrom_skip (r : Regex) (replace : Found → Text) (before : Option Char) (passed : ℕ)
    (u s : Text) :
  subFrom r replace u.length before passed (u ++ s)
    = subFrom r replace 0 (lastOr before u) (passed + u.length) s
  := by
  induction u generalizing before passed with
  | nil => rfl
  | cons c u ih =>
      rw [List.length_cons, List.cons_append, subFrom, ih, lastOr_cons, Nat.add_assoc,
        Nat.add_comm 1]

/-- A match that takes up a text is replaced, and what is behind it follows. -/
theorem subFrom_of_tryAt {r : Regex} {replace : Found → Text} {before : Option Char} {passed : ℕ}
    {u s : Text} {q : Spot} (hne : u ≠ [])
    (h : tryAt r ⟨before, passed, u ++ s, []⟩ = some q) (hq : q.passed = passed + u.length) :
  subFrom r replace 0 before passed (u ++ s)
    = replace ⟨passed, passed + u.length, q.groups⟩
      ++ subFrom r replace 0 (lastOr before u) (passed + u.length) s
  := by
  obtain ⟨c, u, rfl⟩ := List.exists_cons_of_ne_nil hne
  rw [List.cons_append] at h ⊢
  rw [subFrom, h]
  dsimp only
  rw [hq, List.length_cons, if_neg (by omega), List.append_nil, lastOr_cons,
    Nat.add_sub_cancel_left, Nat.add_sub_cancel, subFrom_skip, Nat.add_assoc, Nat.add_comm 1]

/-- Where nothing matches, a character stays as it is. -/
theorem subFrom_of_tryAt_none {r : Regex} {replace : Found → Text} {before : Option Char}
    {passed : ℕ} {c : Char} {s : Text} (h : tryAt r ⟨before, passed, c :: s, []⟩ = none) :
  subFrom r replace 0 before passed (c :: s)
    = c :: subFrom r replace 0 (some c) (passed + 1) s
  := by rw [subFrom, h]

theorem matchesFrom_of_tryAt_none {r : Regex} {before : Option Char} {passed : ℕ} {c : Char}
    {s : Text} (h : tryAt r ⟨before, passed, c :: s, []⟩ = none) :
  matchesFrom r 0 before passed (c :: s) = matchesFrom r 0 (some c) (passed + 1) s
  := by rw [matchesFrom, h]

end Regex
