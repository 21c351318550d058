import DataOpsStudio.Results.InputLeases

/-!
# Reading the inputs of comparisons

What is read of an input are the rows that its result had when it was captured, or the reading
fails because the input is lost.  An input to which a comparison refers that waits or runs is not
lost.
-/

namespace Results

open Text Broker Workflow

variable {Id Row : Type} [DecidableEq Id] {limits : SpoolLimits Row}
  {s t : InputState Id Row} {id : Id} {rows : List Row}

/-- The next batch of the rows that were captured. -/
def batchOf (rows : List Row) (batchSize offset : ℕ) : Option (List Row) :=
  if offset < rows.length then some ((rows.drop offset).take batchSize) else none

omit [DecidableEq Id] in
/-- A batch is what has been captured, or the input is lost. -/
theorem nextBatch_spec {captureWindow : ℤ} (h : s.Inv captureWindow)
    (hcaptured : s.captured id = some rows) {batchSize : ℕ} (hbatch : 0 < batchSize)
    (offset : ℕ) :
  (s.nextBatch id rows.length batchSize offset = .error .compareInputLost
      ∧ s.spoolExists id = false)
    ∨ s.nextBatch id rows.length batchSize offset = .ok (batchOf rows batchSize offset)
  := by
  rw [InputState.nextBatch, batchOf]
  split
  case isFalse => exact .inr rfl
  case isTrue hlt =>
    rw [fetchRange_eq (h.sound id)]
    cases hexists : s.spoolExists id with
    | true =>
        right
        rw [h.kept id rows hcaptured hexists]
        split
        case h_1 hnone =>
          have hlength := congrArg List.length hnone
          rw [List.length_take, List.length_drop, List.length_nil] at hlength
          omega
        case h_2 row more hsome => rw [hsome]
    | false =>
        left
        rw [InputState.spoolExists, Option.isSome_eq_false_iff, Option.isNone_iff_eq_none]
          at hexists
        have hnil : (s.store.dir id).rows = [] := by
          rw [SpoolDir.rows, SpoolDir.readManifest, hexists]
          rfl
        rw [hnil, List.drop_nil, List.take_nil]
        exact ⟨rfl, rfl⟩

/-- An action keeps what has been captured. -/
theorem captured_next {ttl : ℤ} {a : InputAction Id Row} (hcaptured : s.captured id = some rows)
    (h : s.next limits ttl a = some t) :
  t.captured id = some rows
  := by
  cases a with
  | takeSnapshot id' scope allowPartial origin resultSet createdAt linkable =>
      rw [InputState.next, InputState.takeSnapshot] at h
      simp only [Option.bind_eq_bind, Option.bind_eq_some_iff, Option.guard_eq_some'] at h
      obtain ⟨-, ⟨-, -, hfresh⟩, resolved, -, total, -, store, -, h⟩ := h
      obtain rfl := Option.some.inj h
      dsimp only
      rw [Function.update_of_ne, hcaptured]
      rintro rfl
      cases hfresh.symm.trans hcaptured
  | tick now =>
      rw [InputState.next] at h
      split at h
      case isTrue =>
        obtain rfl := Option.some.inj h
        exact hcaptured
      case isFalse => cases h
  | setAccess scope allowed =>
      obtain rfl := Option.some.inj h
      exact hcaptured
  | write op =>
      simp only [InputState.next, Option.bind_eq_bind, Option.bind_eq_some_iff] at h
      obtain ⟨-, -, store, -, h⟩ := h
      obtain rfl := Option.some.inj h
      exact hcaptured
  | insertInput i =>
      simp only [InputState.next, Option.bind_eq_bind, Option.bind_eq_some_iff] at h
      obtain ⟨capture, -, input, -, h⟩ := h
      obtain rfl := Option.some.inj h
      exact hcaptured
  | discardSnapshot i removed =>
      simp only [InputState.next, Option.bind_eq_bind, Option.bind_eq_some_iff] at h
      obtain ⟨capture, -, h⟩ := h
      obtain rfl := Option.some.inj h
      cases removed with
      | true => exact hcaptured
      | false => exact hcaptured
  | openInput id' scope batchSize retainUntil allowExpired =>
      simp only [InputState.next, Option.bind_eq_bind, Option.bind_eq_some_iff] at h
      obtain ⟨opened, hopened, h⟩ := h
      obtain rfl := Option.some.inj h
      obtain ⟨-, row, -, -, -, -, rfl⟩ :=
        InputState.openInput_spec (Outcome.toOption_eq_some.mp hopened)
      exact hcaptured
  | enqueue job =>
      rw [InputState.next] at h
      split at h
      case isTrue =>
        obtain rfl := Option.some.inj h
        exact hcaptured
      case isFalse => cases h
  | finish i =>
      obtain rfl := Option.some.inj h
      exact hcaptured
  | collectExpired id' cutoff outcome =>
      simp only [InputState.next, Option.bind_eq_bind, Option.bind_eq_some_iff] at h
      obtain ⟨row, -, -, -, h⟩ := h
      cases outcome with
      | deleted =>
          obtain rfl := Option.some.inj h
          exact hcaptured
      | failed isLost =>
          obtain rfl := Option.some.inj h
          cases isLost with
          | true => exact hcaptured
          | false => exact hcaptured
  | listProtected active =>
      obtain rfl := Option.some.inj h
      exact hcaptured
  | beginScan i =>
      simp only [InputState.next, Option.bind_eq_bind, Option.bind_eq_some_iff] at h
      obtain ⟨round, -, -, -, h⟩ := h
      obtain rfl := Option.some.inj h
      exact hcaptured
  | removeDir i id' =>
      simp only [InputState.next, Option.bind_eq_bind, Option.bind_eq_some_iff] at h
      obtain ⟨scan, -, -, -, h⟩ := h
      obtain rfl := Option.some.inj h
      exact hcaptured

section Runs

variable {ttl captureWindow gcWindow : ℤ}

/-- The runs in which rows are inserted and directories are removed in time. -/
def timelySystem (limits : SpoolLimits Row) (ttl captureWindow gcWindow : ℤ) :
    TransitionSystem (InputState Id Row) (InputAction Id Row) :=
  (inputSystem limits ttl).restrict (InputState.Timely captureWindow gcWindow)

theorem captured_later (hlater : (timelySystem limits ttl captureWindow gcWindow).Later s t)
    (hcaptured : s.captured id = some rows) :
  t.captured id = some rows
  := by
  induction hlater with
  | refl => exact hcaptured
  | tail _ hstep ih =>
      obtain ⟨a, hnext, -⟩ := hstep
      exact captured_next ih hnext

omit [DecidableEq Id] in
/-- The batches that are read one after the other are what has been captured. -/
theorem readBatches_spec {batchSize : ℕ} (hbatch : 0 < batchSize)
    {states : List (InputState Id Row)} (hinv : ∀ t ∈ states, t.Inv captureWindow)
    (hcaptured : ∀ t ∈ states, t.captured id = some rows) {offset : ℕ} {read : List Row × Bool}
    (hread : InputState.readBatches id rows.length batchSize states offset = .ok read) :
  read.1 <+: rows.drop offset ∧ (read.2 = true → read.1 = rows.drop offset)
  := by
  induction states generalizing offset read with
  | nil =>
      obtain rfl := Except.ok.inj hread
      exact ⟨List.nil_prefix, fun h => by cases h⟩
  | cons t states ih =>
      rw [List.forall_mem_cons] at hinv hcaptured
      rw [InputState.readBatches] at hread
      obtain ⟨hlost, -⟩ | hok := nextBatch_spec hinv.1 hcaptured.1 hbatch offset
      · rw [hlost] at hread
        cases hread
      rw [hok, batchOf] at hread
      split at hread
      case h_1 e he => cases he
      case h_2 hend =>
        obtain rfl := Except.ok.inj hread
        split at hend
        case isTrue => cases hend
        case isFalse hle =>
          rw [List.drop_eq_nil_of_le (Nat.not_lt.mp hle)]
          exact ⟨List.nil_prefix, fun _ => rfl⟩
      case h_3 batch hsome =>
        obtain ⟨more, hmore, rfl⟩ := Outcome.map_eq_ok.mp hread
        obtain ⟨hpre, hall⟩ := ih hinv.2 hcaptured.2 hmore
        split at hsome
        case isFalse => cases hsome
        case isTrue hlt =>
          obtain rfl := Option.some.inj (Except.ok.inj hsome)
          have hsplit : rows.drop offset = (rows.drop offset).take batchSize
              ++ rows.drop (offset + ((rows.drop offset).take batchSize).length) := by
            rw [← List.drop_drop, List.length_take]
            conv_lhs => rw [← List.take_append_drop batchSize (rows.drop offset)]
            congr 1
            obtain hle | hle := Nat.le_total batchSize (rows.drop offset).length
            · rw [Nat.min_eq_left hle]
            · rw [Nat.min_eq_right hle, List.drop_length, List.drop_eq_nil_of_le hle]
          constructor
          · have happended :=
              (List.prefix_append_right_inj ((rows.drop offset).take batchSize)).mpr hpre
            rw [← hsplit] at happended
            exact happended
          · intro hend
            dsimp only
            rw [hall hend, ← hsplit]

end Runs

/-! ### A run -/

instance decidableTimely (captureWindow gcWindow : ℤ) (s : InputState Id Row) :
    ∀ a, Decidable (s.Timely captureWindow gcWindow a)
  | .tick _ => .isTrue trivial
  | .setAccess _ _ => .isTrue trivial
  | .write _ => .isTrue trivial
  | .takeSnapshot _ _ _ _ _ _ _ => .isTrue trivial
  | .insertInput i => inferInstanceAs (Decidable (∀ capture, s.captures[i]? = some capture → _))
  | .discardSnapshot _ _ => .isTrue trivial
  | .openInput _ _ _ _ _ => .isTrue trivial
  | .enqueue _ => .isTrue trivial
  | .finish _ => .isTrue trivial
  | .collectExpired _ _ _ => .isTrue trivial
  | .listProtected _ => .isTrue trivial
  | .beginScan i => inferInstanceAs (Decidable (∀ round, s.rounds[i]? = some round → _))
  | .removeDir _ _ => .isTrue trivial

/-- The state after an action that comes in time. -/
def InputState.timelyNext (limits : SpoolLimits Row) (ttl captureWindow gcWindow : ℤ)
    (s : InputState Id Row) (a : InputAction Id Row) : Option (InputState Id Row) :=
  if s.Timely captureWindow gcWindow a then s.next limits ttl a else none

theorem later_of_timelyNext {ttl captureWindow gcWindow : ℤ} {actions : List (InputAction Id Row)}
    (h : actions.foldlM (InputState.timelyNext limits ttl captureWindow gcWindow) s = some t) :
  (timelySystem limits ttl captureWindow gcWindow).Later s t
  := by
  apply TransitionSystem.later_of_foldlM _ h
  intro s a t hnext
  rw [InputState.timelyNext] at hnext
  split at hnext
  case isTrue htimely => exact ⟨hnext, htimely⟩
  case isFalse => cases hnext

/-- Two rows are appended and captured, the input is opened, and a comparison is handed in.  The
time of the input comes, and the result is deleted. -/
def captureActions : List (InputAction ℕ ℕ) :=
  let scope : ActorProject := { actorId := [], projectId := [] }
  [.setAccess scope true, .write (.append 0 [1, 2]), .write (.setColumns 0 [[]]),
    .takeSnapshot 1 scope false (some (.statement scope .succeeded (some 0)))
      (some (.complete, some 2)) 0 (fun _ => true),
    .insertInput 0, .openInput 1 scope 1 5 false, .enqueue { scope := scope, inputIds := [1] },
    .tick 200, .write (.delete 0)]

theorem later_captureActions :
  ∃ s : InputState ℕ ℕ,
    (timelySystem { maxRows := 10, maxBytes := 10, partBytes := List.length } 100 10 10).Later {} s
      ∧ s.jobs = [{ scope := { actorId := [], projectId := [] }, inputIds := [1] }]
      ∧ s.access { actorId := [], projectId := [] } = true ∧ s.now = 200
      ∧ ∃ opened, s.openInput 1 { actorId := [], projectId := [] } 1 300 true = .ok opened
        ∧ InputState.readBatches 1 opened.1.loadedRows 1 [s, s, s] 0 = .ok ([1, 2], true)
  := by
  have hrun : ∃ s : InputState ℕ ℕ,
      captureActions.foldlM (InputState.timelyNext
        { maxRows := 10, maxBytes := 10, partBytes := List.length } 100 10 10) {} = some s
      ∧ s.jobs = [{ scope := { actorId := [], projectId := [] }, inputIds := [1] }]
      ∧ s.access { actorId := [], projectId := [] } = true ∧ s.now = 200
      ∧ ∃ opened, s.openInput 1 { actorId := [], projectId := [] } 1 300 true = .ok opened
        ∧ InputState.readBatches 1 opened.1.loadedRows 1 [s, s, s] 0 = .ok ([1, 2], true) :=
    ⟨_, rfl, rfl, rfl, rfl, _, rfl, rfl⟩
  obtain ⟨s, hs, h⟩ := hrun
  exact ⟨s, later_of_timelyNext hs, h⟩

/-! ### What is read -/

section Read

variable {ttl captureWindow gcWindow : ℤ}

/-- Whatever happens while an input is being read, the rows that are read are the first of those
that the result had when it was captured, and all of them if the reading comes to its end. -/
theorem reads_captured_rows (hwindows : 0 ≤ ttl → captureWindow + gcWindow ≤ ttl)
    (hs : (timelySystem limits ttl captureWindow gcWindow).Reachable s)
    {scope : ActorProject} {batchSize : ℕ} {retainUntil : ℤ} {allowExpired : Bool}
    {opened : CompareResultInput × InputState Id Row}
    (hopened : s.openInput id scope batchSize retainUntil allowExpired = .ok opened)
    {states : List (InputState Id Row)}
    (hstates : List.IsChain (timelySystem limits ttl captureWindow gcWindow).Later (s :: states))
    {read : List Row × Bool}
    (hread : InputState.readBatches id opened.1.loadedRows batchSize states 0 = .ok read) :
  ∃ rows, s.captured id = some rows ∧ read.1 <+: rows ∧ (read.2 = true → read.1 = rows)
  := by
  obtain ⟨hbatch, row, hrow, -, -, -, rfl⟩ := InputState.openInput_spec hopened
  obtain ⟨rows, hcaptured, hloaded⟩ := (inv_of_reachable hwindows hs).described id row hrow
  have htrans : IsTrans (InputState Id Row)
      (timelySystem limits ttl captureWindow gcWindow).Later :=
    ⟨fun _ _ _ => Relation.ReflTransGen.trans⟩
  obtain ⟨hlater, -⟩ := List.pairwise_cons.mp (List.isChain_iff_pairwise.mp hstates)
  dsimp only at hread
  rw [hloaded] at hread
  obtain ⟨hpre, hall⟩ := readBatches_spec (by omega)
    (fun t ht => inv_of_reachable hwindows (hs.later (hlater t ht)))
    (fun t ht => captured_later (hlater t ht) hcaptured) hread
  exact ⟨rows, hcaptured, hpre, hall⟩

/-- Three batches are read after the result has been deleted. -/
theorem reads_captured_rows_run :
  ∃ s : InputState ℕ ℕ, ∃ rows, s.captured 1 = some rows ∧ [1, 2] <+: rows
    ∧ (true = true → [1, 2] = rows)
  := by
  obtain ⟨s, hlater, -, -, -, opened, hopened, hread⟩ := later_captureActions
  use s
  have hrefl : (timelySystem { maxRows := 10, maxBytes := 10, partBytes := List.length }
      100 10 10).Later s s := .refl
  apply reads_captured_rows _ (TransitionSystem.Reachable.later (.initial rfl) hlater) hopened
    (.cons_cons hrefl (.cons_cons hrefl (.cons_cons hrefl (.singleton s)))) hread
  decide

end Read

end Results
