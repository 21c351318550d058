import DataOpsStudio.Secrets.Store

/-!
# Rotation of the master key

A rotation reads all rows, encrypts them anew, writes them and swaps the key.  While it is under
way, a secret that is stored or rotated is lost: it is overwritten by what the rotation has read,
or it is left under the old key.  If every write is made with the key of the moment and none is
made while a rotation is under way, the store stays in order.  A rotation that fails has changed
nothing.
-/

namespace Secrets

section Rotation

variable {Key Ciphertext : Type}

/-! ### Steps that keep out of each other's way -/

/-- The operation is a rotation of the master key that has read the rows and not yet swapped the
key. -/
def Point.rotating : Point Key Ciphertext → Bool
  | .decryptRecords _ _ _ _ => true
  | .updateMany _ _ => true
  | .swapKey _ _ => true
  | _ => false

/-- No rotation of the master key is under way. -/
def State.NoneRotating (s : State Key Ciphertext) : Prop :=
  ∀ op ∈ s.operations, op.point.rotating = false

/-- The next step of an operation keeps out of the way of rotations: a row is written only with the
key of the moment and while no rotation is under way, and no rotation starts while another is under
way.  Every other step is free. -/
def Point.KeepsApart (s : State Key Ciphertext) : Point Key Ciphertext → Prop
  | .insertSecret _ _ _ key _ => key = s.store.key ∧ s.NoneRotating
  | .updateSecret _ _ key _ => key = s.store.key ∧ s.NoneRotating
  | .listSecrets _ => s.NoneRotating
  | _ => True

/-- A step of a run keeps out of the way of rotations. -/
def KeepsApart (s : State Key Ciphertext) : Action Key → Prop
  | .advance i _ _ => ∀ op ∈ s.operations[i]?, op.point.KeepsApart s
  | _ => True

/-! ### What a step leaves behind -/

/-- What an operation knows of the store. -/
def Point.Fits (cipher : Cipher Key Ciphertext) (store : Store Key Ciphertext) :
    Point Key Ciphertext → Prop
  | .insertSecret _ _ plaintext key ciphertext => cipher.decrypt key ciphertext = some plaintext
  | .updateSecret _ plaintext key ciphertext => cipher.decrypt key ciphertext = some plaintext
  | .decryptRecords _ records plaintextByRef failedRefs =>
      failedRefs = []
        ∧ (∀ record ∈ records,
            cipher.decrypt store.key record.ciphertext = some (store.written record.ref))
        ∧ (∀ p ∈ plaintextByRef, p.2 = store.written p.1)
        ∧ ∀ row ∈ store.rows,
            row.ref ∈ records.map SecretRecord.ref ∨ row.ref ∈ plaintextByRef.map Prod.fst
  | .updateMany newKey ciphertextByRef =>
      (∀ p ∈ ciphertextByRef, cipher.decrypt newKey p.2 = some (store.written p.1))
        ∧ ∀ row ∈ store.rows, row.ref ∈ ciphertextByRef.map Prod.fst
  | .swapKey newKey _ => Readable cipher newKey store
  | _ => True

/-- The rows that were written are not yet those of the key. -/
def Point.swapping : Point Key Ciphertext → Bool
  | .swapKey _ _ => true
  | _ => false

/-- The store is in order, up to a rotation that is under way. -/
structure InOrder (cipher : Cipher Key Ciphertext) (s : State Key Ciphertext) : Prop where
  fits : ∀ (i : ℕ) op, s.operations[i]? = some op → op.point.Fits cipher s.store
  alone : ∀ (i j : ℕ) op op', s.operations[i]? = some op → s.operations[j]? = some op' →
    op.point.rotating = true → op'.point.rotating = true → i = j
  readable : (∀ op ∈ s.operations, op.point.swapping = false) →
    Readable cipher s.store.key s.store

variable {cipher : Cipher Key Ciphertext}

/-- An operation that is not a rotation under way knows nothing of the store. -/
theorem Point.Fits.of_not_rotating {store store' : Store Key Ciphertext}
    {point : Point Key Ciphertext} (hpoint : point.rotating = false)
    (h : point.Fits cipher store) :
  point.Fits cipher store'
  := by
  cases point with
  | decryptRecords newKey records plaintextByRef failedRefs => cases hpoint
  | updateMany newKey ciphertextByRef => cases hpoint
  | swapKey newKey rotatedCount => cases hpoint
  | _ => apply h

/-- What an operation knows of the store stays true when rows are deleted. -/
theorem Point.Fits.of_subset {store : Store Key Ciphertext}
    {rows : List (SecretRecord Ciphertext)} {point : Point Key Ciphertext}
    (hrows : ∀ row ∈ rows, row ∈ store.rows) (h : point.Fits cipher store) :
  point.Fits cipher { store with rows }
  := by
  cases point with
  | decryptRecords newKey records plaintextByRef failedRefs =>
      obtain ⟨hfailed, hrecords, hplaintexts, hall⟩ := h
      exact ⟨hfailed, hrecords, hplaintexts, fun row hrow => hall row (hrows row hrow)⟩
  | updateMany newKey ciphertextByRef =>
      exact ⟨h.1, fun row hrow => h.2 row (hrows row hrow)⟩
  | swapKey newKey rotatedCount => exact fun row hrow => h row (hrows row hrow)
  | _ => apply h

/-! ### Writes -/

theorem mem_updateCiphertext {rows : List (SecretRecord Ciphertext)} {ref : Text}
    {ciphertext : Ciphertext} {row : SecretRecord Ciphertext}
    (h : row ∈ updateCiphertext rows ref ciphertext) :
  ∃ before ∈ rows, before.ref = row.ref
    ∧ row.ciphertext = if row.ref = ref then ciphertext else before.ciphertext
  := by
  obtain ⟨before, hbefore, rfl⟩ := List.mem_map.mp h
  refine ⟨before, hbefore, ?_⟩
  split
  · exact ⟨rfl, rfl⟩
  · exact ⟨rfl, rfl⟩

/-- A row after many writes has one of the ciphertexts that were written for it, or its old one
when none was. -/
theorem mem_updateManyCiphertexts {ciphertextByRef : List (Text × Ciphertext)}
    {rows : List (SecretRecord Ciphertext)} {row : SecretRecord Ciphertext}
    (h : row ∈ updateManyCiphertexts rows ciphertextByRef) :
  ∃ before ∈ rows, before.ref = row.ref
    ∧ ((row.ref, row.ciphertext) ∈ ciphertextByRef
      ∨ row.ref ∉ ciphertextByRef.map Prod.fst ∧ row.ciphertext = before.ciphertext)
  := by
  induction ciphertextByRef generalizing rows with
  | nil => exact ⟨row, h, rfl, .inr ⟨List.not_mem_nil, rfl⟩⟩
  | cons p rest ih =>
      obtain ⟨middle, hmiddle, href, hrest⟩ := ih h
      obtain ⟨before, hbefore, href', hciphertext⟩ := mem_updateCiphertext hmiddle
      refine ⟨before, hbefore, href'.trans href, ?_⟩
      rcases hrest with hrest | ⟨hnot, hold⟩
      · left
        apply List.mem_cons_of_mem _ hrest
      · rw [href] at hciphertext
        by_cases hp : row.ref = p.1
        · left
          rw [hold, hciphertext, if_pos hp, hp]
          apply List.mem_cons_self
        · right
          rw [hold, hciphertext, if_neg hp]
          refine ⟨?_, rfl⟩
          rw [List.map_cons, List.mem_cons]
          rintro (h | h)
          · apply hp h
          · apply hnot h

/-! ### One step -/

/-- The next step of the operation must not meet a rotation of another: it writes rows or swaps the
key. -/
def Point.writing : Point Key Ciphertext → Bool
  | .insertSecret _ _ _ _ _ => true
  | .updateSecret _ _ _ _ => true
  | .updateMany _ _ => true
  | .swapKey _ _ => true
  | _ => false

/-- A ciphertext that is about to be written was made with the key of the moment. -/
def Point.UsesKey (key : Key) : Point Key Ciphertext → Prop
  | .insertSecret _ _ _ made _ => made = key
  | .updateSecret _ _ made _ => made = key
  | _ => True

/-- What a step of an operation does: it leaves what the operation knows true and the store
readable, up to the swap of the key, and unless it writes it at most deletes rows. -/
structure Sound (cipher : Cipher Key Ciphertext) (store store' : Store Key Ciphertext)
    (point point' : Point Key Ciphertext) : Prop where
  fits : point'.Fits cipher store'
  readable : point.swapping = true ∨ Readable cipher store.key store →
    point'.swapping = true ∨ Readable cipher store'.key store'
  others : point.writing = true
    ∨ ∃ rows, (∀ row ∈ rows, row ∈ store.rows) ∧ store' = { store with rows }

/-- A step that leaves the store alone is sound when the operation knows what it should then. -/
theorem Sound.of_store_eq {store : Store Key Ciphertext} {point point' : Point Key Ciphertext}
    (hfits : point'.Fits cipher store) (hswapping : point.swapping = false) :
  Sound cipher store store point point'
  where
  fits := hfits
  readable h := .inr (h.resolve_left (by rw [hswapping]; decide))
  others := .inr ⟨store.rows, fun _ hrow => hrow, rfl⟩

/-- A step that writes a ciphertext made with the key of the moment is sound. -/
theorem Sound.of_write {store : Store Key Ciphertext} {point : Point Key Ciphertext}
    {rows : List (SecretRecord Ciphertext)} {ref plaintext : Text} {ciphertext : Ciphertext}
    {outcome : Outcome} (hdecrypt : cipher.decrypt store.key ciphertext = some plaintext)
    (hswapping : point.swapping = false) (hwriting : point.writing = true)
    (hrows : ∀ row ∈ rows, (row.ref = ref ∧ row.ciphertext = ciphertext)
      ∨ (row.ref ≠ ref ∧ ∃ before ∈ store.rows, before.ref = row.ref
        ∧ row.ciphertext = before.ciphertext)) :
  Sound cipher store { store with rows, written := Function.update store.written ref plaintext }
    point (.finished outcome)
  where
  fits := trivial
  readable h := by
    right
    intro row hrow
    show cipher.decrypt store.key row.ciphertext
      = some (Function.update store.written ref plaintext row.ref)
    rcases hrows row hrow with ⟨href, hciphertext⟩ | ⟨href, before, hbefore, hsame, hciphertext⟩
    · rw [hciphertext, href, Function.update_self]
      apply hdecrypt
    · rw [Function.update_of_ne href, hciphertext, ← hsame]
      apply h.resolve_left (by rw [hswapping]; decide) before hbefore
  others := .inl hwriting

variable {store store' : Store Key Ciphertext} {point point' : Point Key Ciphertext} {minted : Text}
  {draw : Text → ℕ}

/-- The next record is decrypted to what was last written for it. -/
theorem sound_decryptRecords {newKey : Key} {records : List (SecretRecord Ciphertext)}
    {plaintextByRef : List (Text × Text)} {failedRefs : List Text}
    (hfits : (Point.decryptRecords newKey records plaintextByRef failedRefs).Fits cipher store)
    (h : perform cipher store minted draw
      (.decryptRecords newKey records plaintextByRef failedRefs) = some (store', point')) :
  Sound cipher store store' (.decryptRecords newKey records plaintextByRef failedRefs) point'
  := by
  obtain ⟨rfl, hrecords, hplaintexts, hall⟩ := hfits
  cases records with
  | nil =>
      rw [perform, if_neg (not_not.mpr rfl)] at h
      obtain ⟨rfl, rfl⟩ := Prod.mk.inj (Option.some.inj h)
      apply Sound.of_store_eq _ rfl
      constructor
      · intro p hp
        obtain ⟨q, hq, rfl⟩ := List.mem_map.mp hp
        rw [cipher.decrypt_encrypt, hplaintexts q hq]
      · intro row hrow
        obtain ⟨q, hq, href⟩ := List.mem_map.mp ((hall row hrow).resolve_left List.not_mem_nil)
        rw [List.map_map, ← href]
        apply List.mem_map.mpr
        exact ⟨q, hq, rfl⟩
  | cons record records =>
      rw [perform, hrecords record List.mem_cons_self] at h
      obtain ⟨rfl, rfl⟩ := Prod.mk.inj (Option.some.inj h)
      apply Sound.of_store_eq _ rfl
      refine ⟨rfl, fun r hr => hrecords r (List.mem_cons_of_mem _ hr), ?_, ?_⟩
      · intro p hp
        rcases List.mem_append.mp hp with hp | hp
        · apply hplaintexts p hp
        · rw [List.mem_singleton.mp hp]
      · intro row hrow
        rw [List.map_append, List.mem_append]
        rcases hall row hrow with hrow | hrow
        · rcases List.mem_cons.mp hrow with href | hrow
          · right
            right
            rw [href]
            apply List.mem_singleton.mpr rfl
          · left
            apply hrow
        · right
          left
          apply hrow

/-- The writes of a rotation leave every row with a ciphertext under the new key. -/
theorem readable_updateMany {newKey : Key} {ciphertextByRef : List (Text × Ciphertext)}
    (hfits : (Point.updateMany newKey ciphertextByRef).Fits cipher store) :
  Readable cipher newKey
    { store with rows := updateManyCiphertexts store.rows ciphertextByRef }
  := by
  obtain ⟨hciphertexts, hall⟩ := hfits
  intro row hrow
  obtain ⟨before, hbefore, href, hwritten | ⟨hnot, -⟩⟩ := mem_updateManyCiphertexts hrow
  · apply hciphertexts _ hwritten
  · rw [← href] at hnot
    apply (hnot (hall before hbefore)).elim

/-- Every step is sound, when it writes with the key of the moment and reads rows that are in
order. -/
theorem perform_sound (hkey : point.UsesKey store.key) (hfits : point.Fits cipher store)
    (hread : ∀ newKey, point = .listSecrets newKey → Readable cipher store.key store)
    (h : perform cipher store minted draw point = some (store', point')) :
  Sound cipher store store' point point'
  := by
  cases point with
  | encrypt plaintext kind =>
      obtain ⟨rfl, rfl⟩ := Prod.mk.inj (Option.some.inj h)
      exact .of_store_eq (cipher.decrypt_encrypt _ _ _) rfl
  | insertSecret ref kind plaintext key ciphertext =>
      obtain rfl : key = store.key := hkey
      rw [perform] at h
      split at h
      · obtain ⟨rfl, rfl⟩ := Prod.mk.inj (Option.some.inj h)
        exact .of_store_eq trivial rfl
      · rename_i hfresh
        obtain ⟨rfl, rfl⟩ := Prod.mk.inj (Option.some.inj h)
        apply Sound.of_write hfits rfl rfl
        intro row hrow
        rcases List.mem_append.mp hrow with hold | hnew
        · right
          refine ⟨?_, row, hold, rfl, rfl⟩
          intro href
          apply hfresh
          apply List.any_eq_true.mpr
          exact ⟨row, hold, decide_eq_true href⟩
        · left
          rw [List.mem_singleton.mp hnew]
          exact ⟨rfl, rfl⟩
  | getSecret ref kind plaintext =>
      rw [perform] at h
      split at h
      · obtain ⟨rfl, rfl⟩ := Prod.mk.inj (Option.some.inj h)
        exact .of_store_eq trivial rfl
      · split at h
        · obtain ⟨rfl, rfl⟩ := Prod.mk.inj (Option.some.inj h)
          exact .of_store_eq trivial rfl
        · obtain ⟨rfl, rfl⟩ := Prod.mk.inj (Option.some.inj h)
          exact .of_store_eq trivial rfl
  | encryptNew ref plaintext =>
      obtain ⟨rfl, rfl⟩ := Prod.mk.inj (Option.some.inj h)
      exact .of_store_eq (cipher.decrypt_encrypt _ _ _) rfl
  | updateSecret ref plaintext key ciphertext =>
      obtain rfl : key = store.key := hkey
      obtain ⟨rfl, rfl⟩ := Prod.mk.inj (Option.some.inj h)
      apply Sound.of_write hfits rfl rfl
      intro row hrow
      obtain ⟨before, hbefore, href, hciphertext⟩ := mem_updateCiphertext hrow
      by_cases hrow' : row.ref = ref
      · left
        rw [if_pos hrow'] at hciphertext
        exact ⟨hrow', hciphertext⟩
      · right
        rw [if_neg hrow'] at hciphertext
        exact ⟨hrow', before, hbefore, href, hciphertext⟩
  | deleteSecret ref =>
      obtain ⟨rfl, rfl⟩ := Prod.mk.inj (Option.some.inj h)
      have hrows : ∀ row ∈ store.rows.filter (fun row => decide (row.ref ≠ ref)),
          row ∈ store.rows := fun row hrow => (List.mem_filter.mp hrow).1
      constructor
      · trivial
      · rintro (hswapping | hreadable)
        · cases hswapping
        · right
          intro row hrow
          apply hreadable row (hrows row hrow)
      · right
        exact ⟨_, hrows, rfl⟩
  | listSecrets newKey =>
      obtain ⟨rfl, rfl⟩ := Prod.mk.inj (Option.some.inj h)
      refine .of_store_eq ⟨rfl, hread newKey rfl, fun p hp => (List.not_mem_nil hp).elim, ?_⟩ rfl
      intro row hrow
      left
      apply List.mem_map_of_mem hrow
  | decryptRecords newKey records plaintextByRef failedRefs => exact sound_decryptRecords hfits h
  | updateMany newKey ciphertextByRef =>
      obtain ⟨rfl, rfl⟩ := Prod.mk.inj (Option.some.inj h)
      exact ⟨readable_updateMany hfits, fun _ => .inl rfl, .inl rfl⟩
  | swapKey newKey rotatedCount =>
      obtain ⟨rfl, rfl⟩ := Prod.mk.inj (Option.some.inj h)
      exact ⟨trivial, fun _ => .inr hfits, .inl rfl⟩
  | finished outcome => cases h

/-- Only a rotation that starts and the steps of a rotation lead into the time of a rotation. -/
theorem rotating_of_perform (h : perform cipher store minted draw point = some (store', point'))
    (hpoint' : point'.rotating = true) :
  point.rotating = true ∨ ∃ newKey, point = .listSecrets newKey
  := by
  cases point with
  | listSecrets newKey => exact .inr ⟨newKey, rfl⟩
  | decryptRecords newKey records plaintextByRef failedRefs => exact .inl rfl
  | updateMany newKey ciphertextByRef => exact .inl rfl
  | swapKey newKey rotatedCount => exact .inl rfl
  | getSecret ref kind plaintext =>
      rw [perform] at h
      split at h
      · obtain ⟨rfl, rfl⟩ := Prod.mk.inj (Option.some.inj h)
        cases hpoint'
      · split at h
        · obtain ⟨rfl, rfl⟩ := Prod.mk.inj (Option.some.inj h)
          cases hpoint'
        · obtain ⟨rfl, rfl⟩ := Prod.mk.inj (Option.some.inj h)
          cases hpoint'
  | insertSecret ref kind plaintext key ciphertext =>
      rw [perform] at h
      split at h
      · obtain ⟨rfl, rfl⟩ := Prod.mk.inj (Option.some.inj h)
        cases hpoint'
      · obtain ⟨rfl, rfl⟩ := Prod.mk.inj (Option.some.inj h)
        cases hpoint'
  | finished outcome => cases h
  | _ =>
      obtain ⟨rfl, rfl⟩ := Prod.mk.inj (Option.some.inj h)
      cases hpoint'

/-! ### Runs -/

variable [DecidableEq Key] [DecidableEq Ciphertext] {s t : State Key Ciphertext}

theorem getElem?_move {i : ℕ} {op : Operation Key Ciphertext} (hop : s.operations[i]? = some op)
    (j : ℕ) :
  (s.move i op store point).operations[j]?
    = if i = j then some { op with point } else s.operations[j]?
  := by
  rw [State.move, List.getElem?_set]
  split
  · rename_i hij
    rw [if_pos (List.getElem?_eq_some_iff.mp hop).1]
  · rfl

/-- A step of an operation leaves the store in order when it at most deletes rows, or meets no
rotation of another. -/
theorem InOrder.move {i : ℕ} {op : Operation Key Ciphertext} (h : InOrder cipher s)
    (hop : s.operations[i]? = some op)
    (hfits : point'.Fits cipher store')
    (hreadable : op.point.swapping = true ∨ Readable cipher s.store.key s.store →
      point'.swapping = true ∨ Readable cipher store'.key store')
    (hstore : (op.point.rotating = true ∨ s.NoneRotating)
      ∨ ∃ rows, (∀ row ∈ rows, row ∈ s.store.rows) ∧ store' = { s.store with rows })
    (hrotating : point'.rotating = true → op.point.rotating = true ∨ s.NoneRotating) :
  InOrder cipher (s.move i op store' point')
  := by
  have hothers : ∀ (j : ℕ) other, i ≠ j → s.operations[j]? = some other →
      op.point.rotating = true ∨ s.NoneRotating → other.point.rotating = false := by
    rintro j other hij hother (hrot | hnone)
    · by_contra hrot'
      apply hij (h.alone i j op other hop hother hrot (by simpa using hrot'))
    · apply hnone other (List.mem_of_getElem? hother)
  constructor
  · intro j other hother
    rw [getElem?_move hop] at hother
    split at hother
    · obtain rfl := Option.some.inj hother
      apply hfits
    · rename_i hij
      have hknows := h.fits j other hother
      rcases hstore with halone | ⟨rows, hrows, rfl⟩
      · apply hknows.of_not_rotating (hothers j other hij hother halone)
      · apply hknows.of_subset hrows
  · intro j k other other' hother hother' hrot hrot'
    rw [getElem?_move hop] at hother hother'
    split at hother
    · split at hother'
      · rename_i hij hik
        exact hij.symm.trans hik
      · rename_i hij hik
        obtain rfl := Option.some.inj hother
        rw [hothers k other' hik hother' (hrotating hrot)] at hrot'
        cases hrot'
    · split at hother'
      · rename_i hij hik
        obtain rfl := Option.some.inj hother'
        rw [hothers j other hij hother (hrotating hrot')] at hrot
        cases hrot
      · apply h.alone j k other other' hother hother' hrot hrot'
  · intro hnone
    have hself : point'.swapping = false :=
      hnone { op with point := point' } (List.mem_of_getElem? (by rw [getElem?_move hop, if_pos rfl]))
    refine (hreadable ?_).resolve_left (by rw [hself]; decide)
    cases hswapping : op.point.swapping with
    | true => exact .inl rfl
    | false =>
        right
        apply h.readable
        intro other hother
        obtain ⟨j, hj⟩ := List.mem_iff_getElem?.mp hother
        by_cases hij : i = j
        · subst hij
          rw [hop] at hj
          rw [← Option.some.inj hj, hswapping]
        · apply hnone other (List.mem_of_getElem? (i := j) _)
          rw [getElem?_move hop, if_neg hij, hj]

theorem inOrder_initial (h : (secretStore cipher).initial s) :
  InOrder cipher s
  := by
  obtain ⟨hreadable, hoperations, -⟩ := h
  constructor
  · intro i op hop
    rw [hoperations] at hop
    cases hop
  · intro i j op op' hop
    rw [hoperations] at hop
    cases hop
  · intro _
    apply hreadable

omit [DecidableEq Key] [DecidableEq Ciphertext] in
theorem InOrder.readable_of_noneRotating (h : InOrder cipher s) (hnone : s.NoneRotating) :
  Readable cipher s.store.key s.store
  := by
  apply h.readable
  intro op hop
  have hrotating := hnone op hop
  cases hpoint : op.point with
  | swapKey newKey rotatedCount =>
      rw [hpoint] at hrotating
      cases hrotating
  | _ => rfl

/-- A step that keeps out of the way of rotations leaves the store in order. -/
theorem inOrder_step {a : Action Key} (h : InOrder cipher s) (hapart : KeepsApart s a)
    (hstep : next cipher s a = some t) :
  InOrder cipher t
  := by
  cases a with
  | call call =>
      obtain rfl := Option.some.inj hstep
      have hstart : ∀ store : Store Key Ciphertext,
          (call.start : Point Key Ciphertext).Fits cipher store
            ∧ (call.start : Point Key Ciphertext).rotating = false := by
        intro store
        cases call <;> exact ⟨trivial, rfl⟩
      have hget : ∀ (i : ℕ) op, (s.operations ++ [⟨call, call.start⟩])[i]? = some op →
          s.operations[i]? = some op ∨ op = ⟨call, call.start⟩ := by
        intro i op hop
        rcases Nat.lt_or_ge i s.operations.length with hlt | hge
        · left
          rw [← List.getElem?_append_left hlt]
          apply hop
        · right
          rw [List.getElem?_append_right hge] at hop
          apply List.mem_singleton.mp (List.mem_of_getElem? hop)
      constructor
      · intro i op hop
        rcases hget i op hop with hop | rfl
        · apply h.fits i op hop
        · apply (hstart _).1
      · intro i j op op' hop hop' hrot hrot'
        rcases hget i op hop with hop | rfl
        · rcases hget j op' hop' with hop' | rfl
          · apply h.alone i j op op' hop hop' hrot hrot'
          · rw [(hstart s.store).2] at hrot'
            cases hrot'
        · rw [(hstart s.store).2] at hrot
          cases hrot
      · intro hnone
        apply h.readable
        intro op hop
        apply hnone op (List.mem_append_left _ hop)
  | raise i =>
      obtain ⟨op, hop, hstep⟩ := Option.bind_eq_some_iff.mp hstep
      split at hstep
      · rename_i hraise
        obtain rfl := Option.some.inj hstep
        have hswapping : op.point.swapping = false := by
          cases hpoint : op.point with
          | swapKey newKey rotatedCount =>
              rw [hpoint] at hraise
              cases hraise
          | _ => rfl
        have hfits : (Point.finished (.raised .storage)).Fits cipher s.store := trivial
        apply h.move hop hfits
        · rintro (hswap | hreadable)
          · rw [hswapping] at hswap
            cases hswap
          · exact .inr hreadable
        · right
          exact ⟨s.store.rows, fun _ hrow => hrow, rfl⟩
        · intro hrot
          cases hrot
      · cases hstep
  | advance i minted draw =>
      obtain ⟨op, hop, hstep⟩ := Option.bind_eq_some_iff.mp hstep
      obtain ⟨⟨store', point'⟩, hperform, hstep⟩ := Option.bind_eq_some_iff.mp hstep
      obtain rfl := Option.some.inj hstep
      have hapart := hapart op hop
      have hkey : op.point.UsesKey s.store.key := by
        cases hpoint : op.point with
        | insertSecret ref kind plaintext key ciphertext =>
            rw [hpoint] at hapart
            apply hapart.1
        | updateSecret ref plaintext key ciphertext =>
            rw [hpoint] at hapart
            apply hapart.1
        | _ => trivial
      have halone : op.point.writing = true → op.point.rotating = true ∨ s.NoneRotating := by
        intro hwriting
        cases hpoint : op.point with
        | insertSecret ref kind plaintext key ciphertext =>
            rw [hpoint] at hapart
            exact .inr hapart.2
        | updateSecret ref plaintext key ciphertext =>
            rw [hpoint] at hapart
            exact .inr hapart.2
        | updateMany newKey ciphertextByRef => exact .inl rfl
        | swapKey newKey rotatedCount => exact .inl rfl
        | _ =>
            rw [hpoint] at hwriting
            cases hwriting
      have hlist : ∀ newKey, op.point = .listSecrets newKey → s.NoneRotating := by
        intro newKey hpoint
        rw [hpoint] at hapart
        apply hapart
      have hsound := perform_sound hkey (h.fits i op hop)
        (fun newKey hpoint => h.readable_of_noneRotating (hlist newKey hpoint)) hperform
      apply h.move hop hsound.fits hsound.readable
      · rcases hsound.others with hwriting | hrows
        · exact .inl (halone hwriting)
        · exact .inr hrows
      · intro hrot
        rcases rotating_of_perform hperform hrot with hrot | ⟨newKey, hpoint⟩
        · exact .inl hrot
        · exact .inr (hlist newKey hpoint)

omit [DecidableEq Key] [DecidableEq Ciphertext] in
/-- A store whose operations have all ended is readable when it is in order. -/
theorem InOrder.readable_of_allFinished (h : InOrder cipher s) (hfinished : s.AllFinished) :
  Readable cipher s.store.key s.store
  := by
  apply h.readable
  intro op hop
  obtain ⟨outcome, hpoint⟩ := hfinished op hop
  rw [hpoint]
  rfl

/-! ### Rotations that fail -/

/-- The points of a rotation of the master key. -/
def Point.ofRotation : Point Key Ciphertext → Bool
  | .listSecrets _ => true
  | .decryptRecords _ _ _ _ => true
  | .updateMany _ _ => true
  | .swapKey _ _ => true
  | .finished _ => true
  | _ => false

/-- The points at which a rotation has written nothing: those before the write, and the ends of one
that has failed. -/
def Point.beforeWrite : Point Key Ciphertext → Bool
  | .listSecrets _ => true
  | .decryptRecords _ _ _ _ => true
  | .updateMany _ _ => true
  | .finished (.raised _) => true
  | .finished (.report _ failedRefs) => decide (failedRefs ≠ [])
  | _ => false

/-- A rotation that has not written has touched nothing. -/
structure Untouched (s : State Key Ciphertext) : Prop where
  lt_length : ∀ i ∈ s.touched, i < s.operations.length
  rotation : ∀ (i : ℕ) op newKey, s.operations[i]? = some op → op.call = .rotateMasterKey newKey →
    op.point.ofRotation = true ∧ (op.point.beforeWrite = true → i ∉ s.touched)

omit [DecidableEq Key] [DecidableEq Ciphertext] in
theorem beforeWrite_of_mayRaise (hraise : point.mayRaise = true)
    (hrotation : point.ofRotation = true) :
  point.beforeWrite = true
  := by
  cases point with
  | listSecrets newKey => rfl
  | decryptRecords newKey records plaintextByRef failedRefs => rfl
  | updateMany newKey ciphertextByRef => rfl
  | swapKey newKey rotatedCount => cases hraise
  | finished outcome => cases hraise
  | _ => cases hrotation

omit [DecidableEq Key] [DecidableEq Ciphertext] in
/-- What a step of a rotation does: it stays a rotation, and touches nothing unless it writes. -/
theorem perform_rotation (hrotation : point.ofRotation = true)
    (h : perform cipher store minted draw point = some (store', point')) :
  point'.ofRotation = true
    ∧ (point'.beforeWrite = true → point.beforeWrite = true ∧ store' = store)
  := by
  cases point with
  | listSecrets newKey =>
      obtain ⟨rfl, rfl⟩ := Prod.mk.inj (Option.some.inj h)
      exact ⟨rfl, fun _ => ⟨rfl, rfl⟩⟩
  | decryptRecords newKey records plaintextByRef failedRefs =>
      cases records with
      | nil =>
          rw [perform] at h
          split at h
          · obtain ⟨rfl, rfl⟩ := Prod.mk.inj (Option.some.inj h)
            exact ⟨rfl, fun _ => ⟨rfl, rfl⟩⟩
          · obtain ⟨rfl, rfl⟩ := Prod.mk.inj (Option.some.inj h)
            exact ⟨rfl, fun _ => ⟨rfl, rfl⟩⟩
      | cons record records =>
          rw [perform] at h
          split at h
          · obtain ⟨rfl, rfl⟩ := Prod.mk.inj (Option.some.inj h)
            exact ⟨rfl, fun _ => ⟨rfl, rfl⟩⟩
          · obtain ⟨rfl, rfl⟩ := Prod.mk.inj (Option.some.inj h)
            exact ⟨rfl, fun _ => ⟨rfl, rfl⟩⟩
  | updateMany newKey ciphertextByRef =>
      obtain ⟨rfl, rfl⟩ := Prod.mk.inj (Option.some.inj h)
      exact ⟨rfl, nofun⟩
  | swapKey newKey rotatedCount =>
      obtain ⟨rfl, rfl⟩ := Prod.mk.inj (Option.some.inj h)
      exact ⟨rfl, nofun⟩
  | finished outcome => cases h
  | _ => cases hrotation

/-- A step of an operation keeps rotations untouched. -/
theorem Untouched.move {i : ℕ} {op : Operation Key Ciphertext} (h : Untouched s)
    (hop : s.operations[i]? = some op)
    (hstep : ∀ newKey, op.call = .rotateMasterKey newKey →
      point'.ofRotation = true
        ∧ (point'.beforeWrite = true → op.point.beforeWrite = true ∧ store' = s.store)) :
  Untouched (s.move i op store' point')
  := by
  constructor
  · intro j hj
    have hlength : (s.move i op store' point').operations.length = s.operations.length :=
      List.length_set
    rw [hlength]
    rw [State.move] at hj
    dsimp only at hj
    split at hj
    · apply h.lt_length j hj
    · rcases List.mem_cons.mp hj with rfl | hj
      · apply (List.getElem?_eq_some_iff.mp hop).1
      · apply h.lt_length j hj
  · intro j other newKey hother hcall
    rw [getElem?_move hop] at hother
    split at hother
    · rename_i hij
      obtain rfl := Option.some.inj hother
      obtain ⟨hrotation, hbefore⟩ := hstep newKey hcall
      use hrotation
      intro hpoint'
      obtain ⟨hpoint, rfl⟩ := hbefore hpoint'
      rw [State.move]
      dsimp only
      rw [if_pos ⟨rfl, rfl⟩, ← hij]
      apply (h.rotation i op newKey hop hcall).2 hpoint
    · rename_i hij
      obtain ⟨hrotation, hbefore⟩ := h.rotation j other newKey hother hcall
      use hrotation
      intro hpoint htouched
      rw [State.move] at htouched
      dsimp only at htouched
      split at htouched
      · apply hbefore hpoint htouched
      · rcases List.mem_cons.mp htouched with rfl | htouched
        · apply hij rfl
        · apply hbefore hpoint htouched

theorem untouched_step {a : Action Key} (h : Untouched s) (hstep : next cipher s a = some t) :
  Untouched t
  := by
  cases a with
  | call call =>
      obtain rfl := Option.some.inj hstep
      constructor
      · intro i hi
        rw [List.length_append]
        apply Nat.lt_add_right _ (h.lt_length i hi)
      · intro i op newKey hop hcall
        dsimp only at hop
        rcases Nat.lt_or_ge i s.operations.length with hlt | hge
        · rw [List.getElem?_append_left hlt] at hop
          apply h.rotation i op newKey hop hcall
        · rw [List.getElem?_append_right hge] at hop
          obtain rfl := List.mem_singleton.mp (List.mem_of_getElem? hop)
          obtain rfl : call = .rotateMasterKey newKey := hcall
          refine ⟨rfl, fun _ htouched => ?_⟩
          have hlt := h.lt_length i htouched
          omega
  | raise i =>
      obtain ⟨op, hop, hstep⟩ := Option.bind_eq_some_iff.mp hstep
      split at hstep
      · rename_i hraise
        obtain rfl := Option.some.inj hstep
        apply h.move hop
        intro newKey hcall
        refine ⟨rfl, fun _ => ⟨?_, rfl⟩⟩
        apply beforeWrite_of_mayRaise hraise (h.rotation i op newKey hop hcall).1
      · cases hstep
  | advance i minted draw =>
      obtain ⟨op, hop, hstep⟩ := Option.bind_eq_some_iff.mp hstep
      obtain ⟨⟨store', point'⟩, hperform, hstep⟩ := Option.bind_eq_some_iff.mp hstep
      obtain rfl := Option.some.inj hstep
      apply h.move hop
      intro newKey hcall
      apply perform_rotation (h.rotation i op newKey hop hcall).1 hperform

theorem untouched_of_reachable (h : (secretStore cipher).Reachable s) :
  Untouched s
  := by
  apply h.invariant
  · rintro s ⟨-, hoperations, htouched⟩
    constructor
    · intro i hi
      rw [htouched] at hi
      cases hi
    · intro i op newKey hop
      rw [hoperations] at hop
      cases hop
  · intro s a t hs hstep
    apply untouched_step hs hstep

/-- In every run whose steps keep out of the way of rotations, once all operations have ended every
stored secret is decrypted under the master key to what was last written for it; and in every run, a
rotation of the master key that has failed has changed neither the key nor the rows. -/
theorem secrets_readable (cipher : Cipher Key Ciphertext) :
  (∀ s : State Key Ciphertext, ((secretStore cipher).restrict KeepsApart).Reachable s →
    s.AllFinished → Readable cipher s.store.key s.store)
    ∧ ∀ s : State Key Ciphertext, (secretStore cipher).Reachable s →
      ∀ (i : ℕ) op, s.operations[i]? = some op → op.FailedRotation → i ∉ s.touched
  := by
  constructor
  · intro s hs hfinished
    have hinOrder : InOrder cipher s := by
      apply hs.invariant
      · intro s hs
        apply inOrder_initial hs
      · intro s a t hs hstep
        apply inOrder_step hs hstep.2 hstep.1
    apply hinOrder.readable_of_allFinished hfinished
  · rintro s hs i op hop ⟨⟨newKey, hcall⟩, hfailed⟩
    apply ((untouched_of_reachable hs).rotation i op newKey hop hcall).2
    rcases hfailed with ⟨e, hpoint⟩ | ⟨count, refs, hpoint, hrefs⟩
    · rw [hpoint]
      rfl
    · rw [hpoint]
      apply decide_eq_true hrefs

end Rotation

/-! ### Runs on a small store -/

/-- A cipher whose ciphertexts carry their key. -/
def sampleCipher : Cipher ℕ (ℕ × Text) where
  encrypt key _ plaintext := (key, plaintext)
  decrypt key ciphertext := if ciphertext.1 = key then some ciphertext.2 else none
  decrypt_encrypt _ _ _ := if_pos rfl
  authentic _ _ _ _ h := if_neg h

/-- An empty store under the key `1`. -/
def sampleState : State ℕ (ℕ × Text) where
  store := ⟨1, [], fun _ => []⟩
  operations := []
  touched := []

theorem sampleState_initial :
  (secretStore sampleCipher).initial sampleState
  := ⟨fun _ hrow => (List.not_mem_nil hrow).elim, rfl, rfl⟩

/-- An operation goes on, and mints the reference `r` if it mints one. -/
def sampleAdvance (i : ℕ) : Action ℕ := .advance i "r".toList (fun _ => 0)

/-- What is seen of a state: the key, the rows, what was last written for `r`, and whether all
operations have ended. -/
structure Seen where
  key : ℕ
  rows : List (Text × (ℕ × Text))
  written : Text
  finished : Bool
deriving DecidableEq

/-- What is seen of a state. -/
def State.seen (s : State ℕ (ℕ × Text)) : Seen where
  key := s.store.key
  rows := s.store.rows.map (fun row => (row.ref, row.ciphertext))
  written := s.store.written "r".toList
  finished := s.operations.all (fun op => match op.point with | .finished _ => true | _ => false)

/-- All operations have ended on a store with one row. -/
theorem State.of_seen {s : State ℕ (ℕ × Text)} {key : ℕ} {ciphertext : ℕ × Text} {written : Text}
    (h : s.seen = ⟨key, [("r".toList, ciphertext)], written, true⟩) :
  s.AllFinished
    ∧ (Readable sampleCipher s.store.key s.store
      ↔ sampleCipher.decrypt key ciphertext = some written)
  := by
  simp only [State.seen, Seen.mk.injEq] at h
  obtain ⟨hkey, hrows, hwritten, hfinished⟩ := h
  obtain ⟨row, hrow, hpair⟩ := List.map_eq_singleton_iff.mp hrows
  obtain ⟨href, hciphertext⟩ := Prod.mk.inj hpair
  constructor
  · intro op hop
    have hpoint := List.all_eq_true.mp hfinished op hop
    split at hpoint
    · exact ⟨_, by assumption⟩
    · cases hpoint
  · rw [Readable, hrow, hkey, ← hwritten, ← hciphertext, ← href]
    simp only [List.mem_singleton, forall_eq]

/-- A secret is stored with the old key after a rotation has ended. -/
def strandedRun : List (Action ℕ) :=
  [.call (.storeSecret "p".toList .aiApiKey), .call (.rotateMasterKey 2), sampleAdvance 0,
    sampleAdvance 1, sampleAdvance 1, sampleAdvance 1, sampleAdvance 1, sampleAdvance 0]

/-- A secret is rotated while the master key is. -/
def overwrittenRun : List (Action ℕ) :=
  [.call (.storeSecret "p".toList .aiApiKey), sampleAdvance 0, sampleAdvance 0,
    .call (.rotateMasterKey 2), .call (.rotateSecret "r".toList .aiApiKey "q".toList),
    sampleAdvance 1, sampleAdvance 1, sampleAdvance 2, sampleAdvance 2, sampleAdvance 2,
    sampleAdvance 1, sampleAdvance 1, sampleAdvance 1]

/-- A secret is stored, and the master key is rotated then. -/
def orderlyRun : List (Action ℕ) :=
  [.call (.storeSecret "p".toList .aiApiKey), sampleAdvance 0, sampleAdvance 0,
    .call (.rotateMasterKey 2), sampleAdvance 1, sampleAdvance 1, sampleAdvance 1,
    sampleAdvance 1, sampleAdvance 1]

instance (s : State ℕ (ℕ × Text)) : Decidable s.NoneRotating :=
  inferInstanceAs (Decidable (∀ op ∈ s.operations, op.point.rotating = false))

instance (s : State ℕ (ℕ × Text)) : DecidablePred (Point.KeepsApart s)
  | .insertSecret _ _ _ key _ => inferInstanceAs (Decidable (key = s.store.key ∧ s.NoneRotating))
  | .updateSecret _ _ key _ => inferInstanceAs (Decidable (key = s.store.key ∧ s.NoneRotating))
  | .listSecrets _ => inferInstanceAs (Decidable s.NoneRotating)
  | .encrypt _ _ => isTrue trivial
  | .getSecret _ _ _ => isTrue trivial
  | .encryptNew _ _ => isTrue trivial
  | .deleteSecret _ => isTrue trivial
  | .decryptRecords _ _ _ _ => isTrue trivial
  | .updateMany _ _ => isTrue trivial
  | .swapKey _ _ => isTrue trivial
  | .finished _ => isTrue trivial

instance (s : State ℕ (ℕ × Text)) : DecidablePred (KeepsApart s)
  | .advance i _ _ => inferInstanceAs (Decidable (∀ op ∈ s.operations[i]?, op.point.KeepsApart s))
  | .call _ => isTrue trivial
  | .raise _ => isTrue trivial

/-- A secret that is stored before the master key is rotated is read under the new key. -/
theorem orderlyRun_readable :
  ∃ s : State ℕ (ℕ × Text),
    s.seen = ⟨2, [("r".toList, (2, "p".toList))], "p".toList, true⟩
      ∧ Readable sampleCipher s.store.key s.store
  := by
  have hrun : (orderlyRun.foldlM
      (fun s a => if KeepsApart s a then next sampleCipher s a else none) sampleState).map State.seen
      = some ⟨2, [("r".toList, (2, "p".toList))], "p".toList, true⟩ := by rfl
  have hinitial : ((secretStore sampleCipher).restrict KeepsApart).initial sampleState :=
    sampleState_initial
  obtain ⟨s, hs, hseen⟩ := Option.map_eq_some_iff.mp hrun
  refine ⟨s, hseen, (secrets_readable sampleCipher).1 s ?_ (State.of_seen hseen).1⟩
  apply (TransitionSystem.Reachable.initial hinitial).later
  apply TransitionSystem.later_of_foldlM _ hs
  intro s a t h
  split at h
  · rename_i hapart
    exact ⟨h, hapart⟩
  · cases h

/-- After a run all operations have finished, and some secret is not decrypted to what was last
written for it. -/
def Races (run : List (Action ℕ)) : Prop :=
  ∃ s : State ℕ (ℕ × Text),
    run.foldlM (next sampleCipher) sampleState = some s ∧ (secretStore sampleCipher).Reachable s
      ∧ s.AllFinished ∧ ¬ Readable sampleCipher s.store.key s.store

/-- Neither the secret that is left under the old key nor the one that is overwritten is decrypted
to what was last written. -/
theorem rotation_races :
  Races strandedRun ∧ Races overwrittenRun
  := by
  have hrace : ∀ (run : List (Action ℕ)) (key : ℕ) (ciphertext : ℕ × Text) (written : Text),
      (run.foldlM (next sampleCipher) sampleState).map State.seen
        = some ⟨key, [("r".toList, ciphertext)], written, true⟩ →
      sampleCipher.decrypt key ciphertext ≠ some written →
      Races run := by
    intro run key ciphertext written hrun hne
    obtain ⟨s, hs, hseen⟩ := Option.map_eq_some_iff.mp hrun
    obtain ⟨hfinished, hreadable⟩ := State.of_seen hseen
    refine ⟨s, hs, ?_, hfinished, fun h => hne (hreadable.mp h)⟩
    apply (TransitionSystem.Reachable.initial sampleState_initial).later
    apply TransitionSystem.later_of_foldlM (fun s a t h => h) hs
  constructor
  · exact hrace strandedRun 2 (1, "p".toList) "p".toList (by rfl) (by decide)
  · exact hrace overwrittenRun 2 (2, "p".toList) "q".toList (by rfl) (by decide)

end Secrets
