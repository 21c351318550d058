import DataOpsStudio.Sql.Dialects
import DataOpsStudio.Sql.Window

/-!
# Shielded placeholders

Before a query is parsed, the placeholders of its driver are replaced by names that no query has,
and they are put back when the query has been rendered.  Placeholders in quoted texts and comments
are left alone.  One scanner finds these for both databases, and where it goes another way than a
database does, it takes placeholders for quoted that are not, or the reverse.
-/

namespace Sql

open Text

/-- The databases whose drivers have placeholders such as `%s` and `%(name)s`. -/
inductive PyformatDialect where
  | mysql
  | postgresql
deriving DecidableEq

/-- The kind of a database. -/
def PyformatDialect.dbType : PyformatDialect → DbType
  | .mysql => .mysql
  | .postgresql => .postgresql

/-! ### The scanner -/

/-- The placeholder that a text starts with. -/
def pyformatBind? : Text → Option Text
  | '%' :: 's' :: _ => some "%s".toList
  | '%' :: '(' :: s =>
      match firstToken s with
      | none => none
      | some name =>
          if ")s".toList.isPrefixOf (s.drop name.length) then
            some ("%(".toList ++ name ++ ")s".toList)
          else none
  | _ => none

/-- The delimiter of a dollar quote that a text starts with. -/
def dollarQuote? : Text → Option Text
  | '$' :: '$' :: _ => some "$$".toList
  | '$' :: s =>
      match firstToken s with
      | none => none
      | some tag =>
          if (s.drop tag.length).head? = some '$' then some ('$' :: tag ++ ['$']) else none
  | _ => none

/-- How many characters there are up to the end of the first occurrence of a text, or up to the end
if there is none. -/
def lengthThrough (part s : Text) : ℕ :=
  match afterFirst part s with
  | none => s.length
  | some rest => s.length - rest.length

/-- How many characters are left of a quoted text, with the quote that closes it.  A backslash
passes over the character after it, if there is one, and two quotes stand for one. -/
def quotedLength (quote : Char) : Text → ℕ
  | [] => 0
  | [_] => 1
  | c :: d :: s =>
      if c = '\\' then quotedLength quote s + 2
      else if c ≠ quote then quotedLength quote (d :: s) + 1
      else if d = quote then quotedLength quote s + 2
      else 1

/-- The length of the quoted text or the comment that a text starts with. -/
def quotedOrCommentEnd (s : Text) : Option ℕ :=
  if "--".toList.isPrefixOf s ∨ "#".toList.isPrefixOf s then some (lengthThrough "\n".toList s)
  else if "/*".toList.isPrefixOf s then some (lengthThrough "*/".toList (s.drop 2) + 2)
  else
    match dollarQuote? s with
    | some delimiter =>
        some (lengthThrough delimiter (s.drop delimiter.length) + delimiter.length)
    | none =>
        match s with
        | [] => none
        | quote :: s =>
            if quote = '\'' ∨ quote = '"' ∨ quote = '`' then some (quotedLength quote s + 1)
            else none

/-! ### Shielding and restoring -/

/-- A piece of a query: what is copied, or a placeholder that is replaced. -/
inductive ShieldPiece where
  | verbatim (text : Text)
  | binding (text : Text)
deriving DecidableEq

/-- The pieces of the rest of a query, of which some characters belong to the piece before. -/
def shieldPieces : ℕ → Text → List ShieldPiece
  | _, [] => []
  | skip + 1, _ :: s => shieldPieces skip s
  | 0, c :: s =>
      match quotedOrCommentEnd (c :: s) with
      | some length => .verbatim ((c :: s).take length) :: shieldPieces (length - 1) s
      | none =>
          match pyformatBind? (c :: s) with
          | some binding => .binding binding :: shieldPieces (binding.length - 1) s
          | none => .verbatim [c] :: shieldPieces 0 s

/-- What all the names begin with that stand for placeholders. -/
def bindSentinelPrefix : Text := "__dataops_safe_bind_".toList

/-- The name that stands for a placeholder. -/
def sentinel (i : ℕ) : Text := bindSentinelPrefix ++ natText i ++ "__".toList

/-- The text of some pieces with names for the placeholders, the next of which has a number. -/
def shieldedText (i : ℕ) : List ShieldPiece → Text
  | [] => []
  | .verbatim text :: pieces => text ++ shieldedText i pieces
  | .binding _ :: pieces => sentinel i ++ shieldedText (i + 1) pieces

/-- The placeholders of some pieces with the names that stand for them. -/
def bindingsOf (i : ℕ) : List ShieldPiece → List (Text × Text)
  | [] => []
  | .verbatim _ :: pieces => bindingsOf i pieces
  | .binding text :: pieces => (sentinel i, text) :: bindingsOf (i + 1) pieces

/-- A query with names for its placeholders, and these with the placeholders they stand for. -/
def shieldPyformatBindings (sql : Text) : Text × List (Text × Text) :=
  (shieldedText 0 (shieldPieces 0 sql), bindingsOf 0 (shieldPieces 0 sql))

/-- A query with its placeholders put back. -/
def restorePyformatBindings (sql : Text) : List (Text × Text) → Except WindowError Text
  | [] => .ok sql
  | (sentinel, binding) :: bindings =>
      if occursIn sentinel sql then
        restorePyformatBindings (replace sentinel binding sql) bindings
      else
        .error (.queryLimitError "SQL parameter binding was not preserved during row limiting")

example :
  (shieldPyformatBindings "a = %s and b = '%s' -- %(c)s".toList).1
    = "a = __dataops_safe_bind_0__ and b = '%s' -- %(c)s".toList
  := by rfl

/-! ### The text of the pieces -/

/-- The characters of a piece in the query. -/
def ShieldPiece.text : ShieldPiece → Text
  | .verbatim text => text
  | .binding text => text

/-- The text that has been cut into pieces. -/
def originalText (pieces : List ShieldPiece) : Text := pieces.flatMap ShieldPiece.text

/-- Where the placeholders that are replaced start. -/
def bindingStarts (start : ℕ) : List ShieldPiece → List ℕ
  | [] => []
  | .verbatim text :: pieces => bindingStarts (start + text.length) pieces
  | .binding text :: pieces => start :: bindingStarts (start + text.length) pieces

theorem firstToken_eq {s name : Text} (h : firstToken s = some name) :
  name ≠ [] ∧ ∃ rest, s = name ++ rest
  := by
  cases s with
  | nil => cases h
  | cons c s =>
      rw [firstToken] at h
      split at h
      · obtain rfl := Option.some.inj h
        refine ⟨List.cons_ne_nil _ _, s.dropWhile continuesWord, ?_⟩
        rw [List.cons_append, List.takeWhile_append_dropWhile]
      · cases h

/-- A placeholder is in front of a text, and starts with a percent sign. -/
theorem pyformatBind?_eq {s binding : Text} (h : pyformatBind? s = some binding) :
  (∃ tail, binding = '%' :: tail) ∧ binding <+: s
  := by
  rw [pyformatBind?.eq_def] at h
  split at h
  · rename_i rest
    obtain rfl := Option.some.inj h
    exact ⟨⟨_, rfl⟩, rest, rfl⟩
  · rename_i rest
    split at h
    · cases h
    · rename_i name hname
      obtain ⟨-, after, rfl⟩ := firstToken_eq hname
      rw [List.drop_left] at h
      split at h
      · rename_i hafter
        obtain rfl := Option.some.inj h
        obtain ⟨after', rfl⟩ := List.isPrefixOf_iff_prefix.mp hafter
        refine ⟨⟨_, rfl⟩, after', ?_⟩
        simp
      · cases h
  · cases h

theorem dollarQuote?_eq {s delimiter : Text} (h : dollarQuote? s = some delimiter) :
  ∃ tag, delimiter = '$' :: tag ++ ['$'] ∧ delimiter <+: s
  := by
  rw [dollarQuote?.eq_def] at h
  split at h
  · rename_i rest
    obtain rfl := Option.some.inj h
    exact ⟨[], rfl, rest, rfl⟩
  · rename_i rest _
    split at h
    · cases h
    · rename_i tag htag
      obtain ⟨-, after, rfl⟩ := firstToken_eq htag
      rw [List.drop_left] at h
      split at h
      · rename_i hafter
        obtain rfl := Option.some.inj h
        cases after with
        | nil => cases hafter
        | cons d after =>
            obtain rfl := Option.some.inj hafter
            exact ⟨tag, rfl, after, by simp⟩
      · cases h
  · cases h

theorem lengthThrough_le (part s : Text) :
  lengthThrough part s ≤ s.length
  := by
  rw [lengthThrough]
  cases afterFirst part s with
  | none => exact le_refl _
  | some rest => exact Nat.sub_le _ _

theorem lengthThrough_pos {part s : Text} (hpart : part ≠ []) (hs : s ≠ []) :
  0 < lengthThrough part s
  := by
  rw [lengthThrough]
  cases hrest : afterFirst part s with
  | none => exact List.length_pos_of_ne_nil hs
  | some rest =>
      have hlength := length_afterFirst hrest
      have hpos := List.length_pos_of_ne_nil hpart
      dsimp only
      omega

theorem quotedLength_le (quote : Char) (s : Text) :
  quotedLength quote s ≤ s.length
  := by
  induction s using quotedLength.induct quote with
  | case1 => exact le_refl _
  | case2 => exact le_refl _
  | case3 d s ih =>
      rw [quotedLength, if_pos rfl]
      exact Nat.add_le_add_right ih 2
  | case4 c d s hbackslash hquote ih =>
      rw [quotedLength, if_neg hbackslash, if_pos hquote]
      exact Nat.add_le_add_right ih 1
  | case5 c s hbackslash hquote ih =>
      rw [quotedLength, if_neg hbackslash, if_neg hquote, if_pos rfl]
      exact Nat.add_le_add_right ih 2
  | case6 c d s hbackslash hquote hd =>
      rw [quotedLength, if_neg hbackslash, if_neg hquote, if_neg hd]
      simp

/-- Quoted texts and comments have characters, and end in the text. -/
theorem quotedOrCommentEnd_bounds {s : Text} {length : ℕ} (h : quotedOrCommentEnd s = some length) :
  0 < length ∧ length ≤ s.length
  := by
  rw [quotedOrCommentEnd.eq_def] at h
  split at h
  · rename_i hcomment
    obtain rfl := Option.some.inj h
    refine ⟨lengthThrough_pos (by decide) ?_, lengthThrough_le _ _⟩
    rintro rfl
    revert hcomment
    decide
  · split at h
    · rename_i hblock
      obtain ⟨rest, rfl⟩ := List.isPrefixOf_iff_prefix.mp hblock
      obtain rfl := Option.some.inj h
      have hle := lengthThrough_le "*/".toList rest
      have hdrop : ("/*".toList ++ rest).drop 2 = rest := rfl
      have hlength : ("/*".toList ++ rest).length = rest.length + 2 := rfl
      rw [hdrop, hlength]
      omega
    · split at h
      · rename_i delimiter hdelimiter
        obtain ⟨tag, -, rest, rfl⟩ := dollarQuote?_eq hdelimiter
        obtain rfl := Option.some.inj h
        have hle := lengthThrough_le delimiter rest
        have hpos : 0 < delimiter.length := by
          cases delimiter with
          | nil => cases dollarQuote?_eq hdelimiter with | intro _ h => cases h.1
          | cons c delimiter => simp
        rw [List.drop_left, List.length_append]
        omega
      · cases s with
        | nil => cases h
        | cons quote rest =>
            dsimp only at h
            split at h
            · obtain rfl := Option.some.inj h
              have hle := quotedLength_le quote rest
              rw [List.length_cons]
              omega
            · cases h

theorem originalText_shieldPieces (skip : ℕ) (s : Text) :
  originalText (shieldPieces skip s) = s.drop skip
  := by
  have hsplit : ∀ (c : Char) (s : Text) (n : ℕ), 0 < n →
      (c :: s).take n ++ s.drop (n - 1) = c :: s := by
    intro c s n hn
    obtain ⟨n, rfl⟩ := Nat.exists_eq_add_of_lt hn
    simp
  induction s generalizing skip with
  | nil => cases skip <;> rfl
  | cons c s ih =>
      cases skip with
      | succ skip => exact ih skip
      | zero =>
          rw [shieldPieces]
          split
          · rename_i length hlength
            rw [originalText, List.flatMap_cons, ← originalText, ih]
            exact hsplit c s length (quotedOrCommentEnd_bounds hlength).1
          · split
            · rename_i binding hbinding
              obtain ⟨⟨tail, rfl⟩, after, hafter⟩ := pyformatBind?_eq hbinding
              rw [originalText, List.flatMap_cons, ← originalText, ih]
              rw [List.cons_append, List.cons.injEq] at hafter
              rw [← hafter.2, ← hafter.1]
              simp [ShieldPiece.text]
            · rw [originalText, List.flatMap_cons, ← originalText, ih]
              rfl

/-! ### What is plain for the scanner -/

/-- Whether the characters of a text are outside of quoted texts and comments for the scanner, of
which some belong to the one before. -/
def scannedPlain : ℕ → Text → List Bool
  | _, [] => []
  | skip + 1, _ :: s => false :: scannedPlain skip s
  | 0, c :: s =>
      match quotedOrCommentEnd (c :: s) with
      | some length => false :: scannedPlain (length - 1) s
      | none => true :: scannedPlain 0 s

/-- Where the placeholders of a text start that are in plain view. -/
def plainBindings (start : ℕ) : List Bool → Text → List ℕ
  | plain :: view, c :: s =>
      (if plain && (pyformatBind? (c :: s)).isSome then [start] else [])
        ++ plainBindings (start + 1) view s
  | _, _ => []

/-- A character with which no placeholder, quoted text or comment begins. -/
def isCalm (c : Char) : Bool := !(['%', '-', '#', '/', '$', '\'', '"', '`'].contains c)

theorem isPrefixOf_cons_of_ne {c d : Char} (h : d ≠ c) (part s : Text) :
  (d :: part).isPrefixOf (c :: s) = false
  := by
  rw [List.isPrefixOf_cons_cons, beq_false_of_ne h, Bool.false_and]

theorem ne_of_isCalm {c d : Char} (h : isCalm c = true)
    (hd : d ∈ ['%', '-', '#', '/', '$', '\'', '"', '`']) :
  d ≠ c
  := by
  rintro rfl
  simp only [isCalm, Bool.not_eq_true', List.contains_eq_mem, decide_eq_false_iff_not] at h
  exact h hd

theorem quotedOrCommentEnd_of_isCalm {c : Char} (h : isCalm c = true) (s : Text) :
  quotedOrCommentEnd (c :: s) = none
  := by
  have hdashes : "--".toList.isPrefixOf (c :: s) = false :=
    isPrefixOf_cons_of_ne (ne_of_isCalm h (by decide)) _ s
  have hhash : "#".toList.isPrefixOf (c :: s) = false :=
    isPrefixOf_cons_of_ne (ne_of_isCalm h (by decide)) _ s
  have hslash : "/*".toList.isPrefixOf (c :: s) = false :=
    isPrefixOf_cons_of_ne (ne_of_isCalm h (by decide)) _ s
  have hdollar : dollarQuote? (c :: s) = none := by
    cases hquote : dollarQuote? (c :: s) with
    | none => rfl
    | some delimiter =>
        obtain ⟨tag, rfl, rest, hrest⟩ := dollarQuote?_eq hquote
        exact (ne_of_isCalm h (by decide) (List.cons.inj hrest).1).elim
  have hquote : ¬ (c = '\'' ∨ c = '"' ∨ c = '`') := by
    rintro (hc | hc | hc)
    · exact ne_of_isCalm h (by decide) hc.symm
    · exact ne_of_isCalm h (by decide) hc.symm
    · exact ne_of_isCalm h (by decide) hc.symm
  simp only [quotedOrCommentEnd, hdashes, hhash, hslash, hdollar, Bool.false_eq_true, or_self,
    if_false, if_neg hquote]

theorem pyformatBind?_of_ne {c : Char} (h : c ≠ '%') (s : Text) :
  pyformatBind? (c :: s) = none
  := by
  cases hbinding : pyformatBind? (c :: s) with
  | none => rfl
  | some binding =>
      obtain ⟨⟨tail, rfl⟩, rest, hrest⟩ := pyformatBind?_eq hbinding
      exact (h (List.cons.inj hrest).1.symm).elim

theorem continuesWord_of_firstToken {s name : Text} (h : firstToken s = some name) :
  ∀ c ∈ name, continuesWord c = true
  := by
  cases s with
  | nil => cases h
  | cons d s =>
      rw [firstToken] at h
      split at h
      · rename_i hstarts
        obtain rfl := Option.some.inj h
        intro c hc
        rcases List.mem_cons.mp hc with rfl | hc
        · rw [startsWord, Bool.or_eq_true] at hstarts
          rw [continuesWord, Char.isAlphanum, Bool.or_eq_true, Bool.or_eq_true]
          exact hstarts.imp_left .inl
        · exact List.mem_takeWhile_imp hc
      · cases h

/-- Behind its percent sign nothing begins in a placeholder. -/
theorem isCalm_of_pyformatBind? {s tail : Text} (h : pyformatBind? s = some ('%' :: tail)) :
  ∀ c ∈ tail, isCalm c = true
  := by
  have hword : ∀ c, continuesWord c = true → isCalm c = true := by
    intro c hc
    rw [isCalm, Bool.not_eq_true', List.contains_eq_mem, decide_eq_false_iff_not]
    have hopeners : ∀ d ∈ ['%', '-', '#', '/', '$', '\'', '"', '`'], continuesWord d = false := by
      decide
    intro hmem
    cases hc.symm.trans (hopeners c hmem)
  rw [pyformatBind?.eq_def] at h
  split at h
  · rw [← (List.cons.inj (Option.some.inj h)).2]
    decide
  · split at h
    · cases h
    · rename_i name hname
      split at h
      · rw [← (List.cons.inj (Option.some.inj h)).2]
        intro c hc
        rcases List.mem_append.mp hc with hc | hc
        · rcases List.mem_cons.mp hc with rfl | hc
          · decide
          · exact hword c (continuesWord_of_firstToken hname c hc)
        · have hend : ∀ d ∈ ")s".toList, isCalm d = true := by decide
          exact hend c hc
      · cases h
  · cases h

theorem scannedPlain_append {tail : Text} (h : ∀ c ∈ tail, isCalm c = true) (start : ℕ) (s : Text) :
  plainBindings start (scannedPlain tail.length (tail ++ s)) (tail ++ s)
    = plainBindings start (scannedPlain 0 (tail ++ s)) (tail ++ s)
  := by
  induction tail generalizing start with
  | nil => rfl
  | cons c tail ih =>
      have hc := h c List.mem_cons_self
      have hnone := pyformatBind?_of_ne (ne_of_isCalm hc (by decide)).symm (tail ++ s)
      rw [List.length_cons, List.cons_append, scannedPlain, scannedPlain,
        quotedOrCommentEnd_of_isCalm hc, plainBindings, plainBindings, hnone,
        ih (fun d hd => h d (List.mem_cons_of_mem _ hd))]
      rfl

/-- The placeholders that are replaced are those that are plain for the scanner. -/
theorem bindingStarts_shieldPieces (start skip : ℕ) (s : Text) :
  bindingStarts (start + skip) (shieldPieces skip s)
    = plainBindings start (scannedPlain skip s) s
  := by
  induction s generalizing start skip with
  | nil => cases skip <;> rfl
  | cons c s ih =>
      cases skip with
      | succ skip =>
          rw [shieldPieces, scannedPlain, plainBindings, ← ih (start + 1) skip]
          simp [Nat.add_assoc, Nat.add_comm 1]
      | zero =>
          rw [shieldPieces, scannedPlain]
          cases hend : quotedOrCommentEnd (c :: s) with
          | some length =>
              obtain ⟨hpos, hle⟩ := quotedOrCommentEnd_bounds hend
              have hlength : ((c :: s).take length).length = length := List.length_take_of_le hle
              have hsum : start + 0 + length = start + 1 + (length - 1) := by omega
              simp only [bindingStarts, plainBindings, hlength, hsum, ih, Bool.false_and,
                Bool.false_eq_true, if_false, List.nil_append]
          | none =>
              cases hbinding : pyformatBind? (c :: s) with
              | none =>
                  simp only [bindingStarts, plainBindings, hbinding, List.length_singleton,
                    Nat.add_zero, Option.isSome_none, Bool.and_false, Bool.false_eq_true, if_false,
                    List.nil_append, ← ih (start + 1) 0]
              | some binding =>
                  obtain ⟨⟨tail, rfl⟩, after, hafter⟩ := pyformatBind?_eq hbinding
                  obtain ⟨rfl, rfl⟩ := List.cons.inj hafter
                  have hsum : start + 0 + ('%' :: tail).length = start + 1 + tail.length := by
                    simp only [List.length_cons]
                    omega
                  dsimp only
                  rw [bindingStarts, plainBindings, hbinding, hsum]
                  exact congrArg (List.cons start)
                    ((ih _ _).trans (scannedPlain_append (isCalm_of_pyformatBind? hbinding) _ _))

theorem le_of_mem_plainBindings {start p : ℕ} {view : List Bool} {s : Text}
    (h : p ∈ plainBindings start view s) :
  start ≤ p
  := by
  induction s generalizing start view with
  | nil => cases view <;> cases h
  | cons c s ih =>
      cases view with
      | nil => cases h
      | cons plain view =>
          rw [plainBindings] at h
          rcases List.mem_append.mp h with h | h
          · split at h
            · rw [List.mem_singleton.mp h]
            · cases h
          · exact (Nat.le_succ start).trans (ih h)

/-- Two views of a text show the same placeholders exactly when they agree where a placeholder
stands. -/
theorem plainBindings_eq_iff {start : ℕ} {view view' : List Bool} {s : Text}
    (hview : view.length = s.length) (hview' : view'.length = s.length) :
  plainBindings start view s = plainBindings start view' s
    ↔ ∀ p, (pyformatBind? (s.drop p)).isSome = true → view[p]? = view'[p]?
  := by
  induction s generalizing start view view' with
  | nil =>
      obtain rfl := List.length_eq_zero_iff.mp hview
      obtain rfl := List.length_eq_zero_iff.mp hview'
      simp
  | cons c s ih =>
      obtain ⟨b, view, rfl⟩ := List.exists_cons_of_length_eq_add_one hview
      obtain ⟨b', view', rfl⟩ := List.exists_cons_of_length_eq_add_one hview'
      have hrest : plainBindings (start + 1) view s = plainBindings (start + 1) view' s ↔ _ :=
        ih (Nat.succ.inj hview) (Nat.succ.inj hview')
      have hpositions : (∀ p, (pyformatBind? ((c :: s).drop p)).isSome = true →
            (b :: view)[p]? = (b' :: view')[p]?)
          ↔ ((pyformatBind? (c :: s)).isSome = true → b = b')
            ∧ ∀ p, (pyformatBind? (s.drop p)).isSome = true → view[p]? = view'[p]? := by
        constructor
        · intro h
          exact ⟨fun hbinding => by simpa using h 0 hbinding,
            fun p hp => by simpa using h (p + 1) hp⟩
        · rintro ⟨hhere, h⟩ p hp
          cases p with
          | zero => simpa using hhere hp
          | succ p => simpa using h p hp
      rw [hpositions, ← hrest, plainBindings, plainBindings]
      cases hbinding : (pyformatBind? (c :: s)).isSome with
      | false => simp
      | true =>
          have hlater : ∀ (v : List Bool) (t : List ℕ),
              plainBindings (start + 1) v s ≠ start :: t := by
            intro v t h
            have hmem : start ∈ plainBindings (start + 1) v s := by
              rw [h]
              exact List.mem_cons_self
            exact absurd (le_of_mem_plainBindings hmem) (Nat.not_succ_le_self start)
          cases b with
          | false =>
              cases b' with
              | false => simp
              | true => simpa using hlater view _
          | true =>
              cases b' with
              | false => simpa using fun h => hlater view' _ h.symm
              | true => simp

theorem length_scannedPlain (skip : ℕ) (s : Text) :
  (scannedPlain skip s).length = s.length
  := by
  induction s generalizing skip with
  | nil => cases skip <;> rfl
  | cons c s ih =>
      cases skip with
      | succ skip => rw [scannedPlain, List.length_cons, List.length_cons, ih]
      | zero =>
          rw [scannedPlain]
          split
          · rw [List.length_cons, List.length_cons, ih]
          · rw [List.length_cons, List.length_cons, ih]

end Sql
