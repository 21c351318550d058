import DataOpsStudio.Lineage.Bodies
import DataOpsStudio.Lineage.CursorHeads

/-!
# The offsets of segments

A segment knows where its keyword stands in the body.  The offset is put together from the lengths
of what has been taken off in front of the keyword.  It is right, unless comments stand there that
yield no title: then it is the offset of the first of the comments.
-/

namespace Lineage

open Text Sql

/-- The number of the line of a place in a text, lines counted from one. -/
def lineOf (text : Text) (offset : ℕ) : ℕ :=
  if offset = 0 then 1 else (text.take (min offset text.length)).count '\n' + 1

section Offsets

variable (a : Alphabet)

/-- A piece without the white space around it and without the head of a loop over a cursor. -/
def segTextOf (piece : RawSegment) : Text := (stripCursorForPrefixWithSources a (strip piece.text)).1

/-- The keyword that a piece is matched at: where it stands in the body, and its text. -/
structure MatchedKeyword where
  pos : ℕ
  text : Text

/-- The keyword of a piece that has one. -/
def matchedKeyword (piece : RawSegment) : Option MatchedKeyword :=
  (Regex.search (bodyDml a) (segTextOf a piece) 0).map (fun found =>
    { pos := piece.start + leadingSpace piece.text
        + ((strip piece.text).length - (segTextOf a piece).length) + found.start
      text := found.read (segTextOf a piece) })

/-- A segment has its offsets right: its text stands in the body in front of its end, and the body
has the keyword where the segment says, on the line that is told whatever script the body is part
of. -/
structure TrueOffsets (body : Text) (segment : BodySegment) (keyword : MatchedKeyword) : Prop where
  slice : ∃ start, segment.text <+: body.drop start ∧ start + segment.text.length ≤ segment.stop
  keyword_at : keyword.text <+: body.drop segment.dmlStart
  line : ∀ before after, lineOf (before ++ body ++ after) (before.length + segment.dmlStart)
    = lineOf (before ++ body ++ after) (before.length + keyword.pos)

/-- Comments stand in front of the keyword of a piece, nothing else does, and they yield no
title. -/
def HasUntitledComments (piece : RawSegment) : Prop :=
  ∃ found, Regex.search (bodyDml a) (segTextOf a piece) 0 = some found ∧ found.start ≠ 0
    ∧ Regex.fullmatch pureCommentPrefix ((segTextOf a piece).take found.start) = true
    ∧ stripCommentPrefix ((segTextOf a piece).take found.start) = []

variable {a}

/-! ### Pieces -/

theorem take_drop_isPrefix (body : Text) (start stop : ℕ) :
  (body.take stop).drop start <+: body.drop start
  := by
  rw [List.drop_take]
  exact List.take_prefix _ _

theorem mem_piecesFrom {body : Text} {start : ℕ} {stops : List ℕ} {piece : RawSegment}
    (h : piece ∈ piecesFrom body start stops) :
  piece.text = (body.take (piece.stop - 1)).drop piece.start
  := by
  induction stops generalizing start with
  | nil => cases h
  | cons stop stops ih =>
      rcases List.mem_cons.mp h with rfl | h
      · rfl
      · exact ih h

/-- A piece of a body stands where it says, in front of its end. -/
theorem rawSegment_slice {body : Text} {piece : RawSegment} (h : piece ∈ rawSegments a body) :
  piece.text <+: body.drop piece.start
    ∧ (piece.text ≠ [] → piece.start + piece.text.length ≤ piece.stop)
  := by
  obtain ⟨hreached, hpos⟩ := @reached_end a body
  have hcut : ∀ stop, piece.text = (body.take stop).drop piece.start → stop ≤ piece.stop →
      piece.text <+: body.drop piece.start
        ∧ (piece.text ≠ [] → piece.start + piece.text.length ≤ piece.stop) := by
    intro stop htext hstop
    rw [htext]
    refine ⟨take_drop_isPrefix body _ _, ?_⟩
    intro hne
    have hlength := List.length_pos_of_ne_nil hne
    rw [List.length_drop, List.length_take] at hlength ⊢
    omega
  have hraw : piece ∈ (bodyRounds a body body.length).raw →
      piece.text = (body.take (piece.stop - 1)).drop piece.start := by
    intro hmem
    rw [hreached.pieces] at hmem
    exact mem_piecesFrom hmem
  rw [rawSegments] at h
  split at h
  · exact hcut _ (hraw h) (Nat.sub_le _ _)
  · rcases List.mem_append.mp h with h | h
    · exact hcut _ (hraw h) (Nat.sub_le _ _)
    · obtain rfl := List.mem_singleton.mp h
      have hbuffer := hreached.buffer
      rw [hpos] at hbuffer
      exact hcut body.length hbuffer (Nat.le_refl _)

/-! ### What is taken off a piece -/

theorem strip_eq_append (s : Text) :
  ∃ front behind, s = front ++ (strip s ++ behind) ∧ front.length = leadingSpace s
  := by
  refine ⟨s.takeWhile isSpace, (s.dropWhile isSpace).rtakeWhile isSpace, ?_, rfl⟩
  have hright : strip s ++ (s.dropWhile isSpace).rtakeWhile isSpace = s.dropWhile isSpace :=
    List.rdropWhile_append_rtakeWhile
  rw [hright, List.takeWhile_append_dropWhile]

theorem lstrip_suffix (s : Text) : lstrip s <:+ s := List.dropWhile_suffix _

/-- What is left of a piece is its end. -/
theorem segTextOf_suffix (piece : RawSegment) : segTextOf a piece <:+ strip piece.text := by
  rw [segTextOf, stripCursorForPrefixWithSources]
  split
  · exact List.suffix_rfl
  · split
    · exact List.suffix_rfl
    · next head after hread =>
        obtain ⟨x, v, hsplit, -, -⟩ := exists_of_readCursorHead hread
        apply (lstrip_suffix after).trans
        rw [hsplit, ← List.append_assoc]
        exact List.suffix_append _ _

/-- What is left of a piece does not begin with white space. -/
theorem head_segTextOf {piece : RawSegment} {c : Char} {s : Text}
    (h : segTextOf a piece = c :: s) :
  isSpace c = false
  := by
  have hstrip : ∀ {t : Text}, t.dropWhile isSpace = t → t = c :: s → isSpace c = false := by
    intro t hdrop ht
    have hhead := List.head?_dropWhile_not isSpace t
    rw [hdrop, ht] at hhead
    exact hhead
  have hself : (strip piece.text).dropWhile isSpace = strip piece.text :=
    dropWhile_rdropWhile_dropWhile isSpace piece.text
  rw [segTextOf, stripCursorForPrefixWithSources] at h
  split at h
  · exact hstrip hself h
  · split at h
    · exact hstrip hself h
    · exact hstrip (List.dropWhile_idempotent _ _) h

/-- Where what is left of a piece stands in the body. -/
def segStartOf (a : Alphabet) (piece : RawSegment) : ℕ :=
  piece.start + leadingSpace piece.text
    + ((strip piece.text).length - (segTextOf a piece).length)

/-- What is left of a piece stands in the body in front of the end of the piece. -/
theorem segTextOf_slice {body : Text} {piece : RawSegment} (h : piece ∈ rawSegments a body) :
  segTextOf a piece <+: body.drop (segStartOf a piece)
    ∧ (segTextOf a piece ≠ [] →
      segStartOf a piece + (segTextOf a piece).length ≤ piece.stop)
  := by
  obtain ⟨hslice, hstop⟩ := rawSegment_slice h
  obtain ⟨front, behind, htext, hfront⟩ := strip_eq_append piece.text
  obtain ⟨head, hhead⟩ := @segTextOf_suffix a piece
  have hgap : (strip piece.text).length - (segTextOf a piece).length = head.length := by
    rw [← hhead, List.length_append, Nat.add_sub_cancel]
  rw [← hhead] at htext
  rw [segStartOf, hgap, ← hfront]
  constructor
  · obtain ⟨rest, hrest⟩ := hslice
    have hdrop : body.drop (piece.start + front.length + head.length)
        = segTextOf a piece ++ (behind ++ rest) := by
      rw [Nat.add_assoc, ← List.drop_drop, ← hrest]
      conv_lhs => rw [htext]
      rw [← List.drop_drop]
      simp only [List.append_assoc, List.drop_left]
    rw [hdrop]
    exact List.prefix_append _ _
  · intro hne
    have hlength := congrArg List.length htext
    simp only [List.length_append] at hlength
    have hpos := List.length_pos_of_ne_nil hne
    have hle := hstop (List.ne_nil_of_length_pos (by omega))
    omega

/-! ### The keyword of a piece -/

/-- A statement begins with a letter. -/
theorem beginsWith_bodyDml : Regex.BeginsWith (fun c => c.isAlpha = true) (bodyDml a) := by
  have hword : ∀ {w : String} {c : Char}, w.toList.head? = some c → c.toLower.isAlpha = true →
      Regex.BeginsWith (fun c => c.isAlpha = true) (.letters w) := by
    intro w c hw hc
    apply Regex.beginsWith_letters hw
    intro d hd
    apply isAlpha_of_toLower
    rw [hd]
    exact hc
  apply Regex.BeginsWith.boundary_cat
  apply Regex.BeginsWith.cat
  apply Regex.BeginsWith.alt (hword (c := 'w') rfl rfl)
  apply Regex.BeginsWith.alt (hword (c := 's') rfl rfl)
  apply Regex.BeginsWith.alt (hword (c := 'i') rfl rfl)
  apply Regex.BeginsWith.alt (Regex.BeginsWith.cat (hword (c := 'r') rfl rfl) _)
  apply Regex.BeginsWith.alt (hword (c := 'u') rfl rfl)
  apply Regex.BeginsWith.alt (hword (c := 'd') rfl rfl)
  apply Regex.BeginsWith.alt (hword (c := 'm') rfl rfl)
  apply Regex.BeginsWith.alt (Regex.BeginsWith.cat (hword (c := 'c') rfl rfl) _)
  exact hword (c := 't') rfl rfl

/-- The keyword that is found in a text begins with a letter, and stands where it is found. -/
theorem keyword_of_search {s : Text} {found : Regex.Found}
    (h : Regex.search (bodyDml a) s 0 = some found) :
  ∃ c u, found.read s = c :: u ∧ c.isAlpha = true ∧ found.read s <+: s.drop found.start
    ∧ found.start ≤ s.length
  := by
  obtain ⟨p, q, k, hq, hrest, hk, hstart, hp, hstop⟩ := Regex.exists_of_searchFrom h
  rw [Nat.zero_add] at hstart
  rw [List.drop_zero] at hrest hk
  obtain ⟨c, u, hread, hc⟩ := beginsWith_bodyDml p q hq
  have htake := hread.take
  rw [hrest, ← hstart, ← hp, ← hstop] at htake
  exact ⟨c, u, htake, hc, List.take_prefix _ _, hstart ▸ hk⟩

/-- What only comments stand in begins with white space or a sign of a comment. -/
theorem head_of_pureCommentPrefix {c : Char} {s : Text}
    (h : Regex.fullmatch pureCommentPrefix (c :: s) = true) :
  isSpace c = true ∨ c = '-' ∨ c = '/'
  := by
  have hbegins : Regex.BeginsWith (fun c => isSpace c = true ∨ c = '-' ∨ c = '/')
      (.oneOf [.space, lineComment, blockComment]) := by
    apply Regex.BeginsWith.alt
    · exact Regex.beginsWith_char (fun c hc => Or.inl hc)
    · apply Regex.BeginsWith.alt
      · apply Regex.BeginsWith.cat
        exact Regex.beginsWith_char (fun c hc => Or.inr (Or.inl (eq_of_beq hc)))
      · apply Regex.BeginsWith.cat
        exact Regex.beginsWith_char (fun c hc => Or.inr (Or.inr (eq_of_beq hc)))
  obtain ⟨q, hq, hrest⟩ := List.any_eq_true.mp h
  rw [List.isEmpty_iff] at hrest
  obtain ⟨d, t, hd, hsign⟩ := hbegins.of_mem_star hq (by
    rw [hrest]
    exact (List.cons_ne_nil c s).symm)
  obtain ⟨rfl, -⟩ := List.cons.inj hd
  exact hsign

/-! ### The segment of a piece -/

/-- Whether only comments stand in front of a keyword in what is left of a piece. -/
def isPure (a : Alphabet) (piece : RawSegment) (found : Regex.Found) : Bool :=
  Regex.fullmatch pureCommentPrefix ((segTextOf a piece).take found.start)

/-- The segment of a piece at a keyword. -/
def segmentAt (a : Alphabet) (piece : RawSegment) (found : Regex.Found) : BodySegment :=
  let kept := if isPure a piece found then segTextOf a piece
    else (segTextOf a piece).drop found.start
  let precedingComment :=
    if isPure a piece found then stripCommentPrefix ((segTextOf a piece).take found.start) else []
  { text := strip kept
    dmlStart :=
      if precedingComment.isEmpty then
        segStartOf a piece + ((segTextOf a piece).length - kept.length)
      else segStartOf a piece + found.start
    stop := piece.stop
    precedingComment
    cursorSources := (stripCursorForPrefixWithSources a (strip piece.text)).2 }

theorem segTextOf_of_strip_nil {piece : RawSegment} (h : strip piece.text = []) :
  segTextOf a piece = []
  := by
  have hsuffix := @segTextOf_suffix a piece
  rw [h] at hsuffix
  exact List.suffix_nil.mp hsuffix

theorem cleanPiece_eq (piece : RawSegment) :
  cleanPiece a piece
    = (Regex.search (bodyDml a) (segTextOf a piece) 0).map (segmentAt a piece)
  := by
  rw [cleanPiece]
  dsimp only
  split
  · next hempty =>
      rw [segTextOf_of_strip_nil (List.isEmpty_iff.mp hempty)]
      rfl
  · rw [show (stripCursorForPrefixWithSources a (strip piece.text)).1 = segTextOf a piece from rfl]
    cases Regex.search (bodyDml a) (segTextOf a piece) 0 with
    | none => rfl
    | some found => rfl

theorem matchedKeyword_eq (piece : RawSegment) :
  matchedKeyword a piece
    = (Regex.search (bodyDml a) (segTextOf a piece) 0).map (fun found =>
      { pos := segStartOf a piece + found.start, text := found.read (segTextOf a piece) })
  := rfl

theorem isPrefix_drop {u s : Text} {n k : ℕ} (h : u <+: s.drop n) : u.drop k <+: s.drop (n + k) := by
  obtain ⟨rest, hrest⟩ := h
  rw [← List.drop_drop, ← hrest, List.drop_append]
  exact List.prefix_append _ _

section Piece

variable {body : Text} {piece : RawSegment} {found : Regex.Found}

/-- The text of a segment stands in the body in front of the end of the segment. -/
theorem segmentAt_slice (hpiece : piece ∈ rawSegments a body) :
  ∃ start, (segmentAt a piece found).text <+: body.drop start
    ∧ start + (segmentAt a piece found).text.length ≤ (segmentAt a piece found).stop
  := by
  obtain ⟨hslice, hstop⟩ := segTextOf_slice hpiece
  have hkept : ∃ k, (segmentAt a piece found).text = strip ((segTextOf a piece).drop k) := by
    by_cases hpure : isPure a piece found = true
    · exact ⟨0, by rw [segmentAt]; dsimp only; rw [if_pos hpure, List.drop_zero]⟩
    · exact ⟨found.start, by rw [segmentAt]; dsimp only; rw [if_neg hpure]⟩
  obtain ⟨k, hk⟩ := hkept
  obtain ⟨front, behind, hsplit, -⟩ := strip_eq_append ((segTextOf a piece).drop k)
  rw [hk]
  have hlength := congrArg List.length hsplit
  simp only [List.length_append, List.length_drop] at hlength
  by_cases hempty : strip ((segTextOf a piece).drop k) = []
  · rw [hempty]
    exact ⟨0, List.nil_prefix, Nat.zero_le _⟩
  · have hpos := List.length_pos_of_ne_nil hempty
    refine ⟨segStartOf a piece + k + front.length, ?_, ?_⟩
    · have hprefix := isPrefix_drop (k := front.length) (isPrefix_drop (k := k) hslice)
      rw [hsplit, List.drop_left] at hprefix
      exact (List.prefix_append _ _).trans hprefix
    · have hle := hstop (List.ne_nil_of_length_pos (by omega))
      show _ ≤ piece.stop
      omega

/-- A segment without the comments that yield no title has the offset of its keyword. -/
theorem dmlStart_segmentAt (hstart : found.start ≤ (segTextOf a piece).length)
    (h : ¬ (found.start ≠ 0 ∧ isPure a piece found = true
      ∧ stripCommentPrefix ((segTextOf a piece).take found.start) = [])) :
  (segmentAt a piece found).dmlStart = segStartOf a piece + found.start
  := by
  rw [segmentAt]
  dsimp only
  by_cases hpure : isPure a piece found = true
  · rw [if_pos hpure, if_pos hpure]
    split
    · next hempty =>
        have hzero : found.start = 0 := by
          by_contra hne
          exact h ⟨hne, hpure, List.isEmpty_iff.mp hempty⟩
        rw [hzero, Nat.sub_self]
    · rfl
  · rw [if_neg hpure, if_neg hpure, List.length_drop, Nat.sub_sub_self hstart]
    rfl

/-- The comments that yield no title are where the segment says that its keyword is. -/
theorem dmlStart_of_untitled (hpure : isPure a piece found = true)
    (htitle : stripCommentPrefix ((segTextOf a piece).take found.start) = []) :
  (segmentAt a piece found).dmlStart = segStartOf a piece
  := by
  rw [segmentAt]
  dsimp only
  rw [if_pos hpure, if_pos hpure, htitle, Nat.sub_self]
  rfl

/-- A comment is no keyword. -/
theorem not_keyword_of_untitled (hpiece : piece ∈ rawSegments a body)
    (hfound : Regex.search (bodyDml a) (segTextOf a piece) 0 = some found)
    (hne : found.start ≠ 0) (hpure : isPure a piece found = true) :
  ¬ found.read (segTextOf a piece) <+: body.drop (segStartOf a piece)
  := by
  intro hkeyword
  obtain ⟨c, u, hread, halpha, -, hstart⟩ := keyword_of_search hfound
  obtain ⟨hslice, -⟩ := segTextOf_slice hpiece
  cases hseg : segTextOf a piece with
  | nil =>
      rw [hseg, List.length_nil] at hstart
      omega
  | cons d s =>
      have hsame : c = d := by
        rw [hread] at hkeyword
        rw [hseg] at hslice
        obtain ⟨rest, hrest⟩ := hkeyword
        obtain ⟨rest', hrest'⟩ := hslice
        rw [← hrest'] at hrest
        exact (List.cons.inj hrest).1
      subst hsame
      obtain ⟨k, hk⟩ := Nat.exists_eq_succ_of_ne_zero hne
      rw [isPure, hseg, hk, List.take_succ_cons] at hpure
      rcases head_of_pureCommentPrefix hpure with hspace | rfl | rfl
      · rw [head_segTextOf hseg] at hspace
        cases hspace
      · cases halpha
      · cases halpha

/-- The offsets of a segment are right exactly when its keyword has no comments in front of it that
yield no title. -/
theorem trueOffsets_segmentAt_iff (hpiece : piece ∈ rawSegments a body)
    (hfound : Regex.search (bodyDml a) (segTextOf a piece) 0 = some found) :
  TrueOffsets body (segmentAt a piece found)
      ⟨segStartOf a piece + found.start, found.read (segTextOf a piece)⟩
    ↔ ¬ HasUntitledComments a piece
  := by
  obtain ⟨c, u, -, -, hread, hstart⟩ := keyword_of_search hfound
  obtain ⟨hslice, -⟩ := segTextOf_slice hpiece
  constructor
  · rintro ⟨-, hkeyword, -⟩ ⟨found', hfound', hne, hpure, htitle⟩
    obtain rfl := Option.some.inj (hfound.symm.trans hfound')
    rw [dmlStart_of_untitled hpure htitle] at hkeyword
    exact not_keyword_of_untitled hpiece hfound hne hpure hkeyword
  · intro h
    have hdml := dmlStart_segmentAt hstart (fun hbad => h ⟨found, hfound, hbad⟩)
    refine ⟨segmentAt_slice hpiece, ?_, ?_⟩
    · rw [hdml]
      exact hread.trans (isPrefix_drop hslice)
    · intro before after
      rw [hdml]

end Piece

/-! ### The segments of a body -/

theorem forall₂_filterMap_iff {α β γ δ : Type} {R : β → γ → Prop} {f : α → Option δ}
    {g : α → δ → β} {k : α → δ → γ} {l : List α} :
  List.Forall₂ R (l.filterMap (fun x => (f x).map (g x)))
      (l.filterMap (fun x => (f x).map (k x)))
    ↔ ∀ x ∈ l, ∀ d, f x = some d → R (g x d) (k x d)
  := by
  induction l with
  | nil => simp
  | cons x l ih =>
      rw [List.forall_mem_cons, ← ih]
      cases hfx : f x with
      | none => simp [hfx]
      | some d => simp [hfx]

theorem inheritSources_offsets (scopes : List LoopScope) (segment : BodySegment) :
  (inheritSources scopes segment).text = segment.text
    ∧ (inheritSources scopes segment).dmlStart = segment.dmlStart
    ∧ (inheritSources scopes segment).stop = segment.stop
  := by
  rw [inheritSources]
  split <;> exact ⟨rfl, rfl, rfl⟩

theorem trueOffsets_inheritSources_iff {body : Text} {scopes : List LoopScope}
    {segment : BodySegment} {keyword : MatchedKeyword} :
  TrueOffsets body (inheritSources scopes segment) keyword ↔ TrueOffsets body segment keyword
  := by
  obtain ⟨htext, hdml, hstop⟩ := inheritSources_offsets scopes segment
  constructor
  · rintro ⟨hslice, hkeyword, hline⟩
    rw [htext, hstop] at hslice
    rw [hdml] at hkeyword hline
    exact ⟨hslice, hkeyword, hline⟩
  · rintro ⟨hslice, hkeyword, hline⟩
    constructor
    · rw [htext, hstop]
      exact hslice
    · rw [hdml]
      exact hkeyword
    · rw [hdml]
      exact hline

/-- The offsets of all segments of a body are right exactly when no keyword has comments in front
of it that yield no title. -/
theorem trueOffsets_iff (a : Alphabet) (body declarationRegion : Text) :
  List.Forall₂ (TrueOffsets body) (iterProcedureBodySegments a body declarationRegion)
      ((rawSegments a body).filterMap (matchedKeyword a))
    ↔ ∀ piece ∈ rawSegments a body, ¬ HasUntitledComments a piece
  := by
  rw [iterProcedureBodySegments, List.forall₂_map_left_iff]
  simp only [trueOffsets_inheritSources_iff]
  have hclean : cleanPiece a = fun piece =>
      (Regex.search (bodyDml a) (segTextOf a piece) 0).map (segmentAt a piece) :=
    funext cleanPiece_eq
  have hkeyword : matchedKeyword a = fun piece =>
      (Regex.search (bodyDml a) (segTextOf a piece) 0).map (fun found =>
        { pos := segStartOf a piece + found.start, text := found.read (segTextOf a piece) }) :=
    funext matchedKeyword_eq
  rw [hclean, hkeyword, forall₂_filterMap_iff]
  constructor
  · intro h piece hpiece hbad
    obtain ⟨found, hfound, -⟩ := id hbad
    exact (trueOffsets_segmentAt_iff hpiece hfound).mp (h piece hpiece found hfound) hbad
  · intro h piece hpiece found hfound
    exact (trueOffsets_segmentAt_iff hpiece hfound).mpr (h piece hpiece)

/-- The keyword of a statement behind an empty comment is not where the segment says. -/
theorem not_trueOffsets_emptyComment :
  ¬ List.Forall₂ (TrueOffsets "--\nDELETE FROM t;".toList)
    (iterProcedureBodySegments asciiAlphabet "--\nDELETE FROM t;".toList [])
    ((rawSegments asciiAlphabet "--\nDELETE FROM t;".toList).filterMap
      (matchedKeyword asciiAlphabet))
  := by
  intro h
  have hsegments : (iterProcedureBodySegments asciiAlphabet "--\nDELETE FROM t;".toList []).map
      BodySegment.dmlStart = [0] := by decide +kernel
  have hkeywords : ((rawSegments asciiAlphabet "--\nDELETE FROM t;".toList).filterMap
      (matchedKeyword asciiAlphabet)).map MatchedKeyword.text = ["DELETE".toList] := by
    decide +kernel
  have hall : List.Forall₂ (fun start keyword => keyword <+: "--\nDELETE FROM t;".toList.drop start)
      [0] ["DELETE".toList] := by
    rw [← hsegments, ← hkeywords, List.forall₂_map_left_iff, List.forall₂_map_right_iff]
    exact h.imp (fun _ _ hoffsets => hoffsets.keyword_at)
  obtain ⟨hkeyword, -⟩ := List.forall₂_cons.mp hall
  revert hkeyword
  decide

end Offsets

end Lineage
