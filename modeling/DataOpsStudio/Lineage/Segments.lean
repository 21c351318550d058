import DataOpsStudio.Library.Dict
import DataOpsStudio.Library.Regex
import DataOpsStudio.Sql.Guard

/-!
# The statements of a procedure

The body of a procedure is cut at its semicolons.  Literals are passed over, and so are the
semicolons of blocks inside the body.  Of each piece, what stands before its first keyword of a
statement is left away, unless it is a comment, and the head of a loop over a cursor is taken off.
-/

namespace Lineage

open Text Sql

/-- The letters and digits of all scripts, as the interpreter knows them. -/
structure Alphabet where
  isAlpha : Char → Bool
  isAlnum : Char → Bool
  isAlnum_of_isAlpha : ∀ c, isAlpha c = true → isAlnum c = true
  not_isSpace : ∀ c, isAlnum c = true → isSpace c = false
  ascii : ∀ c, c.toNat < 128 → isAlpha c = c.isAlpha ∧ isAlnum c = c.isAlphanum

/-- The characters of words in patterns. -/
def Alphabet.isWord (a : Alphabet) (c : Char) : Bool := a.isAlnum c || c == '_'

/-- The alphabet without the letters and digits of other scripts. -/
def asciiAlphabet : Alphabet where
  isAlpha := Char.isAlpha
  isAlnum := Char.isAlphanum
  isAlnum_of_isAlpha c h := by rw [Char.isAlphanum, h, Bool.true_or]
  not_isSpace c h := by
    rw [isAlphanum_iff] at h
    simp only [isSpace, Bool.or_eq_false_iff, Bool.and_eq_false_iff, decide_eq_false_iff_not,
      beq_eq_false_iff_ne]
    omega
  ascii _ _ := ⟨rfl, rfl⟩

/-! ### Literals -/

def isQuote (c : Char) : Bool := c == '\'' || c == '"'

/-- The length of what is left of a literal after its opening quote.  A doubled quote does not end
it. -/
def literalLength (quote : Char) : Text → ℕ
  | [] => 0
  | [_] => 1
  | c :: d :: s =>
      if c = quote then if d = quote then literalLength quote s + 2 else 1
      else literalLength quote (d :: s) + 1

/-! ### The ends of blocks -/

section Segments

variable (a : Alphabet)

/-- The words that make an `END` the end of a statement, and not of a block. -/
def controlEndKeywords : List Text :=
  ["if", "loop", "case", "record", "for", "while", "xmlelement"].map String.toList

/-- Whether an `END`, followed by a text, is the end of a block. -/
def isBlockEnd (after : Text) : Bool :=
  match lstrip after with
  | [] => true
  | c :: s =>
      if c = ';' then true
      else if !(a.isAlpha c || c == '_') then false
      else
        let ident := (c :: s).takeWhile (fun d => a.isAlnum d || d == '_')
        if controlEndKeywords.contains (lowerWord ident) then false
        else (lstrip ((c :: s).drop ident.length)).head? == some ';'

/-! ### Patterns -/

/-- A boundary of a word. -/
def wordEdge : Regex := .boundary a.isWord

/-- A word by itself. -/
def wholeWord (word : String) : Regex := .seq [wordEdge a, .letters word, wordEdge a]

/-- The characters of names, with their quotes. -/
def nameChar : Regex := .char (fun c => a.isWord c || "$#.\"`[]".toList.contains c)

/-- The characters of simple names. -/
def simpleNameChar : Regex := .char (fun c => a.isWord c || "$#".toList.contains c)

/-- The block `BEGIN` and `END` words. -/
def blockToken : Regex := .alt (wholeWord a "begin") (wholeWord a "end")

/-- The keywords that statements begin with. -/
def bodyDml : Regex :=
  .seq
    [wordEdge a,
      .oneOf
        [.letters "with", .letters "select", .letters "insert",
          .seq [.letters "replace", .plus .space, .letters "into"],
          .letters "update", .letters "delete", .letters "merge",
          .seq
            [.letters "create", .plus .space,
              .optional (.seq [.letters "or", .plus .space, .letters "replace", .plus .space]),
              .optional
                (.oneOf
                  [.seq [.letters "global", .plus .space, .letters "temporary", .plus .space],
                    .seq [.letters "temporary", .plus .space],
                    .seq [.letters "temp", .plus .space]]),
              .letters "table"],
          .letters "truncate"],
      wordEdge a]

/-- The head of a loop over a cursor. -/
def cursorFor : Regex :=
  .seq
    [.letters "for", .plus .space, .plus (simpleNameChar a), .plus .space, .letters "in",
      wordEdge a]

/-- The head of a loop at the beginning of a segment. -/
def cursorForLoopHead : Regex := .seq [.textStart, .star .space, cursorFor a]

/-- The head of a loop anywhere in a body. -/
def cursorForLoopInline : Regex := .cat (wordEdge a) (cursorFor a)

/-- The keyword `LOOP`. -/
def loopKeyword : Regex := wholeWord a "loop"

/-- The declaration of a cursor; the first group is its name. -/
def cursorDecl : Regex :=
  .seq
    [wordEdge a, .letters "cursor", .plus .space,
      .group 1 (.cat (.char (fun c => c.isAlpha || c == '_')) (.star (simpleNameChar a))),
      .star .space,
      .optional (.seq [.exactly '(', .star (.char (· != ')')), .exactly ')']),
      .plus .space, .oneOf [.letters "is", .letters "as"], .plus .space]

/-- The tables after `FROM`; the first group is their list. -/
def fromTable : Regex :=
  .seq
    [wordEdge a, .letters "from", .plus .space,
      .group 1
        (.cat (.plus (nameChar a))
          (.star (.seq [.star .space, .exactly ',', .star .space, .plus (nameChar a)])))]

/-- The table after `JOIN`, as the first group. -/
def joinTable : Regex :=
  .seq [wordEdge a, .letters "join", .plus .space, .group 1 (.plus (nameChar a))]

/-- A comment to the end of the line. -/
def lineComment : Regex := .seq [.exactly '-', .exactly '-', .star (.char (· != '\n'))]

/-- A comment in signs. -/
def blockComment : Regex :=
  .seq
    [.exactly '/', .exactly '*',
      .star (.alt (.char (· != '*')) (.cat (.exactly '*') (.notAhead (.exactly '/')))),
      .exactly '*', .exactly '/']

/-- White space and comments. -/
def pureCommentPrefix : Regex := .star (.oneOf [.space, lineComment, blockComment])

/-! ### The tables of a cursor -/

/-- The pieces of a text between the occurrences of a character. -/
def splitOn (c : Char) : Text → List Text
  | [] => [[]]
  | d :: s =>
      if d = c then [] :: splitOn c s
      else
        match splitOn c s with
        | [] => [[d]]
        | piece :: pieces => (d :: piece) :: pieces

/-- The words of a text that white space follows or precedes. -/
def words (s : Text) : List Text := (s.splitOnP isSpace).filter (fun word => !word.isEmpty)

/-- The words that are not taken for tables. -/
def notTables : List Text :=
  ["where", "group", "order", "having", "limit", "fetch"].map String.toList

/-- Adds a table that is not there yet. -/
def pushTable (tables : List Text) (raw : Text) : List Text :=
  let name := stripBy (fun c => "\"`[]".toList.contains c) (strip raw)
  if name.isEmpty || name.head? == some '(' || notTables.contains (lowerWord name) then tables
  else if (tables.map lowerWord).contains (lowerWord name) then tables
  else tables ++ [name]

/-- The tables that the query of a cursor names after `FROM` and `JOIN`. -/
def extractCursorSelectTables (cursorSelect : Text) : List Text :=
  let fromTables := (Regex.finditer (fromTable a) cursorSelect 0).flatMap
    (fun found =>
      (splitOn ',' ((found.group 1).getD [])).map (fun piece => (words piece).head?.getD []))
  let joinTables := (Regex.finditer (joinTable a) cursorSelect 0).map
    (fun found => (found.group 1).getD [])
  (fromTables ++ joinTables).foldl pushTable []

/-! ### Cursors -/

/-- The number of characters in front of the semicolon that ends a declaration, outside literals
and parentheses. -/
def untilSemicolon : ℕ → ℤ → Text → ℕ
  | _, _, [] => 0
  | skip + 1, depth, _ :: s => untilSemicolon skip depth s + 1
  | 0, depth, c :: s =>
      if isQuote c then untilSemicolon (literalLength c s) depth s + 1
      else if c = '(' then untilSemicolon 0 (depth + 1) s + 1
      else if c = ')' then untilSemicolon 0 (depth - 1) s + 1
      else if c = ';' ∧ depth = 0 then 0
      else untilSemicolon 0 depth s + 1

/-- The declarations of cursors from a position on, with the tables of each. -/
def cursorDeclsFrom (body : Text) :
    ℕ → ℕ → Dict Text (List Text) → Dict Text (List Text)
  | 0, _, decls => decls
  | fuel + 1, pos, decls =>
      if body.length ≤ pos then decls
      else
        match Regex.search (cursorDecl a) body pos with
        | none => decls
        | some found =>
            let rest := body.drop found.stop
            let length := untilSemicolon 0 0 rest
            let tables := extractCursorSelectTables a (rest.take length)
            let name := lowerWord ((found.group 1).getD [])
            let decls := if tables.isEmpty then decls else decls.set name tables
            cursorDeclsFrom body fuel (found.stop + length + 1) decls

/-- The cursors that are declared in a text, with the tables of each. -/
def collectCursorDecls (body : Text) : Dict Text (List Text) :=
  cursorDeclsFrom a body (body.length + 1) 0 Dict.empty

/-- The number of characters in front of the parenthesis that closes what some number of
parentheses has opened. -/
def closingParen : ℕ → ℕ → Text → Option ℕ
  | _, _, [] => none
  | skip + 1, depth, _ :: s => (closingParen skip depth s).map (· + 1)
  | 0, depth, c :: s =>
      if isQuote c then (closingParen (literalLength c s) depth s).map (· + 1)
      else if c = '(' then (closingParen 0 (depth + 1) s).map (· + 1)
      else if c = ')' then if depth = 1 then some 0 else (closingParen 0 (depth - 1) s).map (· + 1)
      else (closingParen 0 depth s).map (· + 1)

/-- Whether a text starts with a word that no letter or digit follows. -/
def startsWithKeyword (word s : Text) : Bool :=
  startsWithWord word s && !(s.drop word.length).head?.any a.isAlnum

/-- The number of white space characters in front of a text. -/
def leadingSpace (s : Text) : ℕ := (s.takeWhile isSpace).length

/-- The length of `END LOOP` with the semicolon after it, where a text starts with it. -/
def endLoopLength? (s : Text) : Option ℕ :=
  if startsWithKeyword a "end".toList s then
    let gap := leadingSpace (s.drop 3)
    if startsWithKeyword a "loop".toList (s.drop (3 + gap)) then
      let after := 3 + gap + 4
      let blank := leadingSpace (s.drop after)
      some (after + blank + if (s.drop (after + blank)).head? == some ';' then 1 else 0)
    else none
  else none

/-- The number of characters up to the end of the loop that some number of loops is open in. -/
def loopEnd : ℕ → ℕ → Text → ℕ
  | _, _, [] => 0
  | skip + 1, depth, _ :: s => loopEnd skip depth s + 1
  | 0, depth, c :: s =>
      if isQuote c then loopEnd (literalLength c s) depth s + 1
      else if a.isAlpha c then
        match endLoopLength? a (c :: s) with
        | some length => if depth = 1 then length else loopEnd (length - 1) (depth - 1) s + 1
        | none =>
            if startsWithKeyword a "loop".toList (c :: s) then loopEnd 3 (depth + 1) s + 1
            else loopEnd 0 depth s + 1
      else loopEnd 0 depth s + 1

/-- The tables of the cursor that a loop names after `IN`, and the number of characters up to the
white space in front of `LOOP`. -/
def loopCursor (decls : Dict Text (List Text)) (after : Text) : Option (List Text × ℕ) :=
  let gap := leadingSpace after
  match after.drop gap with
  | [] => none
  | c :: s =>
      if c = '(' then
        (closingParen 0 1 s).map
          (fun length => (extractCursorSelectTables a (s.take length), gap + 1 + length + 1))
      else if a.isAlpha c || c == '_' then
        let name := (c :: s).takeWhile (fun d => a.isAlnum d || "_$#.".toList.contains d)
        let rest := (c :: s).drop name.length
        let blank := leadingSpace rest
        let tables := (decls.get? (lowerWord name)).getD []
        match rest.drop blank with
        | '(' :: t =>
            some (tables, gap + name.length + blank + 1
              + ((closingParen 0 1 t).map (· + 1)).getD t.length)
        | _ => some (tables, gap + name.length + blank)
      else none

/-- A loop over a cursor: where it starts and ends in the body, and the tables of the cursor. -/
structure LoopScope where
  start : ℕ
  stop : ℕ
  sources : List Text

/-- The loops over cursors from a position on. -/
def loopScopesFrom (body : Text) (decls : Dict Text (List Text)) : ℕ → ℕ → List LoopScope
  | 0, _ => []
  | fuel + 1, pos =>
      if body.length ≤ pos then []
      else
        match Regex.search (cursorForLoopInline a) body pos with
        | none => []
        | some found =>
            match loopCursor a decls (body.drop found.stop) with
            | none => loopScopesFrom body decls fuel found.stop
            | some (sources, length) =>
                let gap := leadingSpace (body.drop (found.stop + length))
                let place := found.stop + length + gap
                if startsWithKeyword a "loop".toList (body.drop place) then
                  { start := found.start
                    stop := place + 4 + loopEnd a 0 1 (body.drop (place + 4))
                    sources } :: loopScopesFrom body decls fuel (place + 4)
                else loopScopesFrom body decls fuel found.stop

/-- The loops over cursors of a body; cursors may also be declared in front of it. -/
def collectLoopScopes (body : Text) (extraCursorDecls : Dict Text (List Text)) : List LoopScope :=
  let decls := extraCursorDecls.items.foldl
    (fun decls item => if decls.contains item.1 then decls else decls.set item.1 item.2)
    (collectCursorDecls a body)
  loopScopesFrom a body decls (body.length + 1) 0

/-! ### The head of a loop -/

/-- The length of what is left of a literal in the head of a loop: it ends with the first quote
that no other quote follows. -/
def runLength (quote : Char) : Text → ℕ
  | [] => 0
  | [_] => 1
  | c :: d :: s => if c = quote ∧ d ≠ quote then 1 else runLength quote (d :: s) + 1

/-- How far the head of a loop has been read: the depth of parentheses, and where the query of the
cursor starts and ends. -/
structure CursorHead where
  depth : ℤ := 0
  selectStart : Option ℕ := none
  selectEnd : Option ℕ := none

/-- Reads the head of a loop up to its `LOOP`, and answers with what follows it and with the query
that has been read. -/
def readCursorHead :
    ℕ → Option Char → ℕ → CursorHead → Text → Option (CursorHead × Text)
  | _, _, _, _, [] => none
  | skip + 1, _, pos, head, c :: s => readCursorHead skip (some c) (pos + 1) head s
  | 0, before, pos, head, c :: s =>
      if isQuote c then readCursorHead (runLength c s) (some c) (pos + 1) head s
      else if c = '(' then
        readCursorHead 0 (some c) (pos + 1)
          { head with
            depth := head.depth + 1
            selectStart := if head.depth = 0 then some (pos + 1) else head.selectStart } s
      else if c = ')' then
        readCursorHead 0 (some c) (pos + 1)
          { head with
            depth := head.depth - 1
            selectEnd :=
              if head.depth - 1 = 0 ∧ head.selectEnd = none then some pos else head.selectEnd } s
      else if head.depth = 0 ∧ a.isAlpha c = true
          ∧ (Regex.tryAt (loopKeyword a) ⟨before, pos, c :: s, []⟩).isSome
          ∧ ((c :: s).drop 4).head?.any a.isAlnum = false then
        some (head, (c :: s).drop 4)
      else readCursorHead 0 (some c) (pos + 1) head s

/-- The query of a cursor in the head of a loop. -/
def CursorHead.select? (text : Text) (head : CursorHead) : Option Text :=
  match head.selectStart, head.selectEnd with
  | some start, some stop =>
      if start < stop then some ((text.take stop).drop start) else none
  | _, _ => none

/-- A segment without the head of a loop over a cursor, and the tables of the cursor. -/
def stripCursorForPrefixWithSources (segText : Text) : Text × List Text :=
  if (Regex.tryAt (cursorForLoopHead a) (Regex.Spot.at segText 0)).isNone then (segText, [])
  else
    match readCursorHead a 0 none 0 {} segText with
    | none => (segText, [])
    | some (head, after) =>
        (lstrip after,
          ((head.select? segText).map (extractCursorSelectTables a)).getD [])

/-! ### The pieces of a body -/

/-- A piece of a body, and where it starts and ends. -/
structure RawSegment where
  text : Text
  start : ℕ
  stop : ℕ
deriving DecidableEq

/-- How far a body has been cut. -/
structure BodyScan where
  rest : Text
  pos : ℕ := 0
  depth : ℕ := 0
  buffer : Text := []
  segStart : ℕ := 0
  raw : List RawSegment := []

/-- Passes over some characters, which belong to the piece that is being read. -/
def BodyScan.take (scan : BodyScan) (count : ℕ) : BodyScan :=
  { scan with
    rest := scan.rest.drop count
    pos := scan.pos + count
    buffer := scan.buffer ++ scan.rest.take count }

/-- One round of cutting a body. -/
def bodyRound (scan : BodyScan) : BodyScan :=
  match scan.rest with
  | [] => scan
  | c :: s =>
      if isQuote c then scan.take (literalLength c s + 1)
      else if a.isAlpha c && startsWithKeyword a "begin".toList (c :: s) then
        { scan.take 5 with depth := scan.depth + 1 }
      else if a.isAlpha c && startsWithKeyword a "end".toList (c :: s) then
        { scan.take 3 with
          depth := if isBlockEnd a ((c :: s).drop 3) then scan.depth - 1 else scan.depth }
      else if c = ';' ∧ scan.depth = 0 then
        { rest := s
          pos := scan.pos + 1
          depth := 0
          buffer := []
          segStart := scan.pos + 1
          raw := scan.raw ++ [⟨scan.buffer, scan.segStart, scan.pos + 1⟩] }
      else scan.take 1

/-- The state after some rounds of cutting a body. -/
def bodyRounds (body : Text) (n : ℕ) : BodyScan := (bodyRound a)^[n] { rest := body }

/-- The pieces of a body; every round passes over a character. -/
def rawSegments (body : Text) : List RawSegment :=
  let scan := bodyRounds a body body.length
  if (strip scan.buffer).isEmpty then scan.raw
  else scan.raw ++ [⟨scan.buffer, scan.segStart, body.length⟩]

/-! ### The segments of a body -/

/-- A text from a position on, with a blank in place of each of some matches. -/
def blankMatchesFrom (s : Text) : ℕ → List Regex.Found → Text
  | pos, [] => s.drop pos
  | pos, found :: rest =>
      (s.take found.start).drop pos ++ ' ' :: blankMatchesFrom s found.stop rest

/-- The title in a prefix that consists of comments. -/
def stripCommentPrefix (pre : Text) : Text :=
  let blocks := (Regex.finditer blockComment pre 0).map
    (fun f =>
      let inner := ((pre.take (f.stop - 2)).drop (f.start + 2))
      strip (stripBy (· = '*') (strip inner)))
  let lineOnly := blankMatchesFrom pre 0 (Regex.finditer blockComment pre 0)
  let lines := (Regex.finditer lineComment lineOnly 0).map
    (fun f => strip (((lineOnly.take f.stop).drop f.start).dropWhile (· = '-')))
  let pieces := (blocks ++ lines).filter (fun piece => !piece.isEmpty)
  let joined := strip (join " ".toList pieces)
  if 200 < joined.length then (joined.take 200).rdropWhile isSpace ++ "…".toList else joined

/-- A segment of a body: its text, where its keyword is, where it ends, the title in front of it,
and the tables of the cursor that it loops over. -/
structure BodySegment where
  text : Text
  dmlStart : ℕ
  stop : ℕ
  precedingComment : Text
  cursorSources : List Text

/-- The segment of a piece that has a keyword of a statement. -/
def cleanPiece (piece : RawSegment) : Option BodySegment :=
  let leading := leadingSpace piece.text
  let original := strip piece.text
  if original.isEmpty then none
  else
    let (segText, cursorSources) := stripCursorForPrefixWithSources a original
    let cursorStrip := original.length - segText.length
    match Regex.search (bodyDml a) segText 0 with
    | none => none
    | some found =>
        let pre := segText.take found.start
        let pure := Regex.fullmatch pureCommentPrefix pre
        let kept := if pure then segText else segText.drop found.start
        let precedingComment := if pure then stripCommentPrefix pre else []
        let keptStart := piece.start + leading + cursorStrip + (segText.length - kept.length)
        some
          { text := strip kept
            dmlStart :=
              if precedingComment.isEmpty then keptStart
              else piece.start + leading + cursorStrip + found.start
            stop := piece.stop
            precedingComment
            cursorSources }

/-- Gives a segment the tables of the innermost loop that it is in, when it has none of its own. -/
def inheritSources (scopes : List LoopScope) (segment : BodySegment) : BodySegment :=
  if segment.cursorSources.isEmpty then
    let inherited := scopes.foldl
      (fun inherited scope =>
        if scope.start ≤ segment.dmlStart ∧ segment.dmlStart < scope.stop
            ∧ scope.sources.isEmpty = false then scope.sources
        else inherited) []
    { segment with cursorSources := inherited }
  else segment

/-- The segments of the body of a procedure. -/
def iterProcedureBodySegments (body declarationRegion : Text) : List BodySegment :=
  let cleaned := (rawSegments a body).filterMap (cleanPiece a)
  let extraDecls :=
    if declarationRegion.isEmpty then Dict.empty else collectCursorDecls a declarationRegion
  cleaned.map (inheritSources (collectLoopScopes a body extraDecls))

/-! ### The end of a block -/

/-- The words `BEGIN` and `END` of a text from a position on. -/
def blockTokens (sql : Text) (pos : ℕ) : List Regex.Found := Regex.finditer (blockToken a) sql pos

/-- Counts until the depth is zero, and answers with where the word is that ends the block. -/
def blockEndFrom (sql : Text) : ℤ → List Regex.Found → ℕ
  | _, [] => sql.length
  | depth, token :: rest =>
      if startsWithWord "begin".toList (sql.drop token.start) then
        blockEndFrom sql (depth + 1) rest
      else if isBlockEnd a (sql.drop token.stop) then
        if depth - 1 = 0 then token.start else blockEndFrom sql (depth - 1) rest
      else blockEndFrom sql depth rest

/-- Where the block ends that begins at a position, or where the first block after it begins and
ends. -/
def findBlockEnd (sql : Text) (startPos : ℕ) (depth : ℤ) : Option ℕ × ℕ :=
  if depth = 0 then
    match Regex.search (wholeWord a "begin") sql startPos with
    | none => (none, sql.length)
    | some found => (some found.start, blockEndFrom a sql 1 (blockTokens a sql found.stop))
  else (some startPos, blockEndFrom a sql depth (blockTokens a sql startPos))

end Segments

end Lineage
