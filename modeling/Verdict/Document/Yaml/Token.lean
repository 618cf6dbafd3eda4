import Verdict.Document.Json

/-!
# Document/Yaml/Token — the tokens of a text

Indentation becomes tokens: a block collection opens where its first entry or key stands further in
than the block around it, and closes where a token stands further out.  That a scalar or a flow
collection is a key shows only at the colon after it, so every token that may begin a key is
remembered (`PossibleKey`), and its key token is put in front of it when the colon comes.

A possible key is given up at the end of its line.  One that stands where the keys of the open block
stand must not be given up.
-/

namespace Verdict.Yaml

open Document (Error)

/-- A token. -/
inductive Token where
  | documentStart
  | documentEnd
  /-- A block list opens, or a block mapping. -/
  | blockList
  | blockMapping
  | blockEnd
  | flowList
  | flowListEnd
  | flowMapping
  | flowMappingEnd
  /-- A hyphen before an item. -/
  | item
  | comma
  /-- What follows is a key. -/
  | key
  /-- A colon after a key. -/
  | value
  | scalar (quoted : Bool) (text : String)
  deriving DecidableEq, Repr

/-! ## Characters -/

/-- Line and paragraph separators. -/
def isSeparator (c : Char) : Bool := c.toNat = 0x2028 || c.toNat = 0x2029

/-- A character that ends a line. -/
def isBreak (c : Char) : Bool := c = '\n' || c = '\r' || c.toNat = 0x85 || isSeparator c

/-- A blank, a tab or the end of a line. -/
def isGap (c : Char) : Bool := c = ' ' || c = '\t' || isBreak c

/-- Whether a text begins with a gap, or is at its end. -/
def beginsWithGap (cs : List Char) : Bool := cs.head?.all isGap

/-- A character that may stand in a text at all. -/
def isAdmissible (c : Char) : Bool :=
  let n := c.toNat
  n = 9 || n = 10 || n = 13 || (0x20 ≤ n && n ≤ 0x7e) || n = 0x85 ||
  (0xa0 ≤ n && n ≤ 0xd7ff) || (0xe000 ≤ n && n ≤ 0xfffd) || 0x10000 ≤ n

/-- The mark that tells the byte order of a text. -/
def byteOrderMark : Char := Char.ofNat 0xfeff

/-- Whether a text begins with a line that starts or ends a document. -/
def beginsWithMarker (cs : List Char) : Bool :=
  (cs.take 3 = ['-', '-', '-'] || cs.take 3 = ['.', '.', '.']) && beginsWithGap (cs.drop 3)

/-! ## Places -/

/-- A place in a text: what is left from there, the number of characters before it, and its line and
column. -/
structure Cursor where
  rest : List Char
  index : Nat
  line : Nat
  column : Nat

namespace Cursor

/-- One character further. -/
def next (k : Cursor) : Cursor :=
  match k.rest with
  | [] => k
  | c :: rest =>
    if isBreak c && !(c = '\r' && rest.head? = some '\n') then ⟨rest, k.index + 1, k.line + 1, 0⟩
    else ⟨rest, k.index + 1, k.line, if c = byteOrderMark then k.column else k.column + 1⟩

/-- Some characters further. -/
def skip : Nat → Cursor → Cursor
  | 0, k => k
  | n + 1, k => skip n k.next

/-- At the last part of a text. -/
def moveTo (k : Cursor) (rest : List Char) : Cursor := k.skip (k.rest.length - rest.length)

/-- The beginning of a text, after a byte order mark. -/
def start (cs : List Char) : Cursor :=
  let k : Cursor := ⟨cs, 0, 0, 0⟩
  if cs.head? = some byteOrderMark then k.next else k

end Cursor

/-! ## Gaps and lines -/

/-- Drop blanks, comments and line ends; also tells whether a line ended. -/
def skipGap (inComment lineEnded : Bool) : List Char → Bool × List Char
  | [] => (lineEnded, [])
  | c :: rest =>
    if isBreak c then skipGap false true rest
    else if inComment then skipGap true lineEnded rest
    else if c = ' ' then skipGap false lineEnded rest
    else if c = '#' then skipGap true lineEnded rest
    else (lineEnded, c :: rest)

/-- Take a line end off a text.  Separators stay, all other line ends are one. -/
def takeBreak? : List Char → Option (Char × List Char)
  | '\r' :: '\n' :: rest => some ('\n', rest)
  | c :: rest => if isBreak c then some (if isSeparator c then c else '\n', rest) else none
  | [] => none

/-- The empty lines after a line end, and the blanks before the text that follows.  They stop
before a marker of a document. -/
structure Margin where
  breaks : List Char
  rest : List Char
  /-- Blanks before the text. -/
  width : Nat
  atMarker : Bool

/-- Take a margin off a text, in which tabs may be blanks. -/
def takeMargin (tabs : Bool) : Nat → List Char → Nat → List Char → Margin
  | 0, breaks, width, cs => ⟨breaks.reverse, cs, width, false⟩
  | fuel + 1, breaks, width, cs =>
    if width = 0 && beginsWithMarker cs then ⟨breaks.reverse, cs, 0, true⟩
    else
      match takeBreak? cs, cs with
      | some (c, rest), _ => takeMargin tabs fuel (c :: breaks) 0 rest
      | none, c :: rest =>
        if c = ' ' || (tabs && c = '\t') then takeMargin tabs fuel breaks (width + 1) rest
        else ⟨breaks.reverse, cs, width, false⟩
      | none, [] => ⟨breaks.reverse, cs, width, false⟩

/-- The margin after a line end. -/
def marginOf (tabs : Bool) (cs : List Char) : Margin := takeMargin tabs (cs.length + 1) [] 0 cs

/-- What a line end and the empty lines after it become inside a scalar: a single line end becomes a
blank, of several the first goes. -/
def folded (first : Char) (breaks : List Char) : List Char :=
  if first ≠ '\n' then first :: breaks
  else if breaks.isEmpty then [' ']
  else breaks

/-! ## Quoted scalars -/

/-- The characters that stand for themselves or for others after a backslash. -/
def escapes : List (Char × Nat) := [
  ('0', 0), ('a', 7), ('b', 8), ('t', 9), ('\t', 9), ('n', 10), ('v', 11), ('f', 12), ('r', 13),
  ('e', 27), (' ', 32), ('"', 34), ('\\', 92), ('/', 47), ('N', 0x85), ('_', 0xa0), ('L', 0x2028),
  ('P', 0x2029)]

/-- A character given by so many hexadecimal digits. -/
def takeCode? (count : Nat) (cs : List Char) : Option (Char × List Char) :=
  let digits := (cs.take count).filterMap Json.hexDigit?
  let n := digits.foldl (fun n d => n * 16 + d) 0
  if digits.length < count || 0x10ffff < n then none
  else some (if n.isValidChar then Char.ofNat n else Json.replacementChar, cs.drop count)

/-- What stands after a backslash: characters, and the rest of the text. -/
def takeEscape? : List Char → Option (List Char × List Char)
  | 'x' :: rest => (takeCode? 2 rest).map fun (c, rest) => ([c], rest)
  | 'u' :: rest => (Json.readEscapedUnits? rest).map fun (c, rest) => ([c], rest)
  | 'U' :: rest => (takeCode? 8 rest).map fun (c, rest) => ([c], rest)
  | cs =>
    match takeBreak? cs, cs with
    | some (_, rest), _ =>
      let m := marginOf true rest
      if m.atMarker then none else some (m.breaks, m.rest)
    | none, c :: rest => (Entries.find? c escapes).map fun n => ([Char.ofNat n], rest)
    | none, [] => none

/-- The rest of a scalar in double quotes, or in single ones, onto the characters read so far, last
first. -/
def readQuoted (double : Bool) : Nat → List Char → List Char → Option (String × List Char)
  | 0, _, _ => none
  | _ + 1, _, [] => none
  | fuel + 1, read, c :: rest =>
    if double && c = '"' then some (String.ofList read.reverse, rest)
    else if !double && c = '\'' then
      match rest with
      | '\'' :: rest => readQuoted double fuel ('\'' :: read) rest
      | _ => some (String.ofList read.reverse, rest)
    else if double && c = '\\' then
      match takeEscape? rest with
      | some (cs, rest) => readQuoted double fuel (cs.reverse ++ read) rest
      | none => none
    else if isGap c then
      let blanks := (c :: rest).takeWhile fun c => c = ' ' || c = '\t'
      match takeBreak? ((c :: rest).drop blanks.length) with
      | some (first, rest) =>
        let m := marginOf true rest
        if m.atMarker then none
        else readQuoted double fuel ((folded first m.breaks).reverse ++ read) m.rest
      | none => readQuoted double fuel (blanks.reverse ++ read) ((c :: rest).drop blanks.length)
    else readQuoted double fuel (c :: read) rest

/-! ## Plain scalars -/

/-- A character that has a meaning in flow collections. -/
def isFlowSign (c : Char) : Bool := [',', '[', ']', '\x7b', '\x7d'].contains c

/-- Whether a colon before a text ends a plain scalar. -/
def endsAtColon (inFlow : Bool) (rest : List Char) : Bool :=
  beginsWithGap rest || (inFlow && rest.head?.any isFlowSign)

/-- The characters of a plain scalar up to a gap, a colon or, in a flow collection, a sign. -/
def plainRun (inFlow : Bool) : List Char → List Char
  | [] => []
  | c :: rest =>
    if isGap c || (c = ':' && endsAtColon inFlow rest) || (inFlow && (c = '?' || isFlowSign c)) then []
    else c :: plainRun inFlow rest

/-- The characters, besides flow signs, that no plain scalar begins with. -/
def indicators : List Char := ['#', '&', '*', '!', '|', '>', '\'', '"', '%', '@', Char.ofNat 96]

/-- Whether a plain scalar may begin here. -/
def beginsPlain (inFlow : Bool) : List Char → Bool
  | [] => false
  | c :: rest =>
    if c = '-' then !beginsWithGap rest
    else if c = '?' || c = ':' then !inFlow && !beginsWithGap rest
    else !isGap c && !isFlowSign c && !indicators.contains c

/-- A plain scalar as it was read. -/
structure PlainScalar where
  text : List Char
  rest : List Char
  /-- Whether lines ended after it. -/
  lineEnded : Bool

/-- Read a plain scalar onto what has been read and the gap after that, last first.  It goes on in
later lines that stand at least `indent` blanks in, or anywhere in a flow collection. -/
def readPlain (inFlow : Bool) (indent : Nat) : Nat → Bool → List Char → List Char → List Char → PlainScalar
  | 0, lineEnded, read, _, cs => ⟨read.reverse, cs, lineEnded⟩
  | fuel + 1, lineEnded, read, gap, cs =>
    let run := if cs.head? = some '#' then [] else plainRun inFlow cs
    if run.isEmpty then ⟨read.reverse, cs, lineEnded⟩
    else
      let read := run.reverse ++ gap ++ read
      let rest := cs.drop run.length
      let blanks := rest.takeWhile (· = ' ')
      let after := rest.drop blanks.length
      match takeBreak? after with
      | none =>
        if blanks.isEmpty then ⟨read.reverse, after, false⟩
        else readPlain inFlow indent fuel false read blanks after
      | some (first, rest) =>
        let m := marginOf false rest
        if m.atMarker || (!inFlow && m.width < indent) then ⟨read.reverse, m.rest, true⟩
        else readPlain inFlow indent fuel true read (folded first m.breaks).reverse m.rest

/-! ## Scanning -/

/-- A token that a key may begin with. -/
structure PossibleKey where
  /-- The number of tokens before it. -/
  position : Nat
  index : Nat
  line : Nat
  column : Nat
  /-- Whether it stands where the keys of the open block stand. -/
  required : Bool

/-- The longest possible key. -/
def maxKeyLength : Nat := 1024

/-- A text of which some tokens have been scanned. -/
structure Scan where
  cursor : Cursor
  tokens : Array Token
  /-- The columns of the open blocks, the innermost first. -/
  indents : List Nat
  /-- The last possible key. -/
  key : Option PossibleKey
  /-- The last possible keys around each open flow collection, the innermost first. -/
  outer : List (Option PossibleKey)
  /-- Whether a key may begin at the cursor. -/
  keyAllowed : Bool

namespace Scan

/-- Nothing has been scanned. -/
def start (cs : List Char) : Scan := ⟨.start cs, #[], [], none, [], true⟩

/-- Whether a flow collection is open. -/
def inFlow (s : Scan) : Bool := !s.outer.isEmpty

/-- Add a token. -/
def push (s : Scan) (t : Token) : Scan := { s with tokens := s.tokens.push t }

/-- Add a token of so many characters. -/
def take (s : Scan) (width : Nat) (t : Token) : Scan :=
  { s with tokens := s.tokens.push t, cursor := s.cursor.skip width }

/-- Close the blocks that stand further in than a column. -/
def closeBlocks (s : Scan) (isDeeper : Nat → Bool) : Scan :=
  let closed := s.indents.takeWhile isDeeper
  { s with
    indents := s.indents.dropWhile isDeeper
    tokens := closed.foldl (fun tokens _ => tokens.push .blockEnd) s.tokens }

/-- Open a block at a column, if that is further in than the open one, with its token in front of
the token of a position. -/
def openBlock (s : Scan) (column position : Nat) (t : Token) : Scan :=
  if s.indents.head?.all (· < column) then
    { s with indents := column :: s.indents, tokens := s.tokens.insertIdxIfInBounds position t }
  else s

/-- Give up the last possible key. -/
def dropKey (s : Scan) : Except Error Scan :=
  if s.key.any PossibleKey.required then .error .malformed else .ok { s with key := none }

/-- A possible key unless the cursor has left its line, or is too far behind it. -/
def stillPossible (k : Cursor) (key : Option PossibleKey) : Except Error (Option PossibleKey) :=
  match key with
  | none => .ok none
  | some p =>
    if p.line = k.line && k.index ≤ p.index + maxKeyLength then .ok (some p)
    else if p.required then .error .malformed
    else .ok none

/-- Give up the keys that are no longer possible. -/
def dropStaleKeys (s : Scan) : Except Error Scan := do
  let key ← stillPossible s.cursor s.key
  let outer ← s.outer.mapM (stillPossible s.cursor)
  .ok { s with key, outer }

/-- Note that the next token may begin a key. -/
def noteKey (s : Scan) : Except Error Scan := do
  if s.keyAllowed then
    let s ← s.dropKey
    let k := s.cursor
    let required := !s.inFlow && s.indents.head? = some k.column
    .ok { s with key := some ⟨s.tokens.size, k.index, k.line, k.column, required⟩ }
  else .ok s

/-- Move to the next token. -/
def toToken (s : Scan) : Except Error Scan := do
  let (lineEnded, rest) := skipGap false false s.cursor.rest
  let s := { s with
    cursor := s.cursor.moveTo rest
    keyAllowed := s.keyAllowed || (lineEnded && !s.inFlow) }
  let s ← s.dropStaleKeys
  .ok (if s.inFlow then s else s.closeBlocks fun indent => s.cursor.column < indent)

/-- A marker of a document. -/
def marker (s : Scan) (t : Token) : Except Error Scan := do
  let s ← (s.closeBlocks fun _ => true).dropKey
  .ok { s.take 3 t with keyAllowed := false }

/-- A flow collection opens. -/
def openFlow (s : Scan) (t : Token) : Except Error Scan := do
  let s ← s.noteKey
  .ok { s.take 1 t with outer := s.key :: s.outer, key := none, keyAllowed := true }

/-- A flow collection closes. -/
def closeFlow (s : Scan) (t : Token) : Except Error Scan := do
  let s ← s.dropKey
  match s.outer with
  | [] => .error .malformed
  | key :: outer => .ok { s.take 1 t with outer, key, keyAllowed := false }

/-- A comma. -/
def comma (s : Scan) : Except Error Scan := do
  let s ← s.dropKey
  .ok { s.take 1 .comma with keyAllowed := true }

/-- A hyphen before an item, or a question mark before a key, which may open a block. -/
def entry (s : Scan) (block t : Token) : Except Error Scan := do
  let s ←
    if s.inFlow then .ok s
    else if s.keyAllowed then .ok (s.openBlock s.cursor.column s.tokens.size block)
    else .error .malformed
  let s ← s.dropKey
  .ok (s.take 1 t)

/-- A colon: the last possible key is one, if there is any. -/
def colon (s : Scan) : Except Error Scan := do
  match s.key with
  | some p =>
    let s := { s with tokens := s.tokens.insertIdxIfInBounds p.position .key, key := none }
    let s := if s.inFlow then s else s.openBlock p.column p.position .blockMapping
    .ok { s.take 1 .value with keyAllowed := false }
  | none =>
    let s ← s.entry .blockMapping .value
    .ok { s with keyAllowed := !s.inFlow }

/-- A scalar between quotes. -/
def quoted (s : Scan) (double : Bool) : Except Error Scan := do
  let s ← s.noteKey
  let rest := s.cursor.rest.drop 1
  match readQuoted double (rest.length + 1) [] rest with
  | none => .error .malformed
  | some (text, rest) =>
    .ok { s.push (.scalar true text) with cursor := s.cursor.moveTo rest, keyAllowed := false }

/-- A scalar without quotes. -/
def plain (s : Scan) : Except Error Scan := do
  let s ← s.noteKey
  let rest := s.cursor.rest
  let p := readPlain s.inFlow ((s.indents.head?.map (· + 1)).getD 0) (rest.length + 1) false [] [] rest
  .ok { s.push (.scalar false (String.ofList p.text)) with
    cursor := s.cursor.moveTo p.rest
    keyAllowed := p.lineEnded }

/-- Scan the token at the cursor. -/
def token (s : Scan) (c : Char) (rest : List Char) : Except Error Scan :=
  if s.cursor.column = 0 && c = '%' then .error .malformed
  else if s.cursor.column = 0 && beginsWithMarker (c :: rest) then
    s.marker (if c = '-' then .documentStart else .documentEnd)
  else if c = '[' then s.openFlow .flowList
  else if c = '\x7b' then s.openFlow .flowMapping
  else if c = ']' then s.closeFlow .flowListEnd
  else if c = '\x7d' then s.closeFlow .flowMappingEnd
  else if c = ',' then s.comma
  else if c = '-' && beginsWithGap rest then
    (s.entry .blockList .item).map fun s => { s with keyAllowed := true }
  else if c = '?' && (s.inFlow || beginsWithGap rest) then
    (s.entry .blockMapping .key).map fun s => { s with keyAllowed := !s.inFlow }
  else if c = ':' && (s.inFlow || beginsWithGap rest) then s.colon
  else if c = '\'' then s.quoted false
  else if c = '"' then s.quoted true
  else if beginsPlain s.inFlow (c :: rest) then s.plain
  else .error .malformed

/-- Scan all tokens. -/
def run : Nat → Scan → Except Error (List Token)
  | 0, _ => .error .malformed
  | fuel + 1, s => do
    let s ← s.toToken
    match s.cursor.rest with
    | [] => do
      let s ← (s.closeBlocks fun _ => true).dropKey
      .ok s.tokens.toList
    | c :: rest => do
      let s ← s.token c rest
      run fuel s

end Scan

/-- The tokens of a text. -/
def Token.ofChars (cs : List Char) : Except Error (List Token) :=
  if cs.all isAdmissible then (Scan.start cs).run (cs.length + 1) else .error .malformed

end Verdict.Yaml
