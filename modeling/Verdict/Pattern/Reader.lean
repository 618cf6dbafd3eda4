import Verdict.Fault
import Verdict.Number.Numeral
import Verdict.Pattern.Syntax
import Verdict.Text.CharName
import Verdict.Text.Identifier

/-!
# Pattern/Reader — reading regular expressions

A pattern is read from left to right with one token of foresight.  Most mistakes make it
`malformed`; a few limits are faults of their own, and of two mistakes the first one met counts.

Mistakes that are only looked for once the whole pattern has been read (a look behind without a
fixed width, a condition on a group that never comes) are kept in `late`.
-/

namespace Verdict.Pattern

/-- Why a text is not a pattern. -/
inductive ReadError where
  | malformed
  | fault (f : Fault)
  deriving Repr

/-- A character of a pattern, or a character after a backslash. -/
inductive Token where
  | plain (c : Char)
  | escaped (c : Char)
  /-- A backslash that ends the pattern. -/
  | dangling
  deriving DecidableEq, Repr

/-- Split a pattern into tokens. -/
def tokens : List Char → List Token
  | [] => []
  | ['\\'] => [.dangling]
  | '\\' :: c :: rest => .escaped c :: tokens rest
  | c :: rest => .plain c :: tokens rest

/-- The characters of a token. -/
def Token.chars : Token → List Char
  | .plain c => [c]
  | .escaped c => ['\\', c]
  | .dangling => ['\\']

/-- What is known while a pattern is read. -/
structure Progress where
  /-- What is left to read. -/
  rest : List Token
  /-- The modes that hold for the whole pattern. -/
  mode : Mode
  /-- Unicode classes were asked for. -/
  unicode : Bool := false
  /-- Repetition is ruled out. -/
  plainOnly : Bool := false
  /-- The widths of the groups that have closed, by index from 1; missing for one still open. -/
  groups : List (Option Width) := []
  /-- The names of groups. -/
  names : List (String × Nat) := []
  /-- Inside a look behind: the number of groups opened before it. -/
  before : Option Nat := none
  /-- The groups that conditions ask for. -/
  asked : List Nat := []
  /-- A mistake that counts once all is read. -/
  late : Bool := false

/-- A reader of a part of a pattern. -/
abbrev Reading := StateT Progress (Except ReadError)

/-- The pattern is malformed. -/
def refuse {α : Type} : Reading α := throw .malformed

/-- The next token. -/
def peek : Reading (Option Token) := return (← get).rest.head?

/-- Drop the next token.  The pattern is malformed where a lone backslash comes into sight. -/
def advance : Reading Unit := do
  let p ← get
  match p.rest.drop 1 with
  | [.dangling] => refuse
  | rest => set { p with rest }

/-- Take the next token. -/
def takeToken : Reading (Option Token) := do
  let token ← peek
  if token.isSome then advance
  return token

/-- Take the next token if it is a given character. -/
def takeIf (c : Char) : Reading Bool := do
  if (← peek) = some (.plain c) then
    advance
    return true
  else return false

/-- Take up to `most` characters that pass a test. -/
def takeWhile (test : Char → Bool) : Nat → Reading (List Char)
  | 0 => return []
  | most + 1 => do
    match ← peek with
    | some (.plain c) =>
      if test c then
        advance
        return c :: (← takeWhile test most)
      else return []
    | _ => return []

/-- Take characters up to a closing one, which is dropped; there must be at least one. -/
def takeUntil (closing : Char) : Reading (List Char) := do
  let rec go : Nat → List Char → Reading (List Char)
    | 0, _ => refuse
    | fuel + 1, read => do
      match ← takeToken with
      | none => refuse
      | some token =>
        if token = .plain closing then
          if read.isEmpty then refuse else return read
        else go fuel (read ++ token.chars)
  go ((← get).rest.length + 1) []

/-- An octal digit. -/
def isOctal (c : Char) : Bool := '0' ≤ c && c ≤ '7'

/-- A hexadecimal digit. -/
def isHex (c : Char) : Bool := c.isDigit || ('a' ≤ c && c ≤ 'f') || ('A' ≤ c && c ≤ 'F')

/-- The number written by digits to a base of at most 16. -/
def numberOf (base : Nat) (cs : List Char) : Nat :=
  cs.foldl (fun n c =>
    base * n + (if c.isDigit then c.toNat - 48 else c.toLower.toNat - 87)) 0

/-- Exactly `count` hexadecimal digits. -/
def readHex (count : Nat) : Reading Nat := do
  let digits ← takeWhile isHex count
  if digits.length = count then return numberOf 16 digits else refuse

/-- A code point of eight hexadecimal digits.  Those of more than 31 bits are a fault. -/
def readLongCode : Reading Nat := do
  let code ← readHex 8
  if 0x80000000 ≤ code then throw (.fault .codePointTooLarge)
  else if 0x110000 ≤ code then refuse
  else return code

/-- A character by its name between braces. -/
def readNamed : Reading Nat := do
  if !(← takeIf '\x7b') then refuse
  let name ← takeUntil '\x7d'
  match codePointNamed? (String.ofList name) with
  | some code => return code
  | none => refuse

/-- A code point written with octal digits. -/
def octalCode (digits : List Char) : Reading Nat := do
  let code := numberOf 8 digits
  if 0o377 < code then refuse else return code

/-- The control characters that have letters. -/
def controlCode? : Char → Option Nat
  | 'a' => some 7
  | 'f' => some 12
  | 'n' => some 10
  | 'r' => some 13
  | 't' => some 9
  | 'v' => some 11
  | '\\' => some 92
  | _ => none

/-- The classes that have letters, a capital for the complement. -/
def category? : Char → Option SetItem
  | 'd' => some (.category .digit false)
  | 'D' => some (.category .digit true)
  | 's' => some (.category .space false)
  | 'S' => some (.category .space true)
  | 'w' => some (.category .word false)
  | 'W' => some (.category .word true)
  | _ => none

/-- The anchors that have letters. -/
def anchor? : Char → Option Anchor
  | 'A' => some .textStart
  | 'Z' => some .textEnd
  | 'b' => some .boundary
  | 'B' => some .notBoundary
  | _ => none

/-- The code point after a backslash, where it is neither a class nor a number of a group. -/
def readEscapedCode (c : Char) : Reading Nat := do
  match controlCode? c with
  | some code => return code
  | none =>
    if c = 'x' then readHex 2
    else if c = 'u' then readHex 4
    else if c = 'U' then readLongCode
    else if c = 'N' then readNamed
    else if c.isAlpha || c.isDigit then refuse
    else return c.toNat

/-! ## Sets -/

/-- A member of a set. -/
def readSetItem (token : Token) : Reading SetItem := do
  match token with
  | .plain c => return .single c.toNat
  | .dangling => refuse
  | .escaped c =>
    if let some item := category? c then return item
    if c = 'b' then return .single 8
    if isOctal c then
      return .single (← octalCode (c :: (← takeWhile isOctal 2)))
    return .single (← readEscapedCode c)

/-- The members of a set up to its bracket, after those read so far. -/
def readSetItems : Nat → List SetItem → Reading (List SetItem)
  | 0, _ => refuse
  | fuel + 1, read => do
    match ← takeToken with
    | none => refuse
    | some token =>
      if token = .plain ']' && !read.isEmpty then return read
      let item ← readSetItem token
      if ← takeIf '-' then
        match ← takeToken with
        | none => refuse
        | some (.plain ']') => return read ++ [item, .single '-'.toNat]
        | some token =>
          match item, ← readSetItem token with
          | .single low, .single high =>
            if high < low then refuse else readSetItems fuel (read ++ [.range low high])
          | _, _ => refuse
      else readSetItems fuel (read ++ [item])

/-- A set; its opening bracket has been taken. -/
def readSet (mode : Mode) : Reading Node := do
  let negated ← takeIf '^'
  let items ← readSetItems ((← get).rest.length + 1) []
  return .set mode negated items

/-! ## Groups by number and name -/

/-- The width of a group that has closed. -/
def closedWidth? (index : Nat) : Reading (Option Width) := do
  return ((← get).groups[index - 1]?).join

/-- Inside a look behind only groups closed before it may be asked for. -/
def checkBehind (index : Nat) : Reading Unit := do
  let p ← get
  if let some before := p.before then
    if (← closedWidth? index).isNone || before < index then refuse

/-- A reference to a group that has closed. -/
def readReference (mode : Mode) (index : Nat) : Reading (Node × Width) := do
  match ← closedWidth? index with
  | none => refuse
  | some width =>
    checkBehind index
    return (.reference mode index, width)

/-- The number of a group after a backslash, or a code point of three octal digits. -/
def readNumbered (mode : Mode) (c : Char) : Reading (Node × Width) := do
  let mut digits := [c]
  if let some (.plain d) := ← peek then
    if d.isDigit then
      advance
      digits := [c, d]
      if isOctal c && isOctal d then
        if let some (.plain e) := ← peek then
          if isOctal e then
            advance
            return (.char mode (← octalCode [c, d, e]), .one)
  readReference mode (numberOf 10 digits)

/-- What a backslash and a character stand for outside sets. -/
def readEscape (mode : Mode) (c : Char) : Reading (Node × Width) := do
  if let some a := anchor? c then return (.anchor mode a, .zero)
  if let some item := category? c then return (.set mode false [item], .one)
  if c = '0' then return (.char mode (numberOf 8 (c :: (← takeWhile isOctal 2))), .one)
  if c.isDigit then return ← readNumbered mode c
  return (.char mode (← readEscapedCode c), .one)

/-- Open a group; its index. -/
def openGroup (name : Option String) : Reading Nat := do
  let p ← get
  let index := p.groups.length + 1
  match name with
  | none => set { p with groups := p.groups ++ [none] }
  | some name =>
    if (p.names.lookup name).isSome then refuse
    else set { p with groups := p.groups ++ [none], names := (name, index) :: p.names }
  return index

/-- Close a group. -/
def closeGroup (index : Nat) (width : Width) : Reading Unit :=
  modify fun p => { p with groups := p.groups.set (index - 1) (some width) }

/-- The name of a group up to a closing character. -/
def readName (closing : Char) : Reading String := do
  let name ← takeUntil closing
  if isIdentifier name then return String.ofList name else refuse

/-- The group that a condition asks for, by name or by number. -/
def readCondition : Reading Nat := do
  let text ← takeUntil ')'
  let name := String.ofList text
  let index ←
    if isIdentifier text then
      match (← get).names.lookup name with
      | some index => pure index
      | none => refuse
    else
      match readInteger name with
      | .value (.ofNat n) =>
        if n = 0 || 2147483647 ≤ n then refuse
        else
          modify fun p => { p with asked := n :: p.asked }
          pure n
      | _ => refuse
  checkBehind index
  return index

/-! ## Modes -/

/-- Modes to turn on and off, by letter. -/
inductive Flag where
  | ignoreCase | multiline | dotAll | verbose | ascii | unicode | plainOnly
  deriving DecidableEq

/-- The mode of a letter. -/
def flag? : Char → Option Flag
  | 'i' => some .ignoreCase
  | 'm' => some .multiline
  | 's' => some .dotAll
  | 'x' => some .verbose
  | 'a' => some .ascii
  | 'u' => some .unicode
  | 't' => some .plainOnly
  | _ => none

/-- Modes that choose between kinds of classes. -/
def Flag.isClassKind (f : Flag) : Bool := f = .ascii || f = .unicode

/-- Turn modes on or off. -/
def Mode.turn (on : Bool) (mode : Mode) : Flag → Mode
  | .ignoreCase => { mode with ignoreCase := on }
  | .multiline => { mode with multiline := on }
  | .dotAll => { mode with dotAll := on }
  | .verbose => { mode with verbose := on }
  | .ascii => { mode with ascii := on }
  | .unicode => { mode with ascii := !on }
  | .plainOnly => mode

/-- The letters of modes to turn on; the character that ends them. -/
def readOn : Nat → List Flag → Char → Reading (List Flag × Char)
  | 0, _, _ => refuse
  | fuel + 1, on, c => do
    match flag? c with
    | none => refuse
    | some f =>
      let on := on ++ [f]
      if f.isClassKind && on.any (fun g => g.isClassKind && g ≠ f) then refuse
      match ← takeToken with
      | some (.plain c) => if c = ')' || c = '-' || c = ':' then return (on, c) else readOn fuel on c
      | _ => refuse

/-- The letters of modes to turn off, up to the colon. -/
def readOff : Nat → List Flag → Char → Reading (List Flag)
  | 0, _, _ => refuse
  | fuel + 1, off, c => do
    match flag? c with
    | none => refuse
    | some f =>
      if f.isClassKind then refuse
      match ← takeToken with
      | some (.plain ':') => return off ++ [f]
      | some (.plain c) => readOff fuel (off ++ [f]) c
      | _ => refuse

/-- What letters of modes after `(?` do: change the whole pattern, or the group that follows. -/
inductive ModeChange where
  | whole (on : List Flag)
  | inside (on off : List Flag)

/-- Letters of modes; the first has been taken. -/
def readModes (first : Char) : Reading ModeChange := do
  let fuel := (← get).rest.length + 1
  let (on, ending) ← if first = '-' then pure ([], '-') else readOn fuel [] first
  if ending = ')' then return .whole on
  if on.contains .plainOnly then refuse
  let off ←
    if ending = '-' then
      match ← takeToken with
      | some (.plain c) => readOff fuel [] c
      | _ => refuse
    else pure []
  if off.contains .plainOnly || on.any off.contains then refuse
  return .inside on off

/-- Turn modes on for the whole pattern. -/
def applyWhole (on : List Flag) : Reading Unit :=
  modify fun p =>
    { p with
      mode := on.foldl (fun mode f => if f = .unicode then mode else mode.turn true f) p.mode
      unicode := p.unicode || on.contains .unicode
      plainOnly := p.plainOnly || on.contains .plainOnly }

/-! ## Repetition -/

/-- The largest count of rounds, and one more than it. -/
def tooManyRounds : Nat := 4294967295

/-- A count of rounds. -/
def readCount (digits : List Char) : Reading Nat := do
  if maxIntegerDigits < digits.length then throw (.fault (.numeralTooLong digits.length))
  let n := numberOf 10 digits
  if tooManyRounds ≤ n then throw (.fault .repetitionTooLarge) else return n

/-- Bounds between braces; the opening brace has been taken.  A brace that opens no bounds stands
for itself, and nothing is taken. -/
def readBounds : Reading (Option (Nat × Option Nat)) := do
  let p ← get
  if (← peek) = some (.plain '\x7d') then return none
  let size := p.rest.length
  let low ← takeWhile Char.isDigit size
  let comma ← takeIf ','
  let high ← if comma then takeWhile Char.isDigit size else pure low
  if !(← takeIf '\x7d') then
    set p
    return none
  let fewest ← if low.isEmpty then pure 0 else readCount low
  if high.isEmpty then return some (fewest, none)
  let most ← readCount high
  if most < fewest then refuse
  return some (fewest, some most)

/-- How a repetition ends: lazily, possessively or greedily. -/
def readGreed : Reading Greed := do
  if ← takeIf '?' then return .lazy
  else if ← takeIf '+' then return .possessive
  else return .greedy

/-- An expression that may be repeated. -/
def isRepeatable : Node → Bool
  | .anchor .. | .times .. => false
  | _ => true

/-- Repeat the last of the nodes read so far, which come last first. -/
def repeatLast (fewest : Nat) (most : Option Nat) :
    List (Node × Width) → Reading (List (Node × Width))
  | [] => refuse
  | (node, width) :: before => do
    if !isRepeatable node then refuse
    let greed ← readGreed
    modify fun p => { p with late := p.late || p.plainOnly }
    return (.times fewest most greed node, width.times fewest most) :: before

/-- White space that the verbose mode skips. -/
def isSkipped (c : Char) : Bool := c = ' ' || (9 ≤ c.toNat && c.toNat ≤ 13)

/-- Skip a comment up to the end of its line. -/
def skipLine : Nat → Reading Unit
  | 0 => return ()
  | fuel + 1 => do
    match ← takeToken with
    | none | some (.plain '\n') => return ()
    | _ => skipLine fuel

/-- Skip a comment up to its parenthesis. -/
def skipComment : Nat → Reading Unit
  | 0 => refuse
  | fuel + 1 => do
    match ← takeToken with
    | none => refuse
    | some (.plain ')') => return ()
    | _ => skipComment fuel

/-- The closing parenthesis. -/
def closeParen : Reading Unit := do
  if !(← takeIf ')') then refuse

/-- Nodes read last first, as one node and its width. -/
def sequence (read : List (Node × Width)) : Node × Width :=
  (.seq (read.reverse.map Prod.fst), read.foldl (fun w x => w.add x.2) .zero)

/-- Note a look behind without a fixed width, or with one beyond all bounds. -/
def checkWidth (width : Width) : Reading Unit :=
  modify fun p =>
    { p with late := p.late || width.most ≠ some width.least || tooManyRounds < width.least }

/-! ## Expressions -/

mutual

/-- Alternatives.  Modes for the whole pattern may come first when it is `outermost`. -/
def readAlternatives : Nat → Bool → Mode → Reading (Node × Width)
  | 0, _, _ => refuse
  | fuel + 1, outermost, mode => do
    let first ← readSequence fuel outermost mode []
    if (← peek) = some (.plain '|') then
      let others ← readOthers fuel outermost mode
      let all := first :: others
      return (.alt (all.map Prod.fst), others.foldl (fun w x => w.union x.2) first.2)
    else return first

/-- The alternatives after the first. -/
def readOthers : Nat → Bool → Mode → Reading (List (Node × Width))
  | 0, _, _ => refuse
  | fuel + 1, outermost, mode => do
    if ← takeIf '|' then
      let whole := (← get).mode
      let mode := if outermost then whole else mode
      let branch ← readSequence fuel false mode []
      return branch :: (← readOthers fuel outermost mode)
    else return []

/-- A sequence, after the nodes read so far, last first. -/
def readSequence : Nat → Bool → Mode → List (Node × Width) → Reading (Node × Width)
  | 0, _, _, _ => refuse
  | fuel + 1, outermost, mode, read => do
    match ← peek with
    | none | some .dangling | some (.plain '|') | some (.plain ')') => return sequence read
    | some (.escaped c) =>
      advance
      let item ← readEscape mode c
      readSequence fuel outermost mode (item :: read)
    | some (.plain c) =>
      advance
      if mode.verbose && isSkipped c then readSequence fuel outermost mode read
      else if mode.verbose && c = '#' then
        skipLine ((← get).rest.length + 1)
        readSequence fuel outermost mode read
      else
        match c with
        | '[' =>
          let item ← readSet mode
          readSequence fuel outermost mode ((item, .one) :: read)
        | '.' => readSequence fuel outermost mode ((.any mode, .one) :: read)
        | '^' => readSequence fuel outermost mode ((.anchor mode .start, .zero) :: read)
        | '$' => readSequence fuel outermost mode ((.anchor mode .finish, .zero) :: read)
        | '?' => readSequence fuel outermost mode (← repeatLast 0 (some 1) read)
        | '*' => readSequence fuel outermost mode (← repeatLast 0 none read)
        | '+' => readSequence fuel outermost mode (← repeatLast 1 none read)
        | '\x7b' =>
          match ← readBounds with
          | some (fewest, most) =>
            readSequence fuel outermost mode (← repeatLast fewest most read)
          | none => readSequence fuel outermost mode ((.char mode c.toNat, .one) :: read)
        | '(' =>
          if ← takeIf '?' then readExtension fuel outermost mode read
          else
            let item ← readCapture fuel mode none
            readSequence fuel outermost mode (item :: read)
        | _ => readSequence fuel outermost mode ((.char mode c.toNat, .one) :: read)

/-- A group that captures. -/
def readCapture : Nat → Mode → Option String → Reading (Node × Width)
  | 0, _, _ => refuse
  | fuel + 1, mode, name => do
    let index ← openGroup name
    let (body, width) ← readAlternatives fuel false mode
    closeParen
    closeGroup index width
    return (.capture index body, width)

/-- A look ahead or behind. -/
def readLook : Nat → Mode → Bool → Bool → Reading (Node × Width)
  | 0, _, _, _ => refuse
  | fuel + 1, mode, behind, negated => do
    let before := (← get).before
    if behind && before.isNone then
      modify fun p => { p with before := some p.groups.length }
    let (body, width) ← readAlternatives fuel false mode
    if behind then
      modify fun p => { p with before }
      checkWidth width
    closeParen
    return (.look (if behind then some width.least else none) negated body, .zero)

/-- A choice by whether a group has captured. -/
def readConditional : Nat → Mode → Reading (Node × Width)
  | 0, _ => refuse
  | fuel + 1, mode => do
    let index ← readCondition
    let (yes, yesWidth) ← readSequence fuel false mode []
    if ← takeIf '|' then
      let (no, noWidth) ← readSequence fuel false mode []
      closeParen
      return (.conditional index yes no, yesWidth.union noWidth)
    else
      closeParen
      return (.conditional index yes (.seq []), ⟨0, yesWidth.most⟩)

/-- What follows `(?`, and the rest of the sequence. -/
def readExtension : Nat → Bool → Mode → List (Node × Width) → Reading (Node × Width)
  | 0, _, _, _ => refuse
  | fuel + 1, outermost, mode, read => do
    match ← takeToken with
    | some (.plain 'P') =>
      if ← takeIf '<' then
        let name ← readName '>'
        let item ← readCapture fuel mode (some name)
        readSequence fuel outermost mode (item :: read)
      else if ← takeIf '=' then
        let name ← readName ')'
        match (← get).names.lookup name with
        | none => refuse
        | some index =>
          let item ← readReference mode index
          readSequence fuel outermost mode (item :: read)
      else refuse
    | some (.plain ':') =>
      let (body, width) ← readAlternatives fuel false mode
      closeParen
      readSequence fuel outermost mode ((.group body, width) :: read)
    | some (.plain '#') =>
      skipComment ((← get).rest.length + 1)
      readSequence fuel outermost mode read
    | some (.plain '=') =>
      let item ← readLook fuel mode false false
      readSequence fuel outermost mode (item :: read)
    | some (.plain '!') =>
      let item ← readLook fuel mode false true
      readSequence fuel outermost mode (item :: read)
    | some (.plain '<') =>
      match ← takeToken with
      | some (.plain '=') =>
        let item ← readLook fuel mode true false
        readSequence fuel outermost mode (item :: read)
      | some (.plain '!') =>
        let item ← readLook fuel mode true true
        readSequence fuel outermost mode (item :: read)
      | _ => refuse
    | some (.plain '(') =>
      let item ← readConditional fuel mode
      readSequence fuel outermost mode (item :: read)
    | some (.plain '>') =>
      let (body, width) ← readAlternatives fuel false mode
      closeParen
      readSequence fuel outermost mode ((.atomic body, width) :: read)
    | some (.plain c) =>
      match ← readModes c with
      | .whole on =>
        if !outermost || !read.isEmpty then refuse
        applyWhole on
        readSequence fuel outermost (← get).mode read
      | .inside on off =>
        let inner := off.foldl (Mode.turn false) (on.foldl (Mode.turn true) mode)
        let (body, width) ← readAlternatives fuel false inner
        closeParen
        readSequence fuel outermost mode ((.group body, width) :: read)
    | _ => refuse

end

/-- Read a whole pattern. -/
def readWhole (mode : Mode) : Reading Node := do
  let size := (← get).rest.length
  let (node, _) ← readAlternatives (4 * size + 8) true mode
  let p ← get
  if p.mode.ascii && p.unicode then throw (.fault .classesClash)
  if !p.rest.isEmpty then refuse
  if p.late || p.asked.any (p.groups.length < ·) then refuse
  return node

/-- Read a pattern under some modes. -/
def ofText (mode : Mode) (s : String) : Except ReadError Node :=
  match tokens s.toList with
  | [.dangling] => .error .malformed
  | rest => (readWhole mode).run' { rest, mode }

end Verdict.Pattern
