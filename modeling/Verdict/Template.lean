import Verdict.Document.Written
import Verdict.Path.Resolve

/-!
# Template — messages with paths in them

A message may hold paths that start with `$.` or `$[`.  Each is replaced by the text of what it
leads to; a path that leads nowhere stays as it is.  Replacement goes from expression to expression,
each time at the first place where the expression's text now stands.
-/

namespace Verdict

/-- A value as text, the way it reads in a document: texts bare, lists as their items with commas. -/
def Value.readable : Value → Except Fault String
  | .null => .ok "null"
  | .bool b => .ok (if b then "true" else "false")
  | .list _ items => (readableItems items).map ",".intercalate
  | .object mark fields => (Value.object mark fields).write
  | .int i => (Value.int i).plain
  | .float x => (Value.float x).plain
  | .str s => .ok s
  | .date d => (Value.date d).plain
  | .dateTime t => (Value.dateTime t).plain
where
  /-- The texts of items. -/
  readableItems : List Value → Except Fault (List String)
    | [] => .ok []
    | v :: rest => do
      let text ← v.readable
      let texts ← readableItems rest
      .ok (text :: texts)

namespace Template

/-- A character of the front part of an expression. -/
def isPathChar (c : Char) : Bool := !(isBlank c || c = ',' || c = '(' || c = ')')

/-- A group between brackets or parentheses without others inside, and what follows it. -/
def readGroup? : List Char → Option (List Char × List Char)
  | '[' :: rest => close '[' ']' rest
  | '(' :: rest => close '(' ')' rest
  | _ => none
where
  /-- The group up to its closing character. -/
  close (opening closing : Char) (rest : List Char) : Option (List Char × List Char) :=
    let isInner (c : Char) : Bool := c != opening && c != closing
    match rest.dropWhile isInner with
    | c :: after => if c = closing then some (opening :: rest.takeWhile isInner ++ [c], after) else none
    | [] => none

/-- All groups in a row, and what follows them; `fuel` bounds their number. -/
def readGroups : Nat → List Char → List Char × List Char
  | 0, cs => ([], cs)
  | fuel + 1, cs =>
    match readGroup? cs with
    | some (group, rest) =>
      let (groups, rest) := readGroups fuel rest
      (group ++ groups, rest)
    | none => ([], cs)

/-- The raw expressions of a text from left to right, each from a dollar sign on. -/
def rawExpressions : Nat → List Char → List (List Char)
  | 0, _ => []
  | _ + 1, [] => []
  | fuel + 1, c :: rest =>
    let front := rest.takeWhile isPathChar
    if c = '$' && !front.isEmpty then
      let (groups, after) := readGroups (rest.length + 1) (rest.dropWhile isPathChar)
      (c :: front ++ groups) :: rawExpressions fuel after
    else rawExpressions fuel rest

/-- Cut a text before its last closing character while there are more closing than opening ones;
`fuel` bounds the cuts. -/
def balance (opening closing : Char) : Nat → List Char → List Char
  | 0, cs => cs
  | fuel + 1, cs =>
    if cs.count opening < cs.count closing then
      balance opening closing fuel ((cs.reverse.dropWhile (· ≠ closing)).drop 1).reverse
    else cs

/-- An expression without what only looks like a part of it. -/
def trim (cs : List Char) : List Char :=
  let cs := balance '(' ')' (cs.length + 1) cs
  let cs := balance '[' ']' (cs.length + 1) cs
  (cs.reverse.dropWhile (· = '.')).reverse

/-- A text that starts like a path from the root. -/
def startsLikePath : List Char → Bool
  | '$' :: '.' :: _ | '$' :: '[' :: _ => true
  | _ => false

/-- The expressions of a text, from left to right. -/
def expressions (s : String) : List String :=
  (((rawExpressions (s.length + 1) s.toList).map trim).filter startsLikePath).map String.ofList

/-- Replace the first occurrence of a text by another. -/
def replaceFirst (old new : List Char) : List Char → List Char
  | [] => if old.isEmpty then new else []
  | c :: rest =>
    if old.isPrefixOf (c :: rest) then new ++ (c :: rest).drop old.length
    else c :: replaceFirst old new rest

/-- Replace one expression by what it leads to. -/
def fillOne (context : Value) (text expression : String) : Except Fault String := do
  match ← Path.resolve expression context with
  | none => .ok text
  | some v =>
    let new ← v.readable
    .ok (String.ofList (replaceFirst expression.toList new.toList text.toList))

/-- Replace every expression of a message by what it leads to. -/
def fill (s : String) (context : Value) : Except Fault String :=
  (expressions s).foldlM (fillOne context) s

/-- Whether a message may hold an expression. -/
def mayHoldPath (s : String) : Bool :=
  let rec go : List Char → Bool
    | '$' :: '.' :: _ => true
    | _ :: rest => go rest
    | [] => false
  go s.toList

end Template

end Verdict
