import Verdict.Document.Yaml.Scalar
import Verdict.Document.Yaml.Token

/-!
# Document/Yaml — reading YAML

A document is made of block lists and mappings, flow lists and mappings, and scalars.  Directives,
tags, references and literal blocks are not read.  An item, a key or a value that is left out is
`null`.  Of fields with one name the last counts, at the place of the first; a key that is no text is
named by its JSON form.

Nesting is bounded by the number of tokens, which the readers take as fuel.
-/

namespace Verdict.Yaml

open Document (Error)

/-- A reader takes something off the front of the tokens. -/
abbrev Reader (α : Type) := List Token → Except Error (α × List Token)

/-- The value of a scalar. -/
def scalarValue (quoted : Bool) (text : String) : Except Error Value :=
  if quoted then .ok (.str text) else plainValue text

/-- The name of a field.  A list or a mapping is none. -/
def fieldName (v : Value) : Except Error String :=
  match v with
  | .str s => .ok s
  | .list .. | .object .. => .error .malformed
  | v => v.write.mapError Error.limit

/-- Whether a key or a value is left out in a block mapping before a token. -/
def endsField (ts : List Token) : Bool :=
  match ts with
  | .key :: _ | .value :: _ | .blockEnd :: _ => true
  | _ => false

/-- Whether an item is left out before a token. -/
def endsItem (ts : List Token) : Bool :=
  match ts with
  | .item :: _ | .blockEnd :: _ => true
  | _ => false

/-- Whether a key or a value is left out in a flow collection before a token. -/
def endsPart (ts : List Token) : Bool :=
  match ts with
  | .value :: _ | .comma :: _ | .flowListEnd :: _ | .flowMappingEnd :: _ => true
  | _ => false

mutual

/-- A node.  Only inside blocks may it be a block, and as a part of a field also a list whose items
stand as far in as the key. -/
def readNode (inBlock isPart : Bool) : Nat → Reader Value
  | 0, _ => .error .malformed
  | fuel + 1, ts =>
    match ts with
    | .scalar quoted text :: rest => (scalarValue quoted text).map fun v => (v, rest)
    | .flowList :: rest => readFlowItems fuel true [] rest
    | .flowMapping :: rest => readFlowFields fuel true [] rest
    | .item :: rest => if isPart then readItems fuel false [] (.item :: rest) else .error .malformed
    | .blockList :: rest => if inBlock then readItems fuel true [] rest else .error .malformed
    | .blockMapping :: rest => if inBlock then readFields fuel [] rest else .error .malformed
    | _ => .error .malformed

/-- The items of a block list, up to its end where it is `closed` by one, onto those read so far,
last first. -/
def readItems : Nat → (closed : Bool) → List Value → Reader Value
  | 0, _, _, _ => .error .malformed
  | fuel + 1, closed, read, ts =>
    match ts with
    | .item :: rest =>
      if endsItem rest || (!closed && endsField rest) then readItems fuel closed (.null :: read) rest
      else do
        let (v, rest) ← readNode true false fuel rest
        readItems fuel closed (v :: read) rest
    | rest =>
      if closed then
        match rest with
        | .blockEnd :: rest => .ok (.ofItems read.reverse, rest)
        | _ => .error .malformed
      else .ok (.ofItems read.reverse, rest)

/-- A key or a value of a block mapping. -/
def readPart : Nat → Reader Value
  | 0, _ => .error .malformed
  | fuel + 1, ts => if endsField ts then .ok (.null, ts) else readNode true true fuel ts

/-- The fields of a block mapping up to its end, onto those read so far, last first. -/
def readFields : Nat → List (String × Value) → Reader Value
  | 0, _, _ => .error .malformed
  | fuel + 1, read, ts =>
    match ts with
    | .key :: rest => do
      let (k, rest) ← readPart fuel rest
      let name ← fieldName k
      match rest with
      | .value :: rest => do
        let (v, rest) ← readPart fuel rest
        readFields fuel ((name, v) :: read) rest
      | rest => readFields fuel ((name, .null) :: read) rest
    | .blockEnd :: rest => .ok (.ofPairs read.reverse, rest)
    | _ => .error .malformed

/-- A key or a value of a flow collection. -/
def readFlowPart : Nat → Reader Value
  | 0, _ => .error .malformed
  | fuel + 1, ts => if endsPart ts then .ok (.null, ts) else readNode false false fuel ts

/-- A field of a flow collection, after its key token. -/
def readFlowField : Nat → Reader (String × Value)
  | 0, _ => .error .malformed
  | fuel + 1, ts => do
    let (k, rest) ← readFlowPart fuel ts
    let name ← fieldName k
    match rest with
    | .value :: rest => do
      let (v, rest) ← readFlowPart fuel rest
      .ok ((name, v), rest)
    | rest => .ok ((name, .null), rest)

/-- The items of a flow list up to its bracket, onto those read so far, last first.  A field is a
mapping of its own. -/
def readFlowItems : Nat → (first : Bool) → List Value → Reader Value
  | 0, _, _, _ => .error .malformed
  | fuel + 1, first, read, ts =>
    match first, ts with
    | _, .flowListEnd :: rest => .ok (.ofItems read.reverse, rest)
    | false, .comma :: .flowListEnd :: rest => .ok (.ofItems read.reverse, rest)
    | false, .comma :: .key :: rest | true, .key :: rest => do
      let (field, rest) ← readFlowField fuel rest
      readFlowItems fuel false (.ofFields [field] :: read) rest
    | false, .comma :: rest | true, rest => do
      let (v, rest) ← readNode false false fuel rest
      readFlowItems fuel false (v :: read) rest
    | false, _ => .error .malformed

/-- The fields of a flow mapping up to its brace, onto those read so far, last first.  A value on its
own is a key. -/
def readFlowFields : Nat → (first : Bool) → List (String × Value) → Reader Value
  | 0, _, _, _ => .error .malformed
  | fuel + 1, first, read, ts =>
    match first, ts with
    | _, .flowMappingEnd :: rest => .ok (.ofPairs read.reverse, rest)
    | false, .comma :: .flowMappingEnd :: rest => .ok (.ofPairs read.reverse, rest)
    | false, .comma :: .key :: rest | true, .key :: rest => do
      let (field, rest) ← readFlowField fuel rest
      readFlowFields fuel false (field :: read) rest
    | false, .comma :: rest | true, rest => do
      let (k, rest) ← readNode false false fuel rest
      let name ← fieldName k
      readFlowFields fuel false ((name, .null) :: read) rest
    | false, _ => .error .malformed

end

/-- Read the content of a document, which may be left out after a marker. -/
def readContent (marked : Bool) (ts : List Token) : Except Error (Value × List Token) :=
  match marked, ts with
  | _, [] => .ok (.null, [])
  | true, .documentStart :: _ | true, .documentEnd :: _ => .ok (.null, ts)
  | _, ts => readNode true false (2 * ts.length + 2) ts

/-- The value of a text's tokens.  A second document is not accepted. -/
def ofTokens (ts : List Token) : Except Error Value := do
  let (v, rest) ←
    match ts with
    | .documentStart :: rest => readContent true rest
    | ts => readContent false ts
  if rest.all (· = .documentEnd) then .ok v else .error .malformed

/-- Read a whole text. -/
def ofText (s : String) : Except Error Value := (Token.ofChars s.toList).bind ofTokens

end Verdict.Yaml
