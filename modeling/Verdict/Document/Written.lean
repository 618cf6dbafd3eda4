import Verdict.Value.Display

/-!
# Document/Written — values as documents

The written form is JSON in ASCII, with a blank after each comma and colon.  Values that JSON lacks
are written as texts, and doubles that are not finite as words.  `indented` puts each item on a line
of its own.
-/

namespace Verdict.Value

/-- Doubles of documents have words of their own for what is not finite. -/
def documentFloats : FloatLayout := { floats with nanText := "NaN", infinityText := "Infinity" }

/-- The written form of a value that is not a container. -/
def writeScalar : Value → Except Fault String
  | .null => .ok "null"
  | .bool b => .ok (if b then "true" else "false")
  | .int i => integerText i
  | .float x => .ok (documentFloats.text x)
  | .str s => .ok (quoteAscii s)
  | v => (plain v).map quoteAscii

mutual

/-- The written form of a value. -/
def write : Value → Except Fault String
  | .list _ items => do
    let parts ← writeItems items
    .ok ("[" ++ ", ".intercalate parts ++ "]")
  | .object _ fields => do
    let parts ← writeFields fields
    .ok ("\x7b" ++ ", ".intercalate parts ++ "\x7d")
  | .null => writeScalar .null
  | .bool b => writeScalar (.bool b)
  | .int i => writeScalar (.int i)
  | .float x => writeScalar (.float x)
  | .str s => writeScalar (.str s)
  | .date d => writeScalar (.date d)
  | .dateTime t => writeScalar (.dateTime t)

/-- The written items of a list. -/
def writeItems : List Value → Except Fault (List String)
  | [] => .ok []
  | v :: rest => do
    let text ← write v
    let texts ← writeItems rest
    .ok (text :: texts)

/-- The written fields of an object. -/
def writeFields : List (String × Value) → Except Fault (List String)
  | [] => .ok []
  | (k, v) :: rest => do
    let text ← write v
    let texts ← writeFields rest
    .ok ((quoteAscii k ++ ": " ++ text) :: texts)

end

/-- A line end followed by two blanks for each level. -/
def newLine (level : Nat) : String := "\n" ++ "".pushn ' ' (2 * level)

/-- Parts between brackets, each on a line of its own one level deeper; an empty container stays on
one line. -/
def block (level : Nat) (opening closing : String) (parts : List String) : String :=
  if parts.isEmpty then opening ++ closing
  else
    opening ++ newLine (level + 1) ++ ("," ++ newLine (level + 1)).intercalate parts ++
    newLine level ++ closing

mutual

/-- The written form over several lines, at a level of nesting. -/
def indented (level : Nat) : Value → Except Fault String
  | .list _ items => do
    let parts ← indentedItems (level + 1) items
    .ok (block level "[" "]" parts)
  | .object _ fields => do
    let parts ← indentedFields (level + 1) fields
    .ok (block level "\x7b" "\x7d" parts)
  | .null => writeScalar .null
  | .bool b => writeScalar (.bool b)
  | .int i => writeScalar (.int i)
  | .float x => writeScalar (.float x)
  | .str s => writeScalar (.str s)
  | .date d => writeScalar (.date d)
  | .dateTime t => writeScalar (.dateTime t)

/-- The written items of a list, over several lines. -/
def indentedItems (level : Nat) : List Value → Except Fault (List String)
  | [] => .ok []
  | v :: rest => do
    let text ← indented level v
    let texts ← indentedItems level rest
    .ok (text :: texts)

/-- The written fields of an object, over several lines. -/
def indentedFields (level : Nat) : List (String × Value) → Except Fault (List String)
  | [] => .ok []
  | (k, v) :: rest => do
    let text ← indented level v
    let texts ← indentedFields level rest
    .ok ((quoteAscii k ++ ": " ++ text) :: texts)

end

mutual

/-- The value that is read back from the written form: days and instants have become texts. -/
def asWritten : Value → Except Fault Value
  | .list m items => (asWrittenItems items).map (.list m)
  | .object m fields => (asWrittenFields fields).map (.object m)
  | .date d => (plain (.date d)).map .str
  | .dateTime t => (plain (.dateTime t)).map .str
  | .int i => (integerText i).map fun _ => .int i
  | .null => .ok .null
  | .bool b => .ok (.bool b)
  | .float x => .ok (.float x)
  | .str s => .ok (.str s)

/-- The items of a list as they are read back. -/
def asWrittenItems : List Value → Except Fault (List Value)
  | [] => .ok []
  | v :: rest => do
    let v ← asWritten v
    let vs ← asWrittenItems rest
    .ok (v :: vs)

/-- The fields of an object as they are read back. -/
def asWrittenFields : List (String × Value) → Except Fault (List (String × Value))
  | [] => .ok []
  | (k, v) :: rest => do
    let v ← asWritten v
    let fields ← asWrittenFields rest
    .ok ((k, v) :: fields)

end

end Verdict.Value
