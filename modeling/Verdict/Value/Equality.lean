import Verdict.Value.Basic

/-!
# Value/Equality — when two values are equal

* `equal` compares values of one kind: numbers by their exact magnitude, lists item by item,
  objects by their sets of names and field by field.  Values of different kinds are never equal.
* `loosely` also counts a truth value as the number zero or one.  It tells apart names that a list
  may hold only once.

Neither looks at marks.
-/

namespace Verdict.Value

/-- Whether both lists of fields have the same names. -/
def sameNames (fs gs : List (String × Value)) : Bool :=
  (fs.all fun f => (Entries.find? f.1 gs).isSome) && gs.all fun g => (Entries.find? g.1 fs).isSome

/-- Equality of numbers, by exact magnitude. -/
def equalNumbers : Value → Value → Bool
  | .int i, .int j => i == j
  | .int i, .float (.finite s u) => Binary64.scaleInt i == Binary64.scaled s u
  | .float (.finite s u), .int i => Binary64.scaled s u == Binary64.scaleInt i
  | .float x, .float y => x.equal y
  | _, _ => false

mutual

/-- Equality of values of one kind. -/
def equal : Value → Value → Bool
  | .null, .null => true
  | .bool a, .bool b => a == b
  | .str s, .str t => s == t
  | .date d, .date e => d == e
  | .dateTime t, .dateTime u => t.equal u
  | .list _ xs, .list _ ys => equalItems xs ys
  | .object _ fs, .object _ gs => sameNames fs gs && equalFields fs gs
  | .int i, w => equalNumbers (.int i) w
  | .float x, w => equalNumbers (.float x) w
  | _, _ => false

/-- Equality of lists, item by item. -/
def equalItems : List Value → List Value → Bool
  | [], [] => true
  | x :: xs, y :: ys => equal x y && equalItems xs ys
  | _, _ => false

/-- Every field has an equal field of its name in the other object. -/
def equalFields : List (String × Value) → List (String × Value) → Bool
  | [], _ => true
  | (k, v) :: rest, gs =>
    (match Entries.find? k gs with
      | some w => equal v w
      | none => false) && equalFields rest gs

end

/-- Whether some item equals the needle. -/
def contains (items : List Value) (needle : Value) : Bool :=
  items.any fun item => equal item needle

/-- A truth value as a number, any other value as it is. -/
def asNumber : Value → Value
  | .bool b => .int (if b then 1 else 0)
  | v => v

mutual

/-- Equality that counts truth values as zero and one. -/
def loosely : Value → Value → Bool
  | .null, .null => true
  | .str s, .str t => s == t
  | .date d, .date e => d == e
  | .dateTime t, .dateTime u => t.equal u
  | .list _ xs, .list _ ys => looselyItems xs ys
  | .object _ fs, .object _ gs => sameNames fs gs && looselyFields fs gs
  | .bool b, w => equalNumbers (asNumber (.bool b)) (asNumber w)
  | .int i, w => equalNumbers (.int i) (asNumber w)
  | .float x, w => equalNumbers (.float x) (asNumber w)
  | _, _ => false

/-- Loose equality of lists, item by item. -/
def looselyItems : List Value → List Value → Bool
  | [], [] => true
  | x :: xs, y :: ys => loosely x y && looselyItems xs ys
  | _, _ => false

/-- Every field has a loosely equal field of its name in the other object. -/
def looselyFields : List (String × Value) → List (String × Value) → Bool
  | [], _ => true
  | (k, v) :: rest, gs =>
    (match Entries.find? k gs with
      | some w => loosely v w
      | none => false) && looselyFields rest gs

end

example : equal (.int 1) (.float (.finite false Binary64.unitsPerOne)) = true := by decide +kernel
example : equal (.bool true) (.int 1) = false := rfl
example : loosely (.bool true) (.int 1) = true := by decide

end Verdict.Value
