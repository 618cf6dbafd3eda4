import Verdict.Number.Numeral
import Verdict.Value.Basic

/-!
# Operator/Sort — what sort of value a field has

A field that is missing has the value `missing`, a text like any other; so a field that holds this
very text counts as missing too.
-/

namespace Verdict.Value

/-- What a missing field reads as. -/
def missing : Value := .str "undefined"

/-- The text of a missing field. -/
def isMissing : Value → Bool
  | .str s => s == "undefined"
  | _ => false

/-- Missing or null. -/
def isAbsent (c : Value) : Bool := c.isNull || c.isMissing

/-- A text. -/
def isText : Value → Bool
  | .str _ => true
  | _ => false

/-- A list. -/
def isList : Value → Bool
  | .list .. => true
  | _ => false

/-- An object. -/
def isObject : Value → Bool
  | .object .. => true
  | _ => false

/-- A truth value. -/
def isBoolean : Value → Bool
  | .bool _ => true
  | _ => false

/-- A number without a fractional part. -/
def isInteger : Value → Bool
  | .int _ => true
  | .float x => x.isWhole
  | _ => false

/-- The sign of a number: negative, zero or positive. -/
def sign? (c : Value) : Option Int := c.scaled?.map Int.sign

/-- A number, or a text that reads as a finite one. -/
def isNumeric : Value → Bool
  | .str s =>
    match readInteger s with
    | .value _ => true
    | _ => (readFloat? s).any Binary64.isFinite
  | c => c.isNumber

/-- One of the given texts. -/
def isOneOf (words : List String) : Value → Bool
  | .str s => words.contains s
  | _ => false

/-- The number zero or one. -/
def isZeroOrOne (c : Value) : Bool :=
  c.scaled? == some 0 || c.scaled? == some (Binary64.scaleInt 1)

/-- What counts as true in a document: lists and objects always do; what is missing, null, false,
zero, not a number or an empty text does not. -/
def countsAsTrue (c : Value) : Bool :=
  match c with
  | .list .. | .object .. => true
  | .float .nan => false
  | c => !c.isMissing && c.isTruthy

/-- Absent, or without any character, item or field. -/
def isEmpty : Value → Bool
  | .str s => s == "" || s == "undefined"
  | .list _ items => items.isEmpty
  | .object _ fields => fields.isEmpty
  | c => c.isNull

/-- Absent, or a text of white space. -/
def isBlankOrAbsent (c : Value) : Bool :=
  c.isAbsent ||
  match c with
  | .str s => isBlankText s
  | _ => false

end Verdict.Value
