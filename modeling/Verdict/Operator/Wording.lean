import Verdict.Like
import Verdict.Number.Numeral
import Verdict.Operator.Collection
import Verdict.Pattern.Literal
import Verdict.Text.LetterCase
import Verdict.Url

/-!
# Operator/Wording — texts, patterns and known formats
-/

namespace Verdict.Value

/-- Two texts of which a relation holds. -/
def texts (holds : String → String → Bool) (c v : Value) : Bool :=
  match c, v with
  | .str s, .str t => holds s t
  | _, _ => false

/-- A text of which a property holds. -/
def text (holds : String → Bool) : Value → Bool
  | .str s => holds s
  | _ => false

/-- A bound on lengths: a number, or a text that reads as a double. -/
def bound? : Value → Option Value
  | .str s => (readFloat? s).map .float
  | v => if v.isNumber then some v else none

/-- Whether a bound is at most a count. -/
def boundAtMost : Value → Int → Bool
  | .int i, n => decide (i ≤ n)
  | .float x, n => decide (x = .infinite true) || x.scaled?.any fun u => decide (u ≤ Binary64.scaleInt n)
  | _, _ => false

/-- Whether a bound is at least a count. -/
def boundAtLeast : Value → Int → Bool
  | .int i, n => decide (n ≤ i)
  | .float x, n => decide (x = .infinite false) || x.scaled?.any fun u => decide (Binary64.scaleInt n ≤ u)
  | _, _ => false

/-- A text whose length is between two bounds, ends included. -/
def lengthBetween (c v : Value) : Bool :=
  match c, v.pair? with
  | .str s, some (low, high) =>
    match bound? low, bound? high with
    | some low, some high => boundAtMost low s.length && boundAtLeast high s.length
    | _, _ => false
  | _, _ => false

/-- A text in which a pattern is found. -/
def matchesPattern (c v : Value) : Except Fault Bool :=
  match c, v with
  | .str s, .str pattern => Pattern.isFoundIn pattern s
  | _, _ => .ok false

/-- A text without capitals and with a letter from `a` to `z`. -/
def isLowerCase (s : String) : Bool := isLowerText s && s.toList.any fun c => 'a' ≤ c && c ≤ 'z'

/-- A text without small letters and with a letter from `A` to `Z`. -/
def isUpperCase (s : String) : Bool := isUpperText s && s.toList.any fun c => 'A' ≤ c && c ≤ 'Z'

end Verdict.Value
