import Verdict.Pattern.Literal

/-!
# Like — patterns with wildcards

In a LIKE pattern a percent sign stands for any run of characters and an underscore for any single
one; a backslash makes the next character stand for itself.  A pattern is rewritten as a regular
expression, element by element, which must match the text as a whole.  Its dot, and with it a
wildcard, matches no line end.
-/

namespace Verdict.Like

/-- One element of a pattern. -/
inductive Element where
  | literal (c : Char)
  /-- Any single character. -/
  | one
  /-- Any run of characters. -/
  | run
  deriving DecidableEq, Repr

/-- Read a pattern.  A backslash at the end stands for itself. -/
def elements : List Char → List Element
  | [] => []
  | '\\' :: c :: rest => .literal c :: elements rest
  | '%' :: rest => .run :: elements rest
  | '_' :: rest => .one :: elements rest
  | c :: rest => .literal c :: elements rest

/-- The characters that a regular expression may give a meaning. -/
def specials : List Char := "()[]\x7b\x7d?*+-|^$\\.&~# \t\n\r\x0b\x0c".toList

/-- The regular expression of an element. -/
def Element.expression : Element → List Char
  | .literal c => if c ∈ specials then ['\\', c] else [c]
  | .one => ['.']
  | .run => ['.', '*']

/-- The regular expression of a pattern. -/
def expression (pattern : String) : String :=
  String.ofList ((elements pattern.toList).flatMap Element.expression)

/-- Whether a text is like a written pattern. -/
def isLike (s pattern : String) : Bool := (Pattern.Format.ofText {} (expression pattern)).fits s

example : isLike "ann@example.com" "%@example.com" = true := by decide +kernel
example : isLike "a_c" "a\\_c" = true := by decide +kernel
example : isLike "a\nc" "a%c" = false := by decide +kernel

end Verdict.Like
