/-!
# Fault — why a computation on values can stop

Deciding a rule does not stop on data that merely fails to match.  What remains are limits: of
integers as text, of doubles, of the calendar and of patterns, and transforms applied to values
they do not accept.
-/

namespace Verdict

/-- The cause of a computation that stopped. -/
inductive Fault where
  /-- An integer too long to be written. -/
  | integerTooLong
  /-- A numeral of so many digits, too long to be read. -/
  | numeralTooLong (digits : Nat)
  /-- An integer beyond the range of doubles. -/
  | integerBeyondDoubles
  /-- An instant whose day in universal time is outside the calendar. -/
  | instantBeyondCalendar
  /-- A repetition count of a pattern beyond the admissible ones. -/
  | repetitionTooLarge
  /-- A code point of a pattern that does not fit 31 bits. -/
  | codePointTooLarge
  /-- A pattern that asks for ASCII and for Unicode classes at once. -/
  | classesClash
  /-- A transform applied to a value of a kind it does not accept. -/
  | wrongKind
  /-- A transform that gave up with a message. -/
  | gaveUp (message : String)
  deriving DecidableEq, Repr

namespace Fault

/-- The wording of a fault. -/
def message : Fault → String
  | .integerTooLong =>
    "Exceeds the limit (4300 digits) for integer string conversion; " ++
    "use sys.set_int_max_str_digits() to increase the limit"
  | .numeralTooLong digits =>
    "Exceeds the limit (4300 digits) for integer string conversion: value has " ++
    toString digits ++ " digits; use sys.set_int_max_str_digits() to increase the limit"
  | .integerBeyondDoubles => "int too large to convert to float"
  | .instantBeyondCalendar => "date value out of range"
  | .repetitionTooLarge => "the repetition number is too large"
  | .codePointTooLarge => "code point too large"
  | .classesClash => "ASCII and UNICODE flags are incompatible"
  | .wrongKind => "unsupported operand"
  | .gaveUp message => message

end Fault

end Verdict
