import Verdict.Pattern.Match
import Verdict.Pattern.Reader

/-!
# Pattern/Literal — patterns as rules write them

A rule writes a pattern bare, or between slashes with letters for modes behind the second one: `i`
ignores case, `m` looks at lines, `s` lets the dot match line ends, and other letters do nothing.
An empty pattern counts as none.
-/

namespace Verdict.Pattern

/-- Split `/body/letters` at its last slash; a line end after the letters is dropped. -/
def splitLiteral? (cs : List Char) : Option (List Char × List Char) :=
  let isLetter (c : Char) : Bool := 'a' ≤ c && c ≤ 'z'
  let reversed := match cs.reverse with
    | '\n' :: rest => rest
    | rest => rest
  match cs, reversed.dropWhile isLetter with
  | '/' :: _, '/' :: before =>
    if before.isEmpty then none
    else some (before.reverse.drop 1, (reversed.takeWhile isLetter).reverse)
  | _, _ => none

/-- The mode of a letter behind a pattern. -/
def Mode.ofLetter (mode : Mode) (c : Char) : Mode :=
  if c = 'i' then { mode with ignoreCase := true }
  else if c = 'm' then { mode with multiline := true }
  else if c = 's' then { mode with dotAll := true }
  else mode

/-- Read a pattern as a rule writes it; none when it is empty or malformed. -/
def compile? (s : String) : Except Fault (Option Node) :=
  let (body, mode) :=
    match splitLiteral? s.toList with
    | some (body, letters) => (String.ofList body, letters.foldl Mode.ofLetter {})
    | none => (s, {})
  if body = "" then .ok none
  else
    match ofText mode body with
    | .ok node => .ok (some node)
    | .error .malformed => .ok none
    | .error (.fault f) => .error f

/-- Whether a pattern is found in a text; one that is no pattern is found nowhere. -/
def isFoundIn (pattern s : String) : Except Fault Bool :=
  (compile? pattern).map fun node => node.any (isFound · s)

/-- A known format: a pattern that texts must match as a whole. -/
structure Format where
  node : Option Node

/-- The format of a pattern. -/
def Format.ofText (mode : Mode) (pattern : String) : Format := ⟨(Pattern.ofText mode pattern).toOption⟩

/-- Whether a text has a format. -/
def Format.fits (f : Format) (s : String) : Bool := f.node.any (isWhole · s)

/-- Formats that do not look at case. -/
def Format.caseless (pattern : String) : Format := .ofText { ignoreCase := true } pattern

/-- An electronic mail address. -/
def email : Format := .caseless "^[\\w.%+-]+@[a-z0-9.-]+\\.[a-z]\x7b2,\x7d$"

/-- A universally unique identifier of versions 1 to 5. -/
def uuid : Format := .caseless
  "^[0-9a-f]\x7b8\x7d-[0-9a-f]\x7b4\x7d-[1-5][0-9a-f]\x7b3\x7d-[89ab][0-9a-f]\x7b3\x7d-[0-9a-f]\x7b12\x7d$"

/-- Latin letters. -/
def letters : Format := .caseless "^[a-z]+$"

/-- Latin letters and digits. -/
def lettersAndDigits : Format := .caseless "^[a-z0-9]+$"

/-- Characters of the Arabic block and white space. -/
def persian : Format := .ofText {} "^[\\u0600-\\u06FF\\s]+$"

/-- Characters of the Arabic block, white space and ASCII digits. -/
def persianAndDigits : Format := .ofText {} "^[\\u0600-\\u06FF\\s0-9]+$"

end Verdict.Pattern
