import Verdict.Text.LetterCase

/-!
# Pattern/Fold — characters that are alike but for their case

Two characters are alike when their small letters are the same or share a capital.  `alike c` lists
the small letters that a character is compared with, `sharing` the characters with a given small
letter.
-/

namespace Verdict.Pattern

/-- Small letters and the other small letters that have the same capital. -/
def kinLetters : List (Nat × List Nat) := [
  (0x69, [0x131]), (0x73, [0x17f]), (0xb5, [0x3bc]), (0x131, [0x69]), (0x17f, [0x73]), (0x345,
  [0x3b9, 0x1fbe]), (0x390, [0x1fd3]), (0x3b0, [0x1fe3]), (0x3b2, [0x3d0]), (0x3b5, [0x3f5]),
  (0x3b8, [0x3d1]), (0x3b9, [0x345, 0x1fbe]), (0x3ba, [0x3f0]), (0x3bc, [0xb5]), (0x3c0,
  [0x3d6]), (0x3c1, [0x3f1]), (0x3c2, [0x3c3]), (0x3c3, [0x3c2]), (0x3c6, [0x3d5]), (0x3d0,
  [0x3b2]), (0x3d1, [0x3b8]), (0x3d5, [0x3c6]), (0x3d6, [0x3c0]), (0x3f0, [0x3ba]), (0x3f1,
  [0x3c1]), (0x3f5, [0x3b5]), (0x432, [0x1c80]), (0x434, [0x1c81]), (0x43e, [0x1c82]), (0x441,
  [0x1c83]), (0x442, [0x1c84, 0x1c85]), (0x44a, [0x1c86]), (0x463, [0x1c87]), (0x1c80, [0x432]),
  (0x1c81, [0x434]), (0x1c82, [0x43e]), (0x1c83, [0x441]), (0x1c84, [0x442, 0x1c85]), (0x1c85,
  [0x442, 0x1c84]), (0x1c86, [0x44a]), (0x1c87, [0x463]), (0x1c88, [0xa64b]), (0x1e61,
  [0x1e9b]), (0x1e9b, [0x1e61]), (0x1fbe, [0x345, 0x3b9]), (0x1fd3, [0x390]), (0x1fe3, [0x3b0]),
  (0xa64b, [0x1c88]), (0xfb05, [0xfb06]), (0xfb06, [0xfb05])]

/-- The small letter of a code point. -/
def foldCode (code : Nat) : Nat := (lowerRuns.image? code).getD code

/-- The small letter of an ASCII code point; others stay. -/
def foldAscii (code : Nat) : Nat := if 65 ≤ code && code ≤ 90 then code + 32 else code

/-- A small letter together with the small letters of the same capital. -/
def kin (small : Nat) : List Nat := small :: (kinLetters.lookup small).getD []

/-- The code points whose small letter is the given one. -/
def sharing (small : Nat) : List Nat :=
  (if foldCode small = small then [small] else []) ++
  lowerRuns.toList.filterMap fun (first, last, step, shift) =>
    let c := (small : Int) - shift
    if first ≤ c && c ≤ last && (c - first) % step = 0 then some c.toNat else none

end Verdict.Pattern
