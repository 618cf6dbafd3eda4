/-!
# FileName — names of files

The parts of a name stand between slashes; empty parts and parts of a single point lead nowhere.
-/

namespace Verdict.FileName

/-- The parts of a name, without those that lead nowhere. -/
def parts (name : String) : List String :=
  (name.splitOn "/").filter fun part => part ≠ "" && part ≠ "."

/-- The name without the parts that lead nowhere. -/
def plain (name : String) : String :=
  let parts := parts name
  if name.startsWith "/" then "/" ++ "/".intercalate parts
  else if parts.isEmpty then "."
  else "/".intercalate parts

/-- What follows the last point of a name, unless nothing does or nothing stands before it. -/
def extension (name : String) : List Char :=
  let last := ((parts name).getLast?.getD "").toList
  let ending := (last.reverse.takeWhile (· ≠ '.')).reverse
  if last.length < ending.length + 2 then [] else ending

end Verdict.FileName
