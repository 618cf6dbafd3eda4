/-!
# Text/Part — texts inside texts
-/

namespace Verdict

/-- Whether a run of characters occurs in another. -/
def occursIn (part : List Char) : List Char → Bool
  | [] => part.isEmpty
  | c :: rest => part.isPrefixOf (c :: rest) || occursIn part rest

/-- Whether a text occurs in another. -/
def isPartOf (part s : String) : Bool := occursIn part.toList s.toList

/-- Whether a text starts with another. -/
def startsWith (s start : String) : Bool := start.toList.isPrefixOf s.toList

/-- Whether a text ends with another. -/
def endsWith (s ending : String) : Bool := ending.toList.isSuffixOf s.toList

example : isPartOf "b" "abc" = true := by decide
example : endsWith "abc" "bc" = true := by decide

end Verdict
