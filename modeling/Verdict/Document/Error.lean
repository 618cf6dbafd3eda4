import Verdict.Fault

/-!
# Document/Error — why a text is not a document
-/

namespace Verdict

/-- Why a text is not a document. -/
inductive Document.Error where
  | malformed
  /-- A well-formed text with a day or a time that does not exist. -/
  | noSuchMoment
  /-- A well-formed text with a value beyond a limit. -/
  | limit (fault : Fault)
  deriving Repr

end Verdict
