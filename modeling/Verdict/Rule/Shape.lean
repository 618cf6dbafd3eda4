import Verdict.Rule.Basic

/-!
# Rule/Shape — what documents say before they are read

A document is a constraint when it has a `field`, and a condition when it has not and exactly one of
the branch names is among its fields.
-/

namespace Verdict.Value

/-- The branch names among the fields of a document. -/
def branches (v : Value) : List Branch := Branch.all.filter fun b => v.hasField b.name

/-- The only branch name among the fields of a document. -/
def branch? (v : Value) : Option Branch :=
  match v.branches with
  | [b] => some b
  | _ => none

/-- Whether a document is a constraint. -/
def isConstraint (v : Value) : Bool := v.hasField "field"

/-- Whether a document is a condition. -/
def isCondition (v : Value) : Bool := !v.isConstraint && v.branch?.isSome

/-- The root conditions of a document: a list, or a single one. -/
def conditions (v : Value) : List Value :=
  match v.getOrNull "conditions" with
  | .null => []
  | .list _ items => items
  | single => [single]

/-- Whether each root condition of a document is a condition with a result. -/
def isGranular (v : Value) : Bool :=
  v.conditions.all fun c => c.isCondition && !(c.getOrNull "result").isNull

theorem hasField_of_branch? {v : Value} {b : Branch} (h : v.branch? = some b) :
    v.hasField b.name = true := by
  have hb : b ∈ v.branches := by
    unfold branch? at h
    split at h
    · next hs => cases h; simp [hs]
    · exact absurd h (by simp)
  simpa using (List.mem_filter.mp hb).2

theorem sizeOf_lt_of_mem_fields {k : String} {v : Value} {fields : List (String × Value)}
    (h : (k, v) ∈ fields) : sizeOf v < sizeOf fields := by
  have := List.sizeOf_lt_of_mem h
  simp only [Prod.mk.sizeOf_spec] at this
  omega

theorem sizeOf_lt_of_get? {key : String} {v w : Value} (h : v.get? key = some w) :
    sizeOf w < sizeOf v := by
  cases v with
  | object mark fields =>
    have := sizeOf_lt_of_mem_fields (Entries.mem_of_find? h)
    simp only [object.sizeOf_spec]
    omega
  | _ => simp [get?] at h

end Verdict.Value
