import Verdict.Proofs.Operator.BuiltIn
import Verdict.Proofs.Value.Order

/-!
# Proofs/Operator/Order — the comparisons as an order of two types

    two numbers, two texts     below | equal | above      ≤ is < or =      ≥ is > or =
    any other two values       neither < nor >            ≤ is =           ≥ is =

On ordered values the comparisons are a total order (`count_comparisons`).  On any other values
`greater-than` and `less-than` fail, and what allows equality is left with equality alone
(`comparisons_of_not_areOrdered`): `Value.comparisons_areTypedOrder`.
-/

namespace Verdict.Value

variable {c v : Value}

/-- Just one of the three comparisons of ordered values holds. -/
theorem count_comparisons (h : areOrdered c v = true) :
    [less v c, equal c v, less c v].count true = 1 := by
  rcases trichotomy h with ⟨hless, hequal, hmore⟩ | ⟨hless, hequal, hmore⟩ |
    ⟨hless, hequal, hmore⟩ <;> rw [hless, hequal, hmore] <;> rfl

/-- Values that are not ordered compare by equality alone. -/
theorem comparisons_of_not_areOrdered (h : areOrdered c v = false) :
    less v c = false ∧ less c v = false ∧ atLeast c v = equal c v ∧ atMost c v = equal c v := by
  have hless : less c v = false := less_eq_false h
  have hmore : less v c = false := less_eq_false ((areOrdered_comm v c).trans h)
  rw [atLeast, atMost, hless, hmore, Bool.or_false]
  exact ⟨rfl, rfl, rfl, rfl⟩

/-- The comparisons, each with the relation by which it decides. -/
def comparisons : List (String × (Value → Value → Bool)) := [
  ("equals", equal),
  ("greater-than", fun c v => less v c),
  ("greater-than-or-equals", atLeast),
  ("less-than", less),
  ("less-than-or-equals", atMost)]

theorem decidesBy_of_mem_comparisons (now : DateTime) : ∀ p ∈ comparisons,
    (Registry.builtIn now).DecidesBy p.1 p.2 := by
  have hdecides : ∀ {name holds} (types : List FieldType),
      ⟨name, .comparison, types, .ofRelation holds⟩ ∈ Operator.comparisons →
        (Registry.builtIn now).DecidesBy name holds := fun _ h =>
    Registry.decidesBy_builtIn (Operator.mem_builtIns_of_comparisons now h)
  simp only [comparisons, List.forall_mem_cons, List.not_mem_nil, false_implies, implies_true,
    and_true]
  refine ⟨hdecides [.any] ?_, hdecides [.number, .string] ?_, hdecides [.number, .string] ?_,
    hdecides [.number, .string] ?_, hdecides [.number, .string] ?_⟩ <;> simp [Operator.comparisons]

theorem trans_of_mem_comparisons : ∀ p ∈ comparisons, ∀ x y z : Value,
    p.2 x y = true → p.2 y z = true → p.2 x z = true := by
  simp only [comparisons, List.forall_mem_cons, List.not_mem_nil, false_implies, implies_true,
    and_true]
  exact ⟨fun _ _ _ => equal_trans, fun _ _ _ hyx hzy => less_trans hzy hyx,
    fun _ _ _ => atLeast_trans, fun _ _ _ => less_trans, fun _ _ _ => atMost_trans⟩

/-- **The comparisons are a typed order.**  Of two values that are both numbers or both texts just
one is greater, or they are equal; any other two are neither greater nor less.  `…-or-equals` allows
equality beside, whatever the values.  All are transitive, and a number is in a range when it is at
least its start and at most its end. -/
theorem comparisons_areTypedOrder (now : DateTime) :
    (∀ p ∈ comparisons, (Registry.builtIn now).DecidesBy p.1 p.2) ∧
    (∀ c v, areOrdered c v = false →
      less v c = false ∧ less c v = false ∧ atLeast c v = equal c v ∧ atMost c v = equal c v) ∧
    (∀ c v, areOrdered c v = true → [less v c, equal c v, less c v].count true = 1) ∧
    (∀ c v, atLeast c v = (less v c || equal c v) ∧ atMost c v = (less c v || equal c v)) ∧
    (∀ p ∈ comparisons, ∀ x y z : Value, p.2 x y = true → p.2 y z = true → p.2 x z = true) ∧
    (Registry.builtIn now).DecidesBy "between" isBetween ∧
    ∀ c mark low high, c.isNumber = true →
      isBetween c (.list mark [low, high]) = (atLeast c low && atMost c high) := by
  have hbetween : ⟨"between", .comparison, [.number], .ofRelation isBetween⟩ ∈
      Operator.comparisons := by simp [Operator.comparisons]
  exact ⟨decidesBy_of_mem_comparisons now, fun _ _ => comparisons_of_not_areOrdered,
    fun _ _ => count_comparisons, fun _ _ => ⟨Bool.or_comm .., Bool.or_comm ..⟩,
    trans_of_mem_comparisons,
    Registry.decidesBy_builtIn (Operator.mem_builtIns_of_comparisons now hbetween),
    fun _ mark low high hc => isBetween_eq hc mark low high⟩

/-- An integer above `2 ^ 53` among doubles, and a text that is not ordered with any of them. -/
theorem comparisons_areTypedOrder_of_mixed :
    let low : Value := .float (.ofInt 9007199254740992)
    let x : Value := .int 9007199254740993
    let high : Value := .float (.ofInt 9007199254740994)
    (areOrdered x (.str "b") = false ∧ areOrdered x high = true ∧ x.isNumber = true ∧
      less low x = true ∧ less x high = true) ∧
    less (.str "b") x = false ∧ atLeast x (.str "b") = equal x (.str "b") ∧
    [less high x, equal x high, less x high].count true = 1 ∧ less low high = true ∧
    isBetween x (.ofItems [low, high]) = (atLeast x low && atMost x high) := by
  intro low x high
  have hapart : areOrdered x (.str "b") = false := rfl
  have hordered : areOrdered x high = true := by decide +kernel
  have hlow : less low x = true := by decide +kernel
  have hhigh : less x high = true := by decide +kernel
  obtain ⟨-, hunordered, hcount, -, htrans, -, hrange⟩ := comparisons_areTypedOrder default
  obtain ⟨hmore, -, heither, -⟩ := hunordered x (.str "b") hapart
  have hmem : ("less-than", less) ∈ comparisons := by simp [comparisons]
  have hless : ∀ {x y z : Value}, less x y = true → less y z = true → less x z = true :=
    htrans _ hmem _ _ _
  exact ⟨⟨hapart, hordered, rfl, hlow, hhigh⟩, hmore, heither, hcount x high hordered,
    hless hlow hhigh, hrange x none low high rfl⟩

/-- What allows equality does not ask for a type: it holds of nothing and nothing, which are neither
numbers nor texts. -/
theorem atLeast_holds_of_null : areOrdered .null .null = false ∧
    ∃ greater atLeast, (Registry.builtIn default).find? (.str "greater-than") = some greater ∧
      (Registry.builtIn default).find? (.str "greater-than-or-equals") = some atLeast ∧
      greater.test .null .null = .ok false ∧ atLeast.test .null .null = .ok true := by
  have hmem : ∀ {o}, o ∈ Operator.comparisons →
      (Registry.builtIn default).find? (.str o.name) = some o := fun h =>
    Registry.find?_builtIn (Operator.mem_builtIns_of_comparisons default h)
  exact ⟨rfl, _, _, hmem (.tail _ (.tail _ (.head _))),
    hmem (.tail _ (.tail _ (.tail _ (.head _)))), rfl, rfl⟩

end Verdict.Value
