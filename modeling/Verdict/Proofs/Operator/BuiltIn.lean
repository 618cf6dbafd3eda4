import Verdict.Operator.Registry
import Verdict.Proofs.Entries
import Verdict.Proofs.Limit

/-!
# Proofs/Operator/BuiltIn — what the built-in registry finds

The names of the built-in operators are distinct (`Operator.nodup_builtInNames`), so registering
them one after another keeps them all: `Registry.find?_builtIn` and `Registry.mem_builtIns`.  Most
of them decide by a relation (`Registry.DecidesBy`).
Inverses are linked in both directions (`Registry.negation?_builtIn`).  Where the second of a pair
is made from the first by `Test.inverse`, each decides against the other:
`Operator.IsInversePair.negated`.
-/

namespace Verdict

/-! ## Names -/

namespace Operator

theorem names_builtIns (now : DateTime) : (builtIns now).map name = builtInNames := by
  have htimes : (times now).map name = (times default).map name := by
    simp only [times, List.map_cons, List.map_nil]
  simp only [builtIns, builtInNames, List.map_append, htimes]

/-- **The built-in operators have distinct names.** -/
theorem nodup_builtInNames : builtInNames.Nodup := by decide

end Operator

/-! ## Look-ups -/

namespace Registry

/-- Operators with new distinct names are kept in order. -/
theorem operators_foldl_insert : ∀ (os : List Operator) (r : Registry),
    (r.operators.map Prod.fst ++ os.map Operator.name).Nodup →
    (os.foldl insert r).operators = r.operators ++ os.map fun o => (o.name, o)
  | [], r, _ => by simp
  | o :: os, r, h => by
    have hnew : o.name ∉ r.operators.map Prod.fst := fun hmem =>
      (List.nodup_append.mp h).2.2 _ hmem _ (by simp) rfl
    have hput : (r.insert o).operators = r.operators ++ [(o.name, o)] :=
      Entries.put_of_not_mem o hnew
    rw [List.foldl_cons, operators_foldl_insert os (r.insert o), hput]
    · simp
    · simpa [hput] using h

theorem operators_foldl_link (pairs : List (String × String)) (r : Registry) :
    (pairs.foldl (fun r p => r.link p.1 p.2) r).operators = r.operators := by
  induction pairs generalizing r with
  | nil => rfl
  | cons p rest ih => rw [List.foldl_cons, ih]; rfl

theorem operators_builtIn (now : DateTime) :
    (builtIn now).operators = (Operator.builtIns now).map fun o => (o.name, o) := by
  have hnodup : (([] : List (String × Operator)).map Prod.fst ++
      (Operator.builtIns now).map Operator.name).Nodup := by
    rw [Operator.names_builtIns]
    exact Operator.nodup_builtInNames
  calc (builtIn now).operators
      = ((Operator.builtIns now).foldl insert empty).operators := operators_foldl_link _ _
    _ = (Operator.builtIns now).map fun o => (o.name, o) := operators_foldl_insert _ empty hnodup

variable {now : DateTime}

/-- A built-in operator is found under its name. -/
theorem find?_builtIn {o : Operator} (h : o ∈ Operator.builtIns now) :
    (builtIn now).find? (.str o.name) = some o := by
  rw [find?, operators_builtIn]
  refine Entries.find?_of_mem ?_ (List.mem_map.mpr ⟨o, h, rfl⟩)
  rw [List.map_map]
  change ((Operator.builtIns now).map Operator.name).Nodup
  rw [Operator.names_builtIns]
  exact Operator.nodup_builtInNames

/-- Whatever is found is a built-in operator, under its name. -/
theorem mem_builtIns {name : Value} {o : Operator} (h : (builtIn now).find? name = some o) :
    o ∈ Operator.builtIns now ∧ name = .str o.name := by
  unfold find? at h
  split at h
  · have hmem := Entries.mem_of_find? h
    rw [operators_builtIn] at hmem
    obtain ⟨o', ho', heq⟩ := List.mem_map.mp hmem
    cases heq
    exact ⟨ho', rfl⟩
  · cases h

/-- The links of the built-in operators, which do not depend on the moment. -/
theorem negations_builtIn (now : DateTime) : (builtIn now).negations = Operator.inversePairs.foldl
    (fun links p => Entries.put p.2 p.1 (Entries.put p.1 p.2 links)) [] := by
  have hinsert : ∀ (os : List Operator) (r : Registry),
      (os.foldl insert r).negations = r.negations :=
    fun os => by
      induction os with
      | nil => exact fun _ => rfl
      | cons o os ih => exact fun r => ih (r.insert o)
  have hlink : ∀ (pairs : List (String × String)) (r : Registry),
      (pairs.foldl (fun r p => r.link p.1 p.2) r).negations =
        pairs.foldl (fun links p => Entries.put p.2 p.1 (Entries.put p.1 p.2 links)) r.negations :=
    fun pairs => by
      induction pairs with
      | nil => exact fun _ => rfl
      | cons p rest ih => exact fun r => ih (r.link p.1 p.2)
  exact (hlink _ _).trans (by rw [hinsert]; rfl)

/-- **Built-in inverses are linked in both directions.** -/
theorem negation?_builtIn {a b : String} (h : (a, b) ∈ Operator.inversePairs) :
    (builtIn now).negation? (.str a) = some b ∧ (builtIn now).negation? (.str b) = some a := by
  have hpairs : ∀ p ∈ Operator.inversePairs,
      let links := Operator.inversePairs.foldl
        (fun links p => Entries.put p.2 p.1 (Entries.put p.1 p.2 links)) []
      Entries.find? p.1 links = some p.2 ∧ Entries.find? p.2 links = some p.1 := by decide +kernel
  simp only [negation?, negations_builtIn]
  exact hpairs (a, b) h

/-! ## Relations -/

/-- The operator of a name decides all values, by a relation. -/
def DecidesBy (r : Registry) (name : String) (holds : Value → Value → Bool) : Prop :=
  ∃ o, r.find? (.str name) = some o ∧ o.test = .ofRelation holds

theorem decidesBy_builtIn {name : String} {category : Category} {types : List FieldType}
    {holds : Value → Value → Bool}
    (h : ⟨name, category, types, .ofRelation holds⟩ ∈ Operator.builtIns now) :
    (builtIn now).DecidesBy name holds := ⟨_, find?_builtIn h, rfl⟩

end Registry

/-! ## Inverses -/

namespace Operator

/-- A pair of inverses of which the second is made from the first by `Test.inverse`. -/
def IsInversePair (now : DateTime) (a b : String) : Prop :=
  (a, b) ∈ inversePairs ∧ ∃ p ∈ builtIns now, ∃ n ∈ builtIns now,
    p.name = a ∧ n.name = b ∧ n.test = p.test.inverse

/-- What stands for an operator below a NONE: the operator that decides against it. -/
structure Negated (r : Registry) (operator inverse : String) : Prop where
  linked : r.negation? (.str operator) = some inverse
  linkedBack : r.negation? (.str inverse) = some operator
  /-- Where one decides, the other decides against it. -/
  decides : ∃ o o', r.find? (.str operator) = some o ∧ r.find? (.str inverse) = some o' ∧
    ∀ criterion value passed, o.test criterion value = .ok passed →
      o'.test criterion value = .ok (!passed)

/-- **Each of a pair of inverses stands for the other below a NONE.** -/
theorem IsInversePair.negated {now : DateTime} {a b : String} (h : IsInversePair now a b) :
    Negated (.builtIn now) a b ∧ Negated (.builtIn now) b a := by
  obtain ⟨hpair, p, hp, n, hn, rfl, rfl, htest⟩ := h
  have hlinked : (Registry.builtIn now).negation? (.str p.name) = some n.name ∧
      (Registry.builtIn now).negation? (.str n.name) = some p.name :=
    Registry.negation?_builtIn hpair
  refine ⟨⟨hlinked.1, hlinked.2, p, n, Registry.find?_builtIn hp, Registry.find?_builtIn hn, ?_⟩,
    ⟨hlinked.2, hlinked.1, n, p, Registry.find?_builtIn hn, Registry.find?_builtIn hp, ?_⟩⟩
  · intro criterion value passed hpassed
    rw [htest]
    exact Test.inverse_apply hpassed
  · intro criterion value passed hpassed
    rw [htest] at hpassed
    obtain ⟨passed', hp', rfl⟩ := Except.map_eq_ok_iff.mp hpassed
    rw [hp', Bool.not_not]

/-! ## Equality and membership -/

variable (now : DateTime)

theorem mem_builtIns_of_comparisons {o : Operator} (h : o ∈ comparisons) : o ∈ builtIns now := by
  simp only [builtIns, List.mem_append, h, true_or]

theorem mem_builtIns_of_collections {o : Operator} (h : o ∈ collections) : o ∈ builtIns now := by
  simp only [builtIns, List.mem_append, h, true_or, or_true]

theorem mem_builtIns_of_presences {o : Operator} (h : o ∈ presences) : o ∈ builtIns now :=
  List.mem_append_left _ (List.mem_append_right _ h)

theorem mem_builtIns_of_times {o : Operator} (h : o ∈ times now) : o ∈ builtIns now :=
  List.mem_append_right _ h

/-- Equality and its denial are inverses. -/
theorem isInversePair_equals : IsInversePair now "equals" "not-equals" :=
  ⟨.head _, _, mem_builtIns_of_comparisons now (.head _), _,
    mem_builtIns_of_comparisons now (.tail _ (.head _)), rfl, rfl, rfl⟩

/-- What stands for equality below a NONE is the denial of it. -/
theorem Negated.eq_not_equals {now : DateTime} {operator : String}
    (h : Negated (.builtIn now) operator "equals") : operator = "not-equals" :=
  Option.some.inj
    (h.linkedBack.symm.trans (Registry.negation?_builtIn (isInversePair_equals now).1).1)

theorem Negated.eq_not_in {now : DateTime} {operator : String}
    (h : Negated (.builtIn now) operator "in") : operator = "not-in" := by
  have hpair : ("in", "not-in") ∈ inversePairs := by simp [inversePairs]
  exact Option.some.inj (h.linkedBack.symm.trans (Registry.negation?_builtIn hpair).1)

theorem find?_equals : (Registry.builtIn now).find? (.str "equals") =
    some ⟨"equals", .comparison, [.any], .ofRelation Value.equal⟩ :=
  Registry.find?_builtIn (o := ⟨"equals", .comparison, [.any], .ofRelation Value.equal⟩)
    (mem_builtIns_of_comparisons now (by simp [comparisons]))

theorem find?_in : (Registry.builtIn now).find? (.str "in") =
    some ⟨"in", .comparison, [.any], .ofRelation Value.isAmong⟩ :=
  Registry.find?_builtIn (o := ⟨"in", .comparison, [.any], .ofRelation Value.isAmong⟩)
    (mem_builtIns_of_comparisons now (by simp [comparisons]))

end Operator

end Verdict
