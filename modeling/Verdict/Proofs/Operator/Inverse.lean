import Verdict.Proofs.Operator.BuiltIn
import Verdict.Proofs.Value.Order

/-!
# Proofs/Operator/Inverse — which pairs of inverses are inverses

    equals ⇄ not-equals, …                the second is made from the first: always inverses
    greater-than ⇄ less-than-or-equals, … two orders: inverses of the sides that both compare

Eight of the linked pairs are two orders of their own, each on a `Scale`.  Where a side has no place
on the scale both orders fail, so that neither holds where the other does not:
`Operator.inverse_iff_compares`.
-/

namespace Verdict

namespace Value

/-- Two orders of positions of which one holds where the other fails are inverses exactly of
positions that are there. -/
theorem positions_eq_not_iff {compare compare' : Int → Int → Bool}
    (h : ∀ i j, compare' i j = !compare i j) (a b : Option Int) :
    (positions compare' a b = !positions compare a b) ↔ (a.isSome && b.isSome) = true := by
  cases a <;> cases b <;> simp [positions, h]

theorem positions_eq_false (compare : Int → Int → Bool) {a b : Option Int}
    (h : (a.isSome && b.isSome) = false) : positions compare a b = false := by
  cases a <;> cases b <;> first | rfl | cases h

theorem isNotAfter_eq (i j : Int) : isNotAfter i j = !isAfter i j := by
  simp [isNotAfter, isAfter, ← decide_not]

theorem isNotBefore_eq (i j : Int) : isNotBefore i j = !isBefore i j := by
  simp [isNotBefore, isBefore, ← decide_not]

/-- Being at most a value and being above it are inverses of what is ordered or equal. -/
theorem atMost_eq_not_iff (c v : Value) :
    (atMost c v = !less v c) ↔ (areOrdered c v || equal c v) = true := by
  cases h : areOrdered c v with
  | true => rcases trichotomy h with ⟨h₁, h₂, h₃⟩ | ⟨h₁, h₂, h₃⟩ | ⟨h₁, h₂, h₃⟩ <;>
      simp [atMost, h₁, h₂, h₃]
  | false =>
    have hback : areOrdered v c = false := (areOrdered_comm v c).trans h
    simp [atMost, less_eq_false h, less_eq_false hback]

theorem atLeast_eq_not_iff (c v : Value) :
    (atLeast c v = !less c v) ↔ (areOrdered c v || equal c v) = true := by
  cases h : areOrdered c v with
  | true => rcases trichotomy h with ⟨h₁, h₂, h₃⟩ | ⟨h₁, h₂, h₃⟩ | ⟨h₁, h₂, h₃⟩ <;>
      simp [atLeast, h₁, h₂, h₃]
  | false =>
    have hback : areOrdered v c = false := (areOrdered_comm v c).trans h
    simp [atLeast, less_eq_false h, less_eq_false hback]

end Value

namespace Operator

open Value

/-! ## Scales -/

/-- What the two orders of a pair put the sides on. -/
inductive Scale where
  /-- Numbers with numbers and texts with texts. -/
  | magnitudes
  | moments
  /-- A moment against the present one. -/
  | present
  /-- Times of the day. -/
  | clock
  deriving DecidableEq, Repr

/-- Whether both orders of a scale compare a field's value with a constraint's: each side has its
place, or the two are equal in another way. -/
def Scale.compares : Scale → Value → Value → Bool
  | .magnitudes, c, v => areOrdered c v || equal c v
  | .moments, c, v => c.moment?.isSome && v.moment?.isSome
  | .present, c, _ => c.moment?.isSome
  | .clock, c, v => c.clockTime?.isSome && v.clockTime?.isSome

/-- The pairs of inverses of which each is an order of its own. -/
def orderPairs : List ((String × String) × Scale) := [
  (("greater-than", "less-than-or-equals"), .magnitudes),
  (("less-than", "greater-than-or-equals"), .magnitudes),
  (("date-after", "date-before-or-equals"), .moments),
  (("date-before", "date-after-or-equals"), .moments),
  (("date-after-now", "date-before-now-or-equals"), .present),
  (("date-before-now", "date-after-now-or-equals"), .present),
  (("time-after", "time-before-or-equals"), .clock),
  (("time-before", "time-after-or-equals"), .clock)]

/-- Two operators that are inverses of the sides that a scale compares, and both fail of others. -/
def AreInverseOn (s : Scale) (p n : Operator) : Prop :=
  ∀ c v, (n.test c v = (p.test c v).map (!·) ↔ s.compares c v = true) ∧
    (s.compares c v = false → p.test c v = .ok false ∧ n.test c v = .ok false)

/-- Two relations are inverses on a scale when one denies the other exactly of what compares. -/
theorem areInverseOn_of_relations {s : Scale} {p n : Operator} {holds holds' : Value → Value → Bool}
    (hp : p.test = .ofRelation holds) (hn : n.test = .ofRelation holds')
    (hinverse : ∀ c v, (holds' c v = !holds c v) ↔ s.compares c v = true)
    (hfails : ∀ c v, s.compares c v = false → holds c v = false) : AreInverseOn s p n := by
  intro c v
  rw [hp, hn]
  refine ⟨⟨fun h => (hinverse c v).mp (Except.ok.inj h), fun h => ?_⟩, fun h => ?_⟩
  · exact congrArg Except.ok ((hinverse c v).mpr h)
  · have hne : holds' c v ≠ !holds c v := fun heq => by
      rw [(hinverse c v).mp heq] at h
      cases h
    rw [hfails c v h, Bool.not_false, ne_eq, Bool.not_eq_true] at hne
    exact ⟨congrArg Except.ok (hfails c v h), congrArg Except.ok hne⟩

/-- Two orders of positions are inverses on a scale that compares the positions that are there. -/
theorem areInverseOn_of_positions {s : Scale} {p n : Operator} {compare compare' : Int → Int → Bool}
    {left right : Value → Value → Option Int}
    (hs : ∀ c v, s.compares c v = ((left c v).isSome && (right c v).isSome))
    (h : ∀ i j, compare' i j = !compare i j)
    (hp : p.test = .ofRelation fun c v => positions compare (left c v) (right c v))
    (hn : n.test = .ofRelation fun c v => positions compare' (left c v) (right c v)) :
    AreInverseOn s p n :=
  areInverseOn_of_relations hp hn (fun c v => by rw [hs, positions_eq_not_iff h])
    fun c v hc => positions_eq_false compare ((hs c v).symm.trans hc)

/-! ## The pairs -/

/-- Built-in operators are known by their names. -/
theorem eq_of_name_eq {now : DateTime} {o o' : Operator} (ho : o ∈ builtIns now)
    (ho' : o' ∈ builtIns now) (h : o.name = o'.name) : o = o' :=
  Option.some.inj ((Registry.find?_builtIn ho).symm.trans (h ▸ Registry.find?_builtIn ho'))

variable (now : DateTime)

/-- Built-in operators of which the second is made from the first. -/
def AreMade (a b : String) : Prop :=
  ∃ p ∈ builtIns now, ∃ n ∈ builtIns now, p.name = a ∧ n.name = b ∧ n.test = p.test.inverse

theorem areMade_or_mem_orderPairs : ∀ pair ∈ inversePairs,
    AreMade now pair.1 pair.2 ∨ pair ∈ orderPairs.map Prod.fst := by
  -- an operator that is made from another one stands next to it
  have next : ∀ (i : Nat) {p n : Operator}, (builtIns now)[i]? = some p →
      (builtIns now)[i + 1]? = some n → n.test = p.test.inverse →
      AreMade now p.name n.name ∨ (p.name, n.name) ∈ orderPairs.map Prod.fst :=
    fun _ p n hp hn htest =>
      .inl ⟨p, List.mem_of_getElem? hp, n, List.mem_of_getElem? hn, rfl, rfl, htest⟩
  have order : ∀ {a b : String}, (a, b) ∈ orderPairs.map Prod.fst →
      AreMade now a b ∨ (a, b) ∈ orderPairs.map Prod.fst := .inr
  simp only [inversePairs, List.forall_mem_cons]
  exact ⟨
    next 0 rfl rfl rfl, next 24 rfl rfl rfl, order (by simp [orderPairs]),
    order (by simp [orderPairs]), next 6 rfl rfl rfl, next 8 rfl rfl rfl, next 10 rfl rfl rfl,
    next 12 rfl rfl rfl, next 14 rfl rfl rfl, next 16 rfl rfl rfl, next 18 rfl rfl rfl,
    next 29 rfl rfl rfl, next 33 rfl rfl rfl, next 35 rfl rfl rfl, next 37 rfl rfl rfl,
    next 39 rfl rfl rfl, next 41 rfl rfl rfl, next 43 rfl rfl rfl, next 45 rfl rfl rfl,
    next 47 rfl rfl rfl, next 49 rfl rfl rfl, next 51 rfl rfl rfl, next 53 rfl rfl rfl,
    next 55 rfl rfl rfl, next 57 rfl rfl rfl, next 59 rfl rfl rfl, next 61 rfl rfl rfl,
    next 63 rfl rfl rfl, next 65 rfl rfl rfl, next 67 rfl rfl rfl, next 71 rfl rfl rfl,
    next 73 rfl rfl rfl, next 75 rfl rfl rfl, next 77 rfl rfl rfl, next 79 rfl rfl rfl,
    next 81 rfl rfl rfl, next 83 rfl rfl rfl, next 85 rfl rfl rfl, next 87 rfl rfl rfl,
    next 89 rfl rfl rfl, next 91 rfl rfl rfl, next 93 rfl rfl rfl, next 95 rfl rfl rfl,
    next 97 rfl rfl rfl, next 99 rfl rfl rfl, order (by simp [orderPairs]),
    order (by simp [orderPairs]), next 105 rfl rfl rfl, next 107 rfl rfl rfl,
    next 113 rfl rfl rfl, order (by simp [orderPairs]), order (by simp [orderPairs]),
    order (by simp [orderPairs]), order (by simp [orderPairs]), next 119 rfl rfl rfl,
    next 121 rfl rfl rfl,
    List.forall_mem_nil _⟩

/-- **Each pair of orders is a pair of inverses on its scale**, of which both fail off it. -/
theorem areInverseOn_of_mem_orderPairs : ∀ x ∈ orderPairs, ∃ p ∈ builtIns now, ∃ n ∈ builtIns now,
    p.name = x.1.1 ∧ n.name = x.1.2 ∧ AreInverseOn x.2 p n := by
  have pair : ∀ (i j : Nat) {s : Scale} {p n : Operator}, (builtIns now)[i]? = some p →
      (builtIns now)[j]? = some n → AreInverseOn s p n →
      ∃ p' ∈ builtIns now, ∃ n' ∈ builtIns now,
        p'.name = p.name ∧ n'.name = n.name ∧ AreInverseOn s p' n' :=
    fun _ _ _ p n hp hn h => ⟨p, List.mem_of_getElem? hp, n, List.mem_of_getElem? hn, rfl, rfl, h⟩
  have moments : ∀ c v, Scale.moments.compares c v = (c.instant?.isSome && v.instant?.isSome) :=
    fun c v => by simp [Scale.compares, instant?]
  have present : ∀ c v, Scale.present.compares c v =
      (c.instant?.isSome && (some now.instant).isSome) := fun c v => by
    simp [Scale.compares, instant?]
  have clock : ∀ c v, Scale.clock.compares c v = (c.dayMillis?.isSome && v.dayMillis?.isSome) :=
    fun c v => by simp [Scale.compares, dayMillis?]
  have off : ∀ {c v : Value}, Scale.magnitudes.compares c v = false → areOrdered c v = false :=
    fun h => (Bool.or_eq_false_iff.mp h).1
  simp only [orderPairs, List.forall_mem_cons]
  exact ⟨
    pair 2 5 rfl rfl (areInverseOn_of_relations rfl rfl atMost_eq_not_iff fun _ _ h =>
      less_eq_false (areOrdered_comm _ _ ▸ off h)),
    pair 4 3 rfl rfl (areInverseOn_of_relations rfl rfl atLeast_eq_not_iff fun _ _ h =>
      less_eq_false (off h)),
    pair 101 104 rfl rfl (areInverseOn_of_positions moments isNotAfter_eq rfl rfl),
    pair 103 102 rfl rfl (areInverseOn_of_positions moments isNotBefore_eq rfl rfl),
    pair 109 112 rfl rfl (areInverseOn_of_positions present isNotAfter_eq rfl rfl),
    pair 111 110 rfl rfl (areInverseOn_of_positions present isNotBefore_eq rfl rfl),
    pair 115 118 rfl rfl (areInverseOn_of_positions clock isNotAfter_eq rfl rfl),
    pair 117 116 rfl rfl (areInverseOn_of_positions clock isNotBefore_eq rfl rfl),
    List.forall_mem_nil _⟩

/-- **The second of a pair decides against the first wherever it is made from it, and where both are
orders exactly of the sides that their scale compares**: of other sides both fail. -/
theorem inverse_iff_compares {a b : String} (h : (a, b) ∈ inversePairs) :
    ∃ p n, (Registry.builtIn now).find? (.str a) = some p ∧
      (Registry.builtIn now).find? (.str b) = some n ∧
      ((∀ s, ((a, b), s) ∉ orderPairs) → ∀ c v, n.test c v = (p.test c v).map (!·)) ∧
      ∀ s, ((a, b), s) ∈ orderPairs → ∀ c v,
        (n.test c v = (p.test c v).map (!·) ↔ s.compares c v = true) ∧
        (s.compares c v = false → p.test c v = .ok false ∧ n.test c v = .ok false) := by
  by_cases horder : ∃ s, ((a, b), s) ∈ orderPairs
  · obtain ⟨s, hs⟩ := horder
    obtain ⟨p, hp, n, hn, rfl, rfl, _⟩ := areInverseOn_of_mem_orderPairs now _ hs
    refine ⟨p, n, Registry.find?_builtIn hp, Registry.find?_builtIn hn, fun hno => ?_, ?_⟩
    · exact absurd hs (hno s)
    · intro s' hs'
      obtain ⟨p', hp', n', hn', hpname, hnname, hinverse⟩ :=
        areInverseOn_of_mem_orderPairs now _ hs'
      rw [eq_of_name_eq hp' hp hpname, eq_of_name_eq hn' hn hnname] at hinverse
      exact hinverse
  · rcases areMade_or_mem_orderPairs now (a, b) h with ⟨p, hp, n, hn, rfl, rfl, htest⟩ | hmem
    · refine ⟨p, n, Registry.find?_builtIn hp, Registry.find?_builtIn hn, fun _ c v => ?_, ?_⟩
      · rw [htest]
        rfl
      · exact fun s hs => absurd ⟨s, hs⟩ horder
    · obtain ⟨⟨pair, s⟩, hs, rfl⟩ := List.mem_map.mp hmem
      exact absurd ⟨s, hs⟩ horder

theorem date_after_inverse_iff_compares : ("date-after", "date-before-or-equals") ∈ inversePairs ∧
    ∃ p n, (Registry.builtIn (.midnight ⟨2024, 1, 1⟩)).find? (.str "date-after") = some p ∧
      (Registry.builtIn (.midnight ⟨2024, 1, 1⟩)).find? (.str "date-before-or-equals") = some n ∧
      ∀ c v, (c.moment?.isSome && v.moment?.isSome) = false →
        p.test c v = .ok false ∧ n.test c v = .ok false := by
  have hmem : ("date-after", "date-before-or-equals") ∈ inversePairs := by
    simp [inversePairs]
  obtain ⟨p, n, hp, hn, -, horders⟩ := inverse_iff_compares (.midnight ⟨2024, 1, 1⟩) hmem
  exact ⟨hmem, p, n, hp, hn, fun c v => (horders .moments (by simp [orderPairs]) c v).2⟩

/-- Neither order holds of a text and a number. -/
theorem greater_than_fails_with_inverse : ("greater-than", "less-than-or-equals") ∈ inversePairs ∧
    ∃ p n, (Registry.builtIn (.midnight ⟨2024, 1, 1⟩)).find? (.str "greater-than") = some p ∧
      (Registry.builtIn (.midnight ⟨2024, 1, 1⟩)).find? (.str "less-than-or-equals") = some n ∧
      p.test (.str "a") (.int 1) = .ok false ∧ n.test (.str "a") (.int 1) = .ok false := by
  have greater : (builtIns (.midnight ⟨2024, 1, 1⟩))[2]? = some ⟨"greater-than", _, _, _⟩ := rfl
  have atMost : (builtIns (.midnight ⟨2024, 1, 1⟩))[5]? = some ⟨"less-than-or-equals", _, _, _⟩ := rfl
  exact ⟨by simp [inversePairs], _, _,
    Registry.find?_builtIn (List.mem_of_getElem? greater),
    Registry.find?_builtIn (List.mem_of_getElem? atMost), rfl, rfl⟩

end Operator

end Verdict
