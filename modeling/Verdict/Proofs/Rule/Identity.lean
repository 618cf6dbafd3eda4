import Verdict.Rule.Reading

/-!
# Proofs/Rule/Identity — outcomes are told apart as their objects are

    document ──slot──▸ result object ──identity──▸ mark, or the slot itself
       │ read              │ read                     ║
       ▾                   ▾                          ║
      rule   ──slot──▸   outcome     ──origin──▸    origin

A **slot** is where a result can stand: at a condition anywhere in the tree, or as the default.
Reading keeps places (`Rule.nodeAt?_of_read`), and each slot of the rule has the outcome of the result
at the slot of the document (`Rule.outcomeAt?_of_read`).  So two outcomes are one exactly where their
results are one object, however equal their contents (`Rule.origin_eq_iff`).
-/

namespace Verdict

/-! ## Documents and nodes at places -/

namespace Value

/-- The branch of a condition with the documents under it: a list, or a single one. -/
def nodes? (v : Value) : Option (Branch × List Value) :=
  if v.isConstraint then none
  else
    v.branch?.bind fun b =>
      match v.get? b.name with
      | some (.list _ items) => some (b, items)
      | some (.object mark fields) => some (b, [.object mark fields])
      | _ => none

/-- The document at a place among the conditions of a rule's document. -/
def documentAt? (v : Value) : List Nat → Option Value
  | [] => none
  | [i] => v.conditions[i]?
  | i :: j :: place =>
    (documentAt? v (j :: place)).bind fun w => w.nodes?.bind fun nodes => nodes.2[i]?

end Value

namespace Node

/-- The nodes of a condition. -/
def nodes : Node → List Node
  | .condition _ nodes _ => nodes
  | _ => []

theorem getElem?_ofItems (place : List Nat) (i : Nat) : ∀ (position : Nat) (items : List Value),
    (ofItems place position items)[i]? =
      items[i]?.map fun v => ofValue ((position + i) :: place) v := by
  induction i with
  | zero =>
    intro position items
    cases items <;> rw [ofItems] <;> rfl
  | succ i ih =>
    intro position items
    cases items with
    | nil =>
      rw [ofItems]
      rfl
    | cons v rest =>
      rw [ofItems, List.getElem?_cons_succ, List.getElem?_cons_succ, ih, Nat.succ_add_eq_add_succ]

/-- **A document is read as a condition exactly where it has nodes**, and these are read below it. -/
theorem ofValue_eq (place : List Nat) (v : Value) : ofValue place v =
    match v.nodes? with
    | some (b, items) => .condition b (ofItems place 0 items)
        (Outcome.ofValue? (.place place) (v.getOrNull "result"))
    | none => if v.isConstraint then .constraint (Constraint.ofValue v) else .invalid v := by
  rw [ofValue, Value.nodes?]
  by_cases hconstraint : v.isConstraint = true
  · rw [if_pos hconstraint, if_pos hconstraint, if_pos hconstraint]
  · rw [if_neg hconstraint, if_neg hconstraint, if_neg hconstraint]
    cases hb : v.branch? with
    | none => rfl
    | some b =>
      dsimp only [Option.bind]
      split
      · next hget => rw [hget]
      · next hget =>
        rw [hget]
        dsimp only
        rw [ofItems, ofItems]
      · next hlist hobject =>
        cases hget : v.get? b.name with
        | none => rfl
        | some w =>
          cases w with
          | list mark items => exact absurd hget (hlist mark items)
          | object mark fields => exact absurd hget (hobject mark fields)
          | _ => rfl

theorem nodes_ofValue (place : List Nat) (v : Value) :
    (ofValue place v).nodes = ofItems place 0 ((v.nodes?.map Prod.snd).getD []) := by
  rw [ofValue_eq]
  cases v.nodes? with
  | some nodes => rfl
  | none =>
    have hnil : ofItems place 0 [] = [] := by rw [ofItems]
    dsimp only
    split <;> exact hnil.symm

theorem outcome?_ofValue (place : List Nat) (v : Value) : (ofValue place v).outcome? =
    v.nodes?.bind fun _ => Outcome.ofValue? (.place place) (v.getOrNull "result") := by
  rw [ofValue_eq]
  cases v.nodes? with
  | some nodes => rfl
  | none =>
    dsimp only
    split <;> rfl

end Node

namespace Rule

variable {v : Value} {rule : Rule}

/-- The node at a place. -/
def nodeAt? (rule : Rule) : List Nat → Option Node
  | [] => none
  | [i] => rule.conditions[i]?
  | i :: j :: place => (nodeAt? rule (j :: place)).bind fun n => n.nodes[i]?

/-- **Reading keeps places.** -/
theorem nodeAt?_of_read (hread : ofValue? v = some rule) : ∀ place : List Nat,
    rule.nodeAt? place = (v.documentAt? place).map (Node.ofValue place)
  | [] => rfl
  | [i] => by
    cases v with
    | object mark fields =>
      cases hread
      rw [nodeAt?, Value.documentAt?, Node.getElem?_ofItems, Nat.zero_add]
    | _ => cases hread
  | i :: j :: place => by
    rw [nodeAt?, nodeAt?_of_read hread (j :: place), Value.documentAt?]
    cases v.documentAt? (j :: place) with
    | none => rfl
    | some w =>
      dsimp only [Option.map, Option.bind]
      rw [Node.nodes_ofValue, Node.getElem?_ofItems, Nat.zero_add]
      cases w.nodes? <;> rfl

/-! ## Results at slots -/

/-- Where a result can stand in a rule. -/
inductive Slot where
  | condition (place : List Nat)
  | default
  deriving DecidableEq, Repr

/-- What an unmarked result at a slot is told apart by. -/
def Slot.origin : Slot → Origin
  | .condition place => .place place
  | .default => .default

/-- The outcome at a slot. -/
def outcomeAt? (rule : Rule) : Slot → Option Outcome
  | .condition place => (rule.nodeAt? place).bind Node.outcome?
  | .default => rule.default

end Rule

namespace Value

/-- The result at a slot: a condition's, `null` when it is missing, or the default. -/
def resultAt? (v : Value) : Rule.Slot → Option Value
  | .condition place =>
    (v.documentAt? place).bind fun w => w.nodes?.map fun _ => w.getOrNull "result"
  | .default => some (v.getOrNull "default")

/-- The result at a slot is an object. -/
def HasResult (v : Value) (s : Rule.Slot) : Prop :=
  ∃ mark fields, v.resultAt? s = some (.object mark fields)

/-- The results at two slots are one object: they stand at one slot, or share a mark. -/
def SameResult (v : Value) (s t : Rule.Slot) : Prop :=
  s = t ∨ ∃ n, (v.resultAt? s).bind mark = some n ∧ (v.resultAt? t).bind mark = some n

end Value

namespace Rule

variable {v : Value} {rule : Rule} {s t : Slot} {o o' : Outcome}

/-- **Each slot has the outcome of its result.** -/
theorem outcomeAt?_of_read (hread : ofValue? v = some rule) (s : Slot) :
    rule.outcomeAt? s = (v.resultAt? s).bind (Outcome.ofValue? s.origin) := by
  cases s with
  | condition place =>
    rw [outcomeAt?, nodeAt?_of_read hread, Value.resultAt?]
    cases v.documentAt? place with
    | none => rfl
    | some w =>
      simp only [Option.map_some, Option.bind_some, Node.outcome?_ofValue]
      cases w.nodes? <;> rfl
  | default =>
    cases v with
    | object mark fields =>
      cases hread
      rfl
    | _ => cases hread

/-- A slot has an outcome exactly where its result is an object. -/
theorem isSome_outcomeAt? (hread : ofValue? v = some rule) (s : Slot) :
    (rule.outcomeAt? s).isSome = true ↔ v.HasResult s := by
  rw [outcomeAt?_of_read hread, Value.HasResult]
  cases v.resultAt? s with
  | none => simp
  | some w => cases w <;> simp [Outcome.ofValue?]

/-- The origin of an outcome is the mark of its result, or else its slot. -/
theorem origin_of_outcomeAt? (hread : ofValue? v = some rule) (ho : rule.outcomeAt? s = some o) :
    o.origin = ((v.resultAt? s).bind Value.mark).elim s.origin Origin.shared := by
  obtain ⟨mark, fields, hresult⟩ := (isSome_outcomeAt? hread s).mp (by rw [ho]; rfl)
  rw [outcomeAt?_of_read hread, hresult] at ho
  cases ho
  rw [hresult]
  rfl

theorem Slot.origin_inj : s.origin = t.origin ↔ s = t := by
  cases s <;> cases t <;> simp [origin]

theorem Slot.origin_ne_shared (s : Slot) (n : Nat) : s.origin ≠ .shared n := by
  cases s <;> nofun

/-- **Two slots have one outcome exactly where their results are one object.** -/
theorem origin_eq_iff (hread : ofValue? v = some rule) (ho : rule.outcomeAt? s = some o)
    (ho' : rule.outcomeAt? t = some o') : o.origin = o'.origin ↔ v.SameResult s t := by
  rw [origin_of_outcomeAt? hread ho, origin_of_outcomeAt? hread ho', Value.SameResult]
  cases hs : (v.resultAt? s).bind Value.mark with
  | none =>
    cases ht : (v.resultAt? t).bind Value.mark with
    | none => simp [Slot.origin_inj]
    | some n =>
      have hne : s ≠ t := fun heq => by
        rw [heq, ht] at hs
        cases hs
      simp [Slot.origin_ne_shared, hne]
  | some n =>
    cases ht : (v.resultAt? t).bind Value.mark with
    | none =>
      have hne : s ≠ t := fun heq => by
        rw [← heq, hs] at ht
        cases ht
      simp [(Slot.origin_ne_shared t n).symm, hne]
    | some m =>
      have hsame : s = t → n = m := fun heq => by
        rw [heq, ht] at hs
        exact (Option.some.inj hs).symm
      rw [Option.elim_some, Option.elim_some, Origin.shared.injEq]
      constructor
      · rintro rfl
        exact .inr ⟨n, rfl, rfl⟩
      · rintro (heq | ⟨k, hn, hm⟩)
        · exact hsame heq
        · exact Option.some.inj (hn.trans hm.symm)

end Rule

end Verdict
