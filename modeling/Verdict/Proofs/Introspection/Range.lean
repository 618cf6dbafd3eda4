import Verdict.Proofs.Introspection.Alternative

/-!
# Proofs/Introspection/Range — what attaching does to a range

    fork      a₁, …, aₙ          ↦  a₁, …, aₙ, base ++ a
    no fork   a₁, …, aₙ          ↦  a₁, …, aₙ ++ a

Attaching an alternative of new fields puts it behind the last one, or behind what a fork starts
from (`Growth.forkBase`).  No field comes in but those of the alternative (`Growth.Within.attach`),
and each step remembers the condition's depth and changes of its own fields
(`Growth.exists_step_attach`).
-/

namespace Verdict

/-- A text that is none of some fields. -/
def Apart (fields : List Value) (f : Value) : Prop := (∃ name, f = .str name) ∧ f ∉ fields

namespace Alternative

/-- The fields, in order. -/
def fields (a : Alternative) : List Value := a.map Prod.fst

variable {a es : Alternative}

theorem mergeInto_of_apart (ha : a.Within (Apart es.fields)) (hes : es.IsTable) :
    a.mergeInto es = a ++ es := by
  refine mergeInto_of_disjoint (fun e he => (ha e he).1) hes.named hes.nodup ?_
  intro e he e' he' heq
  exact (ha e he).2 (List.mem_map.mpr ⟨e', he', heq.symm⟩)

/-- Put entries behind the last of some alternatives. -/
def extendLast (as : List Alternative) (es : Alternative) : List Alternative :=
  as.dropLast ++ [as.getLast?.getD [] ++ es]

theorem extendLast_append_singleton (pre : List Alternative) (last es : Alternative) :
    extendLast (pre ++ [last]) es = pre ++ [last ++ es] := by
  rw [extendLast, List.dropLast_concat, List.getLast?_concat]
  rfl

theorem extendLast_extendLast (as : List Alternative) (es es' : Alternative) :
    extendLast (extendLast as es) es' = extendLast as (es ++ es') := by
  have h := extendLast_append_singleton as.dropLast (as.getLast?.getD [] ++ es) es'
  rw [List.append_assoc] at h
  exact h

end Alternative

namespace Growth

/-! ## Forks -/

/-- Whether a condition adds an alternative of its own. -/
def isFork (b : Branch) (parent : Option Branch) : Bool :=
  parent.isNone || (parent == some .or && b != .or)

/-- What the alternative of a fork starts from. -/
def forkBase (g : Growth) (parent : Option Branch) (depth : Nat) : Alternative :=
  if parent = some .or ∧ 1 < depth then g.unwound else []

variable {g : Growth} {b : Branch} {parent : Option Branch} {depth : Nat} {a : Alternative}

/-- **A fork adds what it starts from, with the new entries behind it.** -/
theorem attach_of_isFork (hfork : isFork b parent = true)
    (hbase : (g.forkBase parent depth).Within (Apart a.fields)) (ha : a.IsTable) :
    g.attach b parent depth a =
      g.add ⟨parent, b, depth, none⟩ (g.forkBase parent depth ++ a) := by
  rw [← Alternative.mergeInto_of_apart hbase ha]
  have hnil : Alternative.mergeInto [] a = a :=
    Alternative.mergeInto_of_apart (fun e he => by cases he) ha
  unfold attach forkBase
  cases parent with
  | none => simp [hnil]
  | some p =>
    have hp : p = .or ∧ b ≠ .or := by simpa [isFork] using hfork
    by_cases hdepth : 1 < depth <;> simp [hp.1, hp.2, hdepth, hnil]

/-- **What does not fork is merged into the last alternative.** -/
theorem attach_of_not_isFork (hfork : isFork b parent = false) (g : Growth) (depth : Nat)
    (a : Alternative) :
    g.attach b parent depth a =
      g.replaceLast ⟨parent, b, depth, some (a.map fun e => ⟨e.1, e.2⟩)⟩ (g.last.mergeInto a) := by
  unfold attach
  cases parent with
  | none => cases hfork
  | some p =>
    have hp : ¬ (some p = some Branch.or && b != Branch.or) = true := by
      cases p <;> cases b <;> simp_all [isFork]
    rw [if_neg (by simp), if_neg hp]

/-! ## Fields -/

/-- All fields of all alternatives have a property. -/
def Within (F : Value → Prop) (g : Growth) : Prop := ∀ a ∈ g.alternatives, a.Within F

variable {F : Value → Prop}

theorem Within.last (hg : g.Within F) : g.last.Within F := by
  unfold Growth.last
  cases h : g.alternatives.getLast? with
  | none => exact fun e he => by cases he
  | some a => exact hg a (List.mem_of_getLast? h)

theorem Within.unwound (hg : g.Within F) : g.unwound.Within F := by
  unfold Growth.unwound
  split
  · split
    · exact hg.last
    · exact Alternative.Within.undoSteps _ _ hg.last
  · exact hg.last

theorem Within.forkBase (hg : g.Within F) (parent : Option Branch) (depth : Nat) :
    (g.forkBase parent depth).Within F := by
  unfold Growth.forkBase
  split
  · exact hg.unwound
  · exact fun e he => by cases he

theorem Within.add (hg : g.Within F) (s : Step) (ha : a.Within F) : (g.add s a).Within F :=
  List.forall_mem_append.mpr ⟨hg, List.forall_mem_singleton.mpr ha⟩

/-- **No field comes in but those of the alternative.** -/
theorem Within.attach (hg : g.Within F) (ha : a.Within F) (b : Branch) (parent : Option Branch)
    (depth : Nat) : (g.attach b parent depth a).Within F := by
  unfold Growth.attach
  split
  · exact hg.add _ ha
  · split
    · refine hg.add _ ?_
      split
      · exact hg.unwound.mergeInto ha
      · exact ha
    · refine List.forall_mem_append.mpr ⟨fun a' ha' => hg a' (List.dropLast_subset _ ha'),
        List.forall_mem_singleton.mpr (hg.last.mergeInto ha)⟩

/-! ## Steps -/

/-- Later steps: at a depth or deeper, with changes of some fields only. -/
def StepsWithin (depth : Nat) (fields : List Value) (steps : List Step) : Prop :=
  ∀ s ∈ steps, depth ≤ s.depth ∧ ∀ c ∈ s.changes.getD [], c.field ∈ fields

/-- Each time an alternative is attached, one step is remembered. -/
theorem exists_step_attach (g : Growth) (b : Branch) (parent : Option Branch) (depth : Nat)
    (a : Alternative) :
    ∃ s, (g.attach b parent depth a).steps = s :: g.steps ∧ s.depth = depth ∧
      StepsWithin depth a.fields [s] := by
  unfold attach
  split
  · exact ⟨_, rfl, rfl, by simp [StepsWithin]⟩
  · split
    · exact ⟨_, rfl, rfl, by simp [StepsWithin]⟩
    · refine ⟨_, rfl, rfl, List.forall_mem_singleton.mpr ⟨Nat.le_refl depth, ?_⟩⟩
      intro c hc
      obtain ⟨e, he, rfl⟩ := List.mem_map.mp hc
      exact List.mem_map.mpr ⟨e, he, rfl⟩

/-- Later steps that change none of the fields leave them shielded. -/
theorem shielded_append {bound : Nat} {fields : List Value} (hdepth : bound ≤ depth)
    (hF : ∀ f ∈ fields, ¬ F f) : ∀ {later earlier : List Step}, StepsWithin depth fields later →
      Alternative.Shielded bound F earlier → Alternative.Shielded bound F (later ++ earlier)
  | [], _, _, h => h
  | s :: later, earlier, hlater, h => by
    obtain ⟨hs, hlater⟩ := List.forall_mem_cons.mp hlater
    exact fun _ => ⟨fun c hc => hF c.field (hs.2 c hc), shielded_append hdepth hF hlater h⟩

/-- The latest step, if any, is at a depth or deeper. -/
def Stirred (depth : Nat) (steps : List Step) : Prop := ∀ s ∈ steps.head?, depth ≤ s.depth

theorem stirred_append {bound : Nat} {fields : List Value} (hdepth : bound ≤ depth) :
    ∀ {later earlier : List Step}, StepsWithin depth fields later → Stirred bound earlier →
      Stirred bound (later ++ earlier)
  | [], _, _, h => h
  | s :: _, _, hlater, _ => by
    rintro s' hs'
    cases hs'
    exact Nat.le_trans hdepth (hlater s (List.mem_cons_self ..)).1

/-- **Entries whose fields the latest steps leave alone are in what a fork starts from.** -/
theorem mem_forkBase {bound : Nat} (hsteps : Alternative.Shielded bound F g.steps)
    (hstirred : Stirred bound g.steps) (hdepth : 1 < depth) {e : Value × Value}
    (hnamed : ∃ name, e.1 = .str name) (hF : F e.1) (he : e ∈ g.last) :
    e ∈ g.forkBase (some .or) depth := by
  rw [forkBase, if_pos ⟨rfl, hdepth⟩]
  unfold unwound
  split
  · next s rest hs =>
    have hbound : bound ≤ s.depth := hstirred s (by rw [hs]; rfl)
    split
    · exact he
    · exact Alternative.mem_undoSteps hbound hnamed hF hsteps he
  · exact he

end Growth

end Verdict
