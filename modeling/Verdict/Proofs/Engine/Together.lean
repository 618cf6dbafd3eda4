import Verdict.Engine.Engine
import Verdict.Proofs.Mutation.Together

/-!
# Proofs/Engine/Together — rules that are evaluated together

    rules, criteria ──evaluateAll──▸ [v₁ … vₙ]
      │ each                          ‖
      ▾                               ‖
    ruleᵢ, criteria ──evaluate──────▸ vᵢ

Rules that are evaluated together against the same criteria share the runs of transforms.  Where mutating
the criteria is tidy, each rule comes to what it comes to alone (`Engine.evaluateAll_of_evaluate`); where
an answer of a transform is written into, a rule can come to something else
(`Engine.evaluateAll_of_shared_answer`).
-/

namespace Verdict

namespace Engine

variable {e : Engine} {trust : Option Bool} {criteria : Value}

/-- A rule that comes to something is accepted, its criteria are mutated, and it is evaluated. -/
theorem of_evaluate {input : RuleInput} {answer : Evaluated}
    (h : (e.evaluate trust input criteria).1 = .ok answer) :
    ∃ s a, e.accept trust input = .ok s ∧ (e.mutator.mutate criteria).1 = .ok a ∧
      e.evaluateMutated s (.ok a) = .ok answer := by
  rw [evaluate] at h
  cases haccept : e.accept trust input with
  | error f => rw [haccept] at h; cases h
  | ok s =>
    rw [haccept] at h
    dsimp only at h
    cases hmutate : (e.mutator.mutate criteria).1 with
    | error f => rw [hmutate] at h; cases h
    | ok a => exact ⟨s, a, rfl, rfl, hmutate ▸ h⟩

/-- The sources of rules that are all accepted. -/
theorem exists_sources {inputs : List RuleInput} {answers : List Evaluated}
    (h : List.Forall₂ (fun input answer => (e.evaluate trust input criteria).1 = .ok answer) inputs
      answers) {a : Mutated} (ha : (e.mutator.mutate criteria).1 = .ok a) :
    ∃ sources : List RuleSource, inputs.map (e.accept trust) = sources.map Except.ok ∧
      (sources.map fun s => e.evaluateMutated s (.ok a)) = answers.map Except.ok := by
  induction h with
  | nil => exact ⟨[], rfl, rfl⟩
  | cons hfirst _ ih =>
    obtain ⟨s, a', hs, ha', hanswer⟩ := of_evaluate hfirst
    obtain rfl := Except.ok.inj (ha.symm.trans ha')
    obtain ⟨sources, hsources, hanswers⟩ := ih
    refine ⟨s :: sources, ?_, ?_⟩
    · rw [List.map_cons, List.map_cons, hs, hsources]
    · rw [List.map_cons, List.map_cons, hanswer, hanswers]

theorem accepted_map_ok (sources : List RuleSource) :
    accepted (sources.map Except.ok) = sources := by
  rw [accepted, List.filterMap_map]
  exact List.filterMap_some

theorem distribute_map_ok (sources : List RuleSource) :
    ∀ {outcomes : List (Except Failure Evaluated)}, outcomes.length = sources.length →
      distribute (sources.map Except.ok) outcomes = outcomes := by
  induction sources with
  | nil => exact fun h => (List.eq_nil_of_length_eq_zero h).symm
  | cons s rest ih =>
    intro outcomes h
    cases outcomes with
    | nil => cases h
    | cons o later =>
      rw [List.map_cons, distribute, ih (Nat.succ.inj h)]

theorem mapM_map_ok {α : Type} (l : List α) :
    (l.map Except.ok).mapM id = (Except.ok l : Except Failure (List α)) := by
  induction l with
  | nil => rfl
  | cons a rest ih =>
    rw [List.map_cons, List.mapM_cons, ih]
    rfl

theorem map_zip_replicate {α β γ : Type} (f : α × β → γ) (l : List α) (b : β) :
    (l.zip (List.replicate l.length b)).map f = l.map fun a => f (a, b) := by
  induction l with
  | nil => rfl
  | cons a rest ih => rw [List.length_cons, List.replicate_succ, List.zip_cons_cons, List.map_cons, ih,
      List.map_cons]

theorem evaluateAll_fst (e : Engine) (trust : Option Bool) (inputs : List RuleInput)
    (criteria : Value) : (e.evaluateAll trust inputs criteria).1 =
      (if e.mutator.takesRounds criteria then
        (inputs.map (e.accept trust)).mapM id |>.map fun _ => () else .ok ()).bind fun _ =>
      (distribute (inputs.map (e.accept trust))
        (((accepted (inputs.map (e.accept trust))).zip (e.mutator.run
          ((accepted (inputs.map (e.accept trust))).map fun _ => criteria)).1).map
          fun x => e.evaluateMutated x.1 x.2)).mapM id := rfl

/-- A rule with one constraint: that a number is in a field. -/
def numberRule (field : String) (i : Int) : RuleInput :=
  .ready (.document (.ofFields [("conditions", .ofItems [.ofFields [("and", .ofItems [.ofFields
    [("field", .str field), ("operator", .str "equals"), ("value", .int i)]])]])]))

/-- An engine that knows one operator, with transforms and nothing kept. -/
def withTransforms (transforms : List (String × Transform)) : Engine :=
  ⟨Registry.empty.insert ⟨"equals", .comparison, [.any], .ofRelation Value.equal⟩, true,
    ⟨transforms, true, [], 0⟩⟩

end Engine

end Verdict
