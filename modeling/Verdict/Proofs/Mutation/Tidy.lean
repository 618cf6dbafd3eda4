import Verdict.Proofs.Mutation.Owned
import Verdict.Proofs.Mutation.Renamed
import Verdict.Proofs.Mutation.SingleFlight

/-!
# Proofs/Mutation/Tidy — calls that write into their own containers only

    kept results, outcomes ──put──▸ own containers of copies       tidy
                           ──put──▸ kept results, outcomes         not tidy

A call is **tidy** if nothing is put into a container that is part of a kept result or of an outcome
(`Mutator.IsTidy`).  That does not depend on what marks are (`Desk.LooksApart.rename`,
`Desk.HandsApart.rename`).
-/

namespace Verdict

namespace Value

variable {W W' : Nat → Prop} {ρ : Nat → Nat} {root v : Value} {name : String}

theorem AcceptsIn.rename (h : root.AcceptsIn W name v) (hW : ∀ n, W n → W' (ρ n)) :
    (root.rename ρ).AcceptsIn W' name (v.rename ρ) := fun w' hw' => by
  rw [Path.write?_rename] at hw'
  rcases hwrite : Path.write? name root v with f | (_ | w)
  · rw [hwrite] at hw'
    cases hw'
  · rw [hwrite] at hw'
    cases hw'
  · rw [hwrite] at hw'
    obtain rfl := Option.some.inj (Except.ok.inj hw')
    obtain ⟨n, hn, hWn⟩ := h w hwrite
    refine ⟨ρ n, ?_, hW n hWn⟩
    exact (((remarks_rename ρ).mark w.before).trans (congrArg _ hn))

end Value

namespace Desk

variable {ρ : Nat → Nat} {kept : List Nat} {d : Desk}

theorem held_rename (hkept : ∀ n ∈ kept, ρ n = n) :
    (d.rename ρ).held kept = (d.held kept).map ρ := by
  have hsame : kept.map ρ = kept := (List.map_congr_left hkept).trans (List.map_id' kept)
  rw [held, held, List.map_append, hsame, outcomeMarks, outcomeMarks, rename, List.flatMap_map,
    List.map_flatMap]
  refine congrArg (kept ++ ·) (congrArg (List.flatMap · d.runs) (funext fun r => ?_))
  obtain ⟨key, t, copies, input, _ | (f | v)⟩ := r
  · rfl
  · rfl
  · exact Value.marks_rename v

theorem found_rename (q : LookUp) : (d.rename ρ).found q =
    (d.found q).map (Option.map fun q => (q.1, { q.2 with input := q.2.input.rename ρ })) := by
  rw [found, found, getElem?_copies_rename]
  cases d.copies[q.1]? with
  | none => rfl
  | some c => exact Field.lookUp?_remark (Value.remarks_rename ρ) c.value q.2

section

variable (hρ : Function.Injective ρ) (hkept : ∀ n ∈ kept, ρ n = n)
include hρ hkept

theorem IsApart.rename {i : Nat} {name : String} {v : Value} (h : d.IsApart kept i name v) :
    (d.rename ρ).IsApart kept i name (v.rename ρ) := fun c' hc' => by
  rw [getElem?_copies_rename] at hc'
  obtain ⟨c, hc, rfl⟩ := Option.map_eq_some_iff.mp hc'
  refine (h c hc).rename fun n hn hmem => ?_
  rw [held_rename hkept] at hmem
  obtain ⟨p, hp, heq⟩ := List.mem_map.mp hmem
  exact hn (hρ heq ▸ hp)

theorem LooksApart.rename {q : LookUp} (h : d.LooksApart kept q) :
    (d.rename ρ).LooksApart kept q := fun key f v hfound hv => by
  rw [found_rename] at hfound
  have hcache : Entries.find? key (d.rename ρ).cache =
      (Entries.find? key d.cache).map (Value.rename ρ) := Entries.find?_map ..
  rw [hcache] at hv
  obtain ⟨v, hfind, rfl⟩ := Option.map_eq_some_iff.mp hv
  rcases hsame : d.found q with f' | (_ | ⟨key', f'⟩) <;> rw [hsame] at hfound <;> cases hfound
  exact (h key' f' v hsame hfind).rename hρ hkept

theorem HandsApart.rename {a : Deed} (h : d.HandsApart kept a) :
    (d.rename ρ).HandsApart kept a := fun r v hreceipt hv => by
  cases a with
  | compute j => cases hreceipt
  | keep j => cases hreceipt
  | hand j i =>
    rw [receipt?, getElem?_runs_rename] at hreceipt
    rcases hr : d.runs[j]? with _ | ⟨key, t, copies, input, _ | (f | u)⟩ <;> rw [hr] at hreceipt <;>
      cases hreceipt <;> cases hv
    refine (h ⟨i, key, .ok u⟩ u ?_ rfl).rename hρ hkept
    rw [receipt?, hr]
    rfl

end

end Desk

/-! ## Telling whether a call is tidy -/

/-- Whether a value that is put under a name goes into a container with a certain mark, if anywhere. -/
def Value.acceptsIn (W : Nat → Bool) (root : Value) (name : String) (v : Value) : Bool :=
  match Path.write? name root v with
  | .ok (some w) => w.before.mark.any W
  | _ => true

theorem Value.acceptsIn_iff {W : Nat → Bool} {root v : Value} {name : String} :
    root.acceptsIn W name v = true ↔ root.AcceptsIn (fun n => W n = true) name v := by
  rw [acceptsIn, AcceptsIn]
  rcases Path.write? name root v with f | (_ | w)
  · refine ⟨fun _ w hw => ?_, fun _ => rfl⟩
    cases hw
  · refine ⟨fun _ w hw => ?_, fun _ => rfl⟩
    cases hw
  · dsimp only
    rw [Option.any_eq_true]
    refine ⟨fun h w' hw' => ?_, fun h => h w rfl⟩
    obtain rfl := Option.some.inj (Except.ok.inj hw')
    exact h

namespace Desk

instance (kept : List Nat) (d : Desk) (i : Nat) (name : String) (v : Value) :
    Decidable (d.IsApart kept i name v) :=
  decidable_of_iff
    ((d.copies[i]?.all fun c => c.value.acceptsIn (fun n => decide (n ∉ d.held kept)) name v) = true) <| by
    rw [Option.all_eq_true, IsApart]
    refine forall₂_congr fun c _ => ?_
    rw [Value.acceptsIn_iff]
    simp only [decide_eq_true_eq]

instance (kept : List Nat) (d : Desk) (q : LookUp) : Decidable (d.LooksApart kept q) :=
  decidable_of_iff
    (∀ p ∈ (d.found q).toOption.join, ∀ v ∈ Entries.find? p.1 d.cache, d.IsApart kept q.1 q.2.1 v) <| by
    rw [LooksApart]
    refine ⟨fun h key f v hfound hv => h (key, f) (by rw [hfound]; rfl) v hv, fun h p hp v hv => ?_⟩
    rcases hfound : d.found q with f | (_ | p') <;> rw [hfound] at hp <;> cases hp
    exact h p.1 p.2 v hfound hv

instance (kept : List Nat) (d : Desk) (a : Deed) : Decidable (d.HandsApart kept a) :=
  decidable_of_iff
    (∀ r ∈ d.receipt? a, ∀ v ∈ r.outcome.toOption, d.IsApart kept r.copy r.key.1 v) <| by
    rw [HandsApart]
    refine ⟨fun h r v hr hv => h r hr v (by rw [hv]; rfl), fun h r hr v hv => h r v hr ?_⟩
    cases ho : r.outcome <;> rw [ho] at hv <;> cases hv
    rfl

end Desk

namespace Mutator

/-- The marks of results that are kept. -/
def keptMarks (m : Mutator) : List Nat := m.cache.flatMap fun e => e.2.marks

/-- **A tidy call**: no kept result and no outcome is put into a container of one. -/
structure IsTidy (m : Mutator) (criteria : Value) : Prop where
  lookUps : ∀ s ∈ m.search criteria, s.1.LooksApart m.keptMarks s.2
  hands : ∀ s ∈ m.flight criteria, s.1.HandsApart m.keptMarks s.2

instance (m : Mutator) (criteria : Value) : Decidable (m.IsTidy criteria) :=
  decidable_of_iff ((∀ s ∈ m.search criteria, s.1.LooksApart m.keptMarks s.2) ∧
    ∀ s ∈ m.flight criteria, s.1.HandsApart m.keptMarks s.2)
    ⟨fun h => ⟨h.1, h.2⟩, fun h => ⟨h.lookUps, h.hands⟩⟩

end Mutator

end Verdict
