import Verdict.Proofs.Mutation.Fields
import Verdict.Proofs.Mutation.LookUp

/-!
# Proofs/Mutation/Renamed — a desk with other marks

    d ─────look up, apply, keep, hand─────▸ d'
    │ rename ρ                              │ rename ρ         ρ injective
    ▾                                       ▾
    d.rename ρ ───────────────────────────▸ d'.rename ρ

What happens on a desk does not depend on what its marks are: with other marks the same is looked up
(`Desk.lookUpAll_rename`), and the same comes of it (`Desk.finish_rename`), as long as the free marks are
taken in turn and transforms ignore marks.
-/

namespace Verdict

namespace Desk

/-- A desk with other marks. -/
def rename (ρ : Nat → Nat) (d : Desk) : Desk where
  copies := d.copies.map fun c => { c with value := c.value.rename ρ }
  runs := d.runs.map (Run.through (Value.rename ρ))
  cache := d.cache.map fun e => (e.1, e.2.rename ρ)
  nextMark := ρ d.nextMark
  faults := d.faults

section Trace

variable {α : Type} {f : Desk → α → Desk} {g : Desk → Desk}

/-- What is done on changed desks is what is done on the desks themselves, changed. -/
theorem trace_map : ∀ {l : List α} {d : Desk}, (∀ s ∈ trace f d l, f (g s.1) s.2 = g (f s.1 s.2)) →
    trace f (g d) l = (trace f d l).map (fun s => (g s.1, s.2)) ∧ l.foldl f (g d) = g (l.foldl f d)
  | [], _, _ => ⟨rfl, rfl⟩
  | a :: rest, d, h => by
    obtain ⟨hfirst, hrest⟩ := List.forall_mem_cons.mp h
    obtain ⟨htrace, hlast⟩ := trace_map hrest
    rw [trace, trace, List.map_cons, List.foldl_cons, List.foldl_cons, hfirst, htrace, hlast]
    exact ⟨rfl, rfl⟩

theorem trace_append (l l' : List α) (d : Desk) :
    trace f d (l ++ l') = trace f d l ++ trace f (l.foldl f d) l' := by
  induction l generalizing d with
  | nil => rfl
  | cons a rest ih => rw [List.cons_append, trace, trace, ih, List.cons_append, List.foldl_cons]

end Trace

variable {ρ : Nat → Nat} {d : Desk}

/-! ## Writes -/

theorem getElem?_copies_rename (i : Nat) : (d.rename ρ).copies[i]? =
    d.copies[i]?.map fun c => { c with value := c.value.rename ρ } :=
  List.getElem?_map ..

theorem getElem?_runs_rename (j : Nat) :
    (d.rename ρ).runs[j]? = d.runs[j]?.map (Run.through (Value.rename ρ)) :=
  List.getElem?_map ..

theorem fail_rename (call : Nat) (f : Fault) :
    (d.rename ρ).fail call f = (d.fail call f).rename ρ := by
  rw [fail_eq, fail_eq]
  rfl

theorem apply_rename (hρ : Function.Injective ρ) (i : Nat) (w : Write) :
    (d.rename ρ).apply i (w.rename ρ) = (d.apply i w).rename ρ := by
  have helsewhere : ∀ v : Value, (w.rename ρ).applyElsewhere (v.rename ρ) =
      (w.applyElsewhere v).rename ρ := Write.applyElsewhere_rename hρ w
  refine (Desk.mk.injEq ..).mpr ⟨List.ext_getElem? fun j => ?_, ?_, ?_, rfl, rfl⟩
  · simp only [rename, List.getElem?_mapIdx, List.getElem?_map, Option.map_map, apply]
    refine Option.map_congr fun c _ => ?_
    dsimp only [Function.comp_apply]
    rw [Write.applyTo_rename hρ, helsewhere]
    split <;> rfl
  · dsimp only [rename, apply]
    rw [List.map_map, List.map_map]
    refine List.map_congr_left fun r _ => ?_
    obtain ⟨key, t, copies, input, outcome⟩ := r
    dsimp only [Function.comp_apply, Run.through]
    rw [helsewhere, Option.map_map, Option.map_map]
    refine congrArg _ (Option.map_congr fun o _ => ?_)
    cases o with
    | error f => rfl
    | ok v => exact congrArg Except.ok (helsewhere v)
  · dsimp only [rename, apply]
    rw [List.map_map, List.map_map]
    exact List.map_congr_left fun e _ => congrArg (Prod.mk e.1) (helsewhere e.2)

theorem put_rename (hρ : Function.Injective ρ) (i : Nat) (name : String) (v : Value) :
    (d.rename ρ).put i name (v.rename ρ) = (d.put i name v).rename ρ := by
  rw [put, put, getElem?_copies_rename]
  cases d.copies[i]? with
  | none => rfl
  | some c =>
    dsimp only [Option.map_some]
    rw [Path.write?_rename]
    rcases Path.write? name c.value v with f | (_ | w)
    · rfl
    · rfl
    · exact apply_rename hρ i w

/-! ## Looking up -/

theorem join?_through (f : Value → Value) (i : Nat) (key : CacheKey) (runs : List Run) :
    join? i key (runs.map (Run.through f)) = (join? i key runs).map (List.map (Run.through f)) := by
  induction runs with
  | nil => rfl
  | cons r rest ih =>
    have hkey : (r.through f).key = r.key := rfl
    rw [List.map_cons, join?, join?, hkey, ih]
    split
    · rfl
    · cases join? i key rest <;> rfl

theorem ask_rename (hρ : Function.Injective ρ) (q : LookUp) :
    (d.rename ρ).ask q = (d.ask q).rename ρ := by
  rw [ask, ask, lookUp, lookUp, getElem?_copies_rename]
  cases d.copies[q.1]? with
  | none => rfl
  | some c =>
    dsimp only [Option.map_some]
    rw [(Value.remarks_rename ρ).resolve]
    rcases Path.resolve q.2.1 c.value with f | (_ | v)
    · exact fail_rename ..
    · rfl
    · dsimp only [Except.map, Option.map]
      rw [cacheKey_congr q.2.1 (Value.unmarked_rename v)]
      cases cacheKey q.2.1 v with
      | error f => exact fail_rename ..
      | ok key =>
        have hkept : Entries.find? key (d.rename ρ).cache =
            (Entries.find? key d.cache).map (Value.rename ρ) := Entries.find?_map ..
        have hjoin : join? q.1 key (d.rename ρ).runs =
            (join? q.1 key d.runs).map (List.map (Run.through (Value.rename ρ))) := join?_through ..
        dsimp only
        rw [hkept, hjoin]
        cases Entries.find? key d.cache with
        | some kept => exact put_rename hρ ..
        | none =>
          cases join? q.1 key d.runs with
          | some runs => rfl
          | none =>
            refine (Desk.mk.injEq ..).mpr ⟨rfl, ?_, rfl, rfl, rfl⟩
            dsimp only [Option.map_none, rename]
            rw [List.map_append]
            rfl

theorem lookUps_rename (transforms : List (String × Transform)) :
    (d.rename ρ).lookUps transforms = d.lookUps transforms := by
  rw [lookUps, lookUps, rename, List.length_map]

theorem search_rename (hρ : Function.Injective ρ) (transforms : List (String × Transform)) :
    (d.rename ρ).search transforms = (d.search transforms).map fun s => (s.1.rename ρ, s.2) := by
  rw [search, search, lookUps_rename]
  exact (trace_map fun s _ => ask_rename hρ s.2).1

/-- **With other marks the same is looked up.** -/
theorem lookUpAll_rename (hρ : Function.Injective ρ) (transforms : List (String × Transform)) :
    (d.rename ρ).lookUpAll transforms = (d.lookUpAll transforms).rename ρ := by
  rw [lookUpAll_eq_foldl, lookUpAll_eq_foldl, lookUps_rename]
  exact (trace_map fun s _ => ask_rename hρ s.2).2

/-! ## Deeds -/

theorem compute_rename (hρ : Function.Injective ρ) {j : Nat}
    (ht : ∀ r, d.runs[j]? = some r → r.transform.IgnoresMarks)
    (hfree : Value.TakesFree ρ d.nextMark (ρ d.nextMark)) :
    (d.rename ρ).compute j = (d.compute j).rename ρ := by
  cases hr : d.runs[j]? with
  | none => rw [compute, compute, getElem?_runs_rename, hr]; rfl
  | some r =>
    have hr' : (d.rename ρ).runs[j]? = some (r.through (Value.rename ρ)) := by
      rw [getElem?_runs_rename, hr, Option.map_some]
    have hcriteria : (r.through (Value.rename ρ)).criteria (d.rename ρ).copies =
        (r.criteria d.copies).rename ρ := by
      rw [Run.criteria, Run.criteria, Run.through]
      cases r.copies.head? with
      | none => rfl
      | some i =>
        rw [Option.bind_some, Option.bind_some, getElem?_copies_rename]
        cases d.copies[i]? <;> rfl
    have happly : (r.through (Value.rename ρ)).transform.apply (r.through (Value.rename ρ)).input
        ((r.criteria d.copies).rename ρ) =
          (r.transform.apply r.input (r.criteria d.copies)).map (Value.rename ρ) :=
      (ht r hr).rename hρ r.input (r.criteria d.copies)
    have happlied : (r.through (Value.rename ρ)).applied (d.rename ρ).copies (ρ d.nextMark) =
        ((r.applied d.copies d.nextMark).1.through (Value.rename ρ),
          ρ (r.applied d.copies d.nextMark).2) := by
      rw [Run.applied, Run.applied, hcriteria, happly]
      cases r.transform.apply r.input (r.criteria d.copies) with
      | error f => rfl
      | ok v =>
        obtain ⟨hsettled, hnext⟩ := Value.settled_rename hfree v
        dsimp only [Except.map]
        rw [hsettled]
        exact congrArg (Prod.mk _) (hnext 0).symm
    rw [compute_eq hr, compute_eq hr', show (d.rename ρ).nextMark = ρ d.nextMark from rfl, happlied]
    refine (Desk.mk.injEq ..).mpr ⟨rfl, ?_, rfl, rfl, rfl⟩
    exact List.map_set.symm

theorem keep_rename (j : Nat) : (d.rename ρ).keep j = (d.keep j).rename ρ := by
  rw [keep, keep, getElem?_runs_rename]
  rcases d.runs[j]? with _ | ⟨key, t, copies, input, _ | (f | v)⟩
  · rfl
  · rfl
  · rfl
  · exact (Desk.mk.injEq ..).mpr ⟨rfl, rfl, Entries.put_map .., rfl, rfl⟩

theorem hand_rename (hρ : Function.Injective ρ) (j i : Nat) :
    (d.rename ρ).hand j i = (d.hand j i).rename ρ := by
  rw [hand, hand, getElem?_runs_rename]
  rcases d.runs[j]? with _ | ⟨key, t, copies, input, _ | (f | v)⟩
  · rfl
  · rfl
  · dsimp only [Option.map_some, Run.through, Except.map]
    rw [getElem?_copies_rename]
    cases d.copies[i]? with
    | none => rfl
    | some c => exact fail_rename ..
  · exact put_rename hρ ..

/-- A desk with free marks that a renaming takes in turn, and runs of transforms that ignore marks. -/
structure IsRenamable (ρ : Nat → Nat) (d : Desk) : Prop where
  free : ∀ n, d.nextMark ≤ n → Value.TakesFree ρ n (ρ n)
  transforms : ∀ r ∈ d.runs, r.transform.IgnoresMarks

theorem nextMark_put (d : Desk) (i : Nat) (name : String) (v : Value) :
    (d.put i name v).nextMark = d.nextMark := by
  rw [put]
  split
  · rfl
  · split <;> rfl

/-- Look-ups take no marks. -/
theorem nextMark_lookUpAll (d : Desk) (transforms : List (String × Transform)) :
    (d.lookUpAll transforms).nextMark = d.nextMark := by
  rw [lookUpAll_eq_foldl]
  refine (invariant (P := fun d' => d'.nextMark = d.nextMark) rfl fun s _ hs => ?_).2
  rcases ask_cases s.1 s.2 with ⟨-, faults, heq, -⟩ | ⟨-, -, -, kept, -, -, heq⟩ |
    ⟨key, f, -, -, -, heq⟩ <;> rw [heq]
  · exact hs
  · exact (nextMark_put ..).trans hs
  · exact hs

theorem nextMark_hand (d : Desk) (j i : Nat) : (d.hand j i).nextMark = d.nextMark := by
  rw [hand]
  split
  · rfl
  · split
    · exact nextMark_put ..
    · cases d.copies[i]? with
      | none => rfl
      | some c => rw [Option.map_some, Option.getD_some, fail_eq]
    · rfl

/-- Deeds take free marks, and give none back. -/
theorem nextMark_le_perform (d : Desk) (a : Deed) : d.nextMark ≤ (d.perform a).nextMark := by
  cases a with
  | compute j =>
    cases hr : d.runs[j]? with
    | none => exact Nat.le_of_eq (by rw [perform, compute, hr])
    | some r =>
      rw [perform, compute_eq hr]
      exact Run.le_applied ..
  | keep j =>
    rw [perform, keep]
    split <;> exact Nat.le_refl _
  | hand j i => exact Nat.le_of_eq (nextMark_hand d j i).symm

theorem IsRenamable.perform (h : d.IsRenamable ρ) (a : Deed) : (d.perform a).IsRenamable ρ where
  free := fun n hn => h.free n (Nat.le_trans (d.nextMark_le_perform a) hn)
  transforms := fun r' hr' => by
    obtain ⟨j, hj⟩ := List.getElem?_of_mem hr'
    obtain ⟨r, hr, -, htransform, -⟩ := perform_run hj
    exact htransform ▸ h.transforms r (List.mem_of_getElem? hr)

theorem perform_rename (hρ : Function.Injective ρ) (h : d.IsRenamable ρ) (a : Deed) :
    (d.rename ρ).perform a = (d.perform a).rename ρ := by
  cases a with
  | compute j =>
    exact compute_rename hρ (fun r hr => h.transforms r (List.mem_of_getElem? hr))
      (h.free _ (Nat.le_refl _))
  | keep j => exact keep_rename j
  | hand j i => exact hand_rename hρ j i

theorem deeds_rename (caching : Bool) : (d.rename ρ).deeds caching = d.deeds caching := by
  rw [deeds, deeds, rename, List.map_map, List.map_map]
  rfl

section Flight

variable (hρ : Function.Injective ρ) (h : d.IsRenamable ρ) (caching : Bool)
include hρ h

theorem perform_rename_flight : ∀ s ∈ d.flight caching,
    (s.1.rename ρ).perform s.2 = (s.1.perform s.2).rename ρ := fun s hs =>
  perform_rename hρ ((invariant h fun s _ hs => hs.perform s.2).1 s hs) s.2

theorem flight_rename :
    (d.rename ρ).flight caching = (d.flight caching).map fun s => (s.1.rename ρ, s.2) := by
  rw [flight, flight, deeds_rename]
  exact (trace_map (perform_rename_flight hρ h caching)).1

/-- **With other marks the same comes of all runs.** -/
theorem finish_rename : (d.rename ρ).finish caching = (d.finish caching).rename ρ := by
  rw [finish_eq_deeds, finish_eq_deeds, deeds_rename]
  exact (trace_map (perform_rename_flight hρ h caching)).2

end Flight

end Desk

end Verdict
