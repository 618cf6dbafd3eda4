import Mathlib.Data.List.Induction
import Verdict.Proofs.Mutation.SingleFlight
import Verdict.Value.Equality

/-!
# Proofs/Mutation/History — what a mutator keeps, whatever has been done with it

    empty ──add──▸ · ──mutate──▸ · ──remove──▸ · ──forget──▸ · ──mutate──▸ …

After any steps, a mutator keeps results only of names that are registered, only where it is to keep any,
and only those that applications under their keys came to (`Mutator.isSound_afterAll`).  The transform
of such an application was registered when it was applied; it still is, unless another one has been
registered in its place since (`Mutator.exists_origin`), which drops no results.
-/

namespace Verdict

/-- What can be done with a mutator. -/
inductive Mutator.Act where
  | add (name : String) (t : Transform)
  | addEach (entries : List (String × Option Transform))
  | remove (names : Value)
  | removeAll
  | forget (name : Value)
  | mutate (criteria : Value)

namespace Mutator

/-- The transforms that a step registers. -/
def Act.registers : Act → List (String × Transform)
  | .add name t => [(name, t)]
  | .addEach entries => (entries.takeWhile fun e => e.2.isSome).filterMap fun e => e.2.map (Prod.mk e.1)
  | _ => []

/-- A mutator after a step. -/
def after (m : Mutator) : Act → Mutator
  | .add name t => m.add name t
  | .addEach entries => (m.addEach entries).2
  | .remove names => (m.removeValue names).2
  | .removeAll => m.removeAll
  | .forget name => m.forgetValue name
  | .mutate criteria => (m.mutate criteria).2.1

/-- A mutator after steps. -/
def afterAll (m : Mutator) (steps : List Act) : Mutator := steps.foldl after m

/-- The transform that is registered under a name. -/
def transform? (m : Mutator) (name : String) : Option Transform := Entries.find? name m.transforms

theorem afterAll_concat (m : Mutator) (steps : List Act) (s : Act) :
    m.afterAll (steps ++ [s]) = (m.afterAll steps).after s := by
  rw [afterAll, List.foldl_append]
  rfl

/-! ## Steps that mutate nothing -/

/-- A mutator that keeps no results but those of another one, under names that have the transforms they
had there, or new ones. -/
structure KeepsOf (news : List (String × Transform)) (m m' : Mutator) : Prop where
  caching : m'.caching = m.caching
  names : m.names.Nodup → m'.names.Nodup
  cache : ∀ e ∈ m'.cache, e ∈ m.cache ∧ ∀ t, m.transform? e.1.1 = some t →
    ∃ t', m'.transform? e.1.1 = some t' ∧ (t' = t ∨ (e.1.1, t') ∈ news)

variable {m m' m'' : Mutator} {news : List (String × Transform)}

theorem KeepsOf.refl (m : Mutator) : KeepsOf news m m :=
  ⟨rfl, id, fun _ he => ⟨he, fun t ht => ⟨t, ht, .inl rfl⟩⟩⟩

theorem KeepsOf.trans {news' : List (String × Transform)} (h : KeepsOf news m m')
    (h' : KeepsOf news' m' m'') : KeepsOf (news ++ news') m m'' := by
  refine ⟨h'.caching.trans h.caching, fun hm => h'.names (h.names hm), fun e he => ?_⟩
  obtain ⟨he', hthen⟩ := h'.cache e he
  obtain ⟨hmem, hfirst⟩ := h.cache e he'
  refine ⟨hmem, fun t ht => ?_⟩
  obtain ⟨t', ht', hfrom⟩ := hfirst t ht
  obtain ⟨t'', ht'', rfl | hnew⟩ := hthen t' ht'
  · exact ⟨t'', ht'', hfrom.imp_right (List.mem_append_left _)⟩
  · exact ⟨t'', ht'', .inr (List.mem_append_right _ hnew)⟩

theorem keepsOf_add (m : Mutator) (name : String) (t : Transform) :
    KeepsOf [(name, t)] m (m.add name t) := by
  refine ⟨rfl, fun h => Entries.nodup_put h, fun e he => ⟨he, fun t₀ ht₀ => ?_⟩⟩
  rw [transform?, add]
  by_cases h : e.1.1 = name
  · rw [h]
    exact ⟨t, Entries.find?_put_self .., .inr (List.mem_singleton.mpr rfl)⟩
  · exact ⟨t₀, (Entries.find?_put_other h ..).trans ht₀, .inl rfl⟩

theorem keepsOf_addEach (entries : List (String × Option Transform)) : ∀ m : Mutator,
    KeepsOf (Act.addEach entries).registers m (m.addEach entries).2 := by
  induction entries with
  | nil => exact fun m => .refl m
  | cons e rest ih =>
    intro m
    obtain ⟨name, _ | t⟩ := e
    · exact .refl m
    · exact (m.keepsOf_add name t).trans (ih _)

theorem keepsOf_forget (m : Mutator) (name : String) : KeepsOf [] m (m.forget name) :=
  ⟨rfl, id, fun _ he => ⟨(List.mem_filter.mp he).1, fun t ht => ⟨t, ht, .inl rfl⟩⟩⟩

theorem keepsOf_forgetValue (m : Mutator) (name : Value) : KeepsOf [] m (m.forgetValue name) := by
  cases name with
  | null => exact ⟨rfl, id, List.forall_mem_nil _⟩
  | str name => exact m.keepsOf_forget name
  | _ => exact .refl m

theorem keepsOf_remove (m : Mutator) (name : String) : KeepsOf [] m (m.remove name) := by
  refine ⟨rfl, fun h => h.sublist (List.filter_sublist.map _), fun e he => ?_⟩
  obtain ⟨hmem, hne⟩ := List.mem_filter.mp he
  refine ⟨hmem, fun t ht => ⟨t, ?_, .inl rfl⟩⟩
  exact (Entries.find?_without_other (of_decide_eq_true hne) m.transforms).trans ht

theorem keepsOf_removeEach (names : List Value) : ∀ m : Mutator,
    KeepsOf [] m (m.removeEach names).2 := by
  induction names with
  | nil => exact fun m => .refl m
  | cons name rest ih =>
    intro m
    cases name with
    | str name => exact (m.keepsOf_remove name).trans (ih _)
    | list => exact .refl m
    | object => exact .refl m
    | _ => exact (m.keepsOf_forgetValue _).trans (ih _)

theorem keepsOf_removeValue (m : Mutator) (names : Value) :
    KeepsOf [] m (m.removeValue names).2 := by
  cases names with
  | str name => exact m.keepsOf_removeEach [.str name]
  | list mark items => exact m.keepsOf_removeEach items
  | object mark fields => exact m.keepsOf_removeEach _
  | _ => exact .refl m

/-- **A step that mutates nothing keeps no results but those that were kept.** -/
theorem keepsOf_after (m : Mutator) {s : Act} (h : ∀ criteria, s ≠ .mutate criteria) :
    KeepsOf s.registers m (m.after s) := by
  cases s with
  | add name t => exact m.keepsOf_add name t
  | addEach entries => exact m.keepsOf_addEach entries
  | remove names => exact m.keepsOf_removeValue names
  | removeAll => exact ⟨rfl, fun _ => List.nodup_nil, List.forall_mem_nil _⟩
  | forget name => exact m.keepsOf_forgetValue name
  | mutate criteria => exact absurd rfl (h criteria)

/-! ## Histories -/

/-- An application of a mutate step, and what has become of the registration of its transform. -/
structure Origin (caching : Bool) (before : List Act) (criteria : Value) (after : List Act)
    (a : Application) : Prop where
  /-- The transform was applied by the step. -/
  applied : a ∈ ((empty caching).afterAll before).applications criteria
  /-- It was registered then. -/
  registered : ((empty caching).afterAll before).transform? a.key.1 = some a.transform
  /-- It still is, or one that a later step has registered. -/
  now : ∃ t, ((empty caching).afterAll (before ++ .mutate criteria :: after)).transform? a.key.1 =
    some t ∧ (t = a.transform ∨ ∃ s ∈ after, (a.key.1, t) ∈ s.registers)

/-- An application of one of several steps. -/
def IsFrom (caching : Bool) (steps : List Act) (a : Application) : Prop :=
  ∃ before criteria after, steps = before ++ .mutate criteria :: after ∧
    Origin caching before criteria after a

/-- Where the results come from that are kept after steps. -/
structure HasOrigins (caching : Bool) (steps : List Act) : Prop where
  names : ((empty caching).afterAll steps).names.Nodup
  cache : ∀ e ∈ ((empty caching).afterAll steps).cache,
    ∃ a, IsFrom caching steps a ∧ a.key = e.1 ∧ a.CameTo (.ok e.2)
  uncached : caching = false → ((empty caching).afterAll steps).cache = []
  caching : ((empty caching).afterAll steps).caching = caching

theorem transform?_of_mem_applications {criteria : Value} {a : Application} (hm : m.names.Nodup)
    (h : a ∈ m.applications criteria) : m.transform? a.key.1 = some a.transform :=
  Entries.find?_of_mem hm ((m.singleFlight criteria).registered a h)

/-- An application of an earlier step, after a step that leaves the transform of its name or registers
another one. -/
theorem IsFrom.concat {caching : Bool} {steps : List Act} {a : Application}
    (h : IsFrom caching steps a) (s : Act)
    (hs : ∀ t, ((empty caching).afterAll steps).transform? a.key.1 = some t →
      ∃ t', (((empty caching).afterAll steps).after s).transform? a.key.1 = some t' ∧
        (t' = t ∨ (a.key.1, t') ∈ s.registers)) : IsFrom caching (steps ++ [s]) a := by
  obtain ⟨before, criteria, after, rfl, happlied, hregistered, t, ht, hnow⟩ := h
  obtain ⟨t', ht', hfrom⟩ := hs t ht
  refine ⟨before, criteria, after ++ [s], by simp, happlied, hregistered, t', ?_, ?_⟩
  · rwa [← List.cons_append, ← List.append_assoc, afterAll_concat]
  · rcases hfrom with rfl | hnew
    · exact hnow.imp_right fun ⟨s', hs', hmem⟩ => ⟨s', List.mem_append_left _ hs', hmem⟩
    · exact .inr ⟨s, List.mem_append_right _ (List.mem_singleton.mpr rfl), hnew⟩

theorem HasOrigins.after {caching : Bool} {steps : List Act} (h : HasOrigins caching steps)
    {s : Act} (hs : ∀ criteria, s ≠ .mutate criteria) : HasOrigins caching (steps ++ [s]) := by
  obtain ⟨hnames, hcache, huncached, hcaching⟩ := h
  have hkeeps := ((empty caching).afterAll steps).keepsOf_after hs
  rw [← afterAll_concat] at hkeeps
  refine ⟨hkeeps.names hnames, fun e he => ?_, fun hoff => ?_, hkeeps.caching.trans hcaching⟩
  rotate_left
  · refine List.eq_nil_iff_forall_not_mem.mpr fun e he => ?_
    have hmem := (hkeeps.cache e he).1
    rw [huncached hoff] at hmem
    cases hmem
  obtain ⟨hmem, htransform⟩ := hkeeps.cache e he
  obtain ⟨a, hfrom, hkey, hcame⟩ := hcache e hmem
  rw [← hkey, afterAll_concat] at htransform
  exact ⟨a, hfrom.concat s htransform, hkey, hcame⟩

theorem HasOrigins.mutate {caching : Bool} {steps : List Act} (h : HasOrigins caching steps)
    (criteria : Value) : HasOrigins caching (steps ++ [.mutate criteria]) := by
  obtain ⟨hnames, hcache, huncached, hcaching⟩ := h
  have hafter := (empty caching).afterAll_concat steps (.mutate criteria)
  refine ⟨hafter ▸ hnames, fun e he => ?_, fun hoff => ?_, hafter ▸ hcaching⟩
  rotate_left
  · rw [hafter]
    exact cache_landed_uncached (hcaching.trans hoff) (huncached hoff) criteria
  rw [hafter] at he
  obtain ⟨a, hfrom | happlied, hkey, hcame⟩ :=
    ((empty caching).afterAll steps).keptFrom_landed hcache criteria e he
  · exact ⟨a, hfrom.concat _ fun t ht => ⟨t, ht, .inl rfl⟩, hkey, hcame⟩
  · have hregistered := transform?_of_mem_applications hnames happlied
    refine ⟨a, ⟨steps, criteria, [], rfl, happlied, hregistered, a.transform, ?_, .inl rfl⟩, hkey, hcame⟩
    rwa [hafter]

/-- **Every kept result has an origin**, whatever steps have been taken. -/
theorem hasOrigins (caching : Bool) (steps : List Act) : HasOrigins caching steps := by
  induction steps using List.reverseRecOn with
  | nil => exact ⟨List.nodup_nil, List.forall_mem_nil _, fun _ => rfl, rfl⟩
  | append_singleton steps s ih =>
    cases s with
    | mutate criteria => exact ih.mutate criteria
    | _ => exact ih.after fun criteria heq => by cases heq

/-- **A kept result was computed by the transform that is registered under its name**, or by one in whose
place another was registered after that. -/
theorem exists_origin {caching : Bool} {steps : List Act} {key : CacheKey} {v : Value}
    (h : (key, v) ∈ ((empty caching).afterAll steps).cache) :
    ∃ before criteria after a, steps = before ++ .mutate criteria :: after ∧
      Origin caching before criteria after a ∧ a.key = key ∧ a.CameTo (.ok v) := by
  obtain ⟨a, ⟨before, criteria, after, hsteps, horigin⟩, hkey, hcame⟩ :=
    (hasOrigins caching steps).cache _ h
  exact ⟨before, criteria, after, a, hsteps, horigin, hkey, hcame⟩

/-- The result of the only mutate step was computed by the transform of that time. -/
theorem exists_origin_of_doubling :
    let steps : List Act := [.add "a" (.doubling 0), .mutate (.object none [("a", .int 1)])]
    (("a", Digest.ofText "1"), .int 2) ∈ ((empty true).afterAll steps).cache ∧
    ∃ before criteria after a, steps = before ++ .mutate criteria :: after ∧
      Origin true before criteria after a ∧ a.key = ("a", Digest.ofText "1") ∧
      a.CameTo (.ok (.int 2)) := by
  intro steps
  have hkept : ((empty true).afterAll steps).cache = [(("a", Digest.ofText "1"), .int 2)] := rfl
  have hmem := hkept ▸ List.mem_singleton.mpr rfl
  exact ⟨hmem, exists_origin hmem⟩

/-- Whether mutating criteria gives what equals a value. -/
def gives (m : Mutator) (criteria v : Value) : Bool :=
  ((m.mutate criteria).1.toOption.map Mutated.value).any v.equal

/-- **A transform that is registered in the place of another one does not answer for it**: under the same
key, the result of the first one is still given out, and the new one is not started. -/
theorem replaced_transform_answers :
    let c : Value := .object none [("a", .int 1)]
    let m := (empty true).afterAll
      [.add "a" (.doubling 0), .mutate c, .add "a" (.adding (.int 10) 0)]
    m.transform? "a" = some (.adding (.int 10) 0) ∧
      m.gives c (.object none [("a", .int 2)]) = true ∧ (m.mutate c).2.2.length = 0 ∧
      m.forgetAll.gives c (.object none [("a", .int 11)]) = true :=
  ⟨rfl, by decide +kernel⟩

/-- The state of a mutator after steps. -/
structure IsSound (caching : Bool) (steps : List Act) : Prop where
  /-- Results are kept under registered names. -/
  registered : ∀ e ∈ ((empty caching).afterAll steps).cache,
    e.1.1 ∈ ((empty caching).afterAll steps).names
  /-- Nothing is kept where no results are to be kept. -/
  uncached : caching = false → ((empty caching).afterAll steps).cache = []
  /-- A kept result is the value that an application under its key answered with, settled and later. -/
  answered : ∀ e ∈ ((empty caching).afterAll steps).cache, ∃ before criteria after,
    steps = before ++ .mutate criteria :: after ∧
    ∃ a ∈ ((empty caching).afterAll before).applications criteria, a.key = e.1 ∧
      ∃ v next, a.answer = .ok v ∧ (v.settled next).1.Later e.2
  /-- After a mutate step nothing is in flight, and a transform that failed has left no result. -/
  landed : ∀ before criteria after, steps = before ++ .mutate criteria :: after →
    (((empty caching).afterAll before).landed criteria).inFlight = [] ∧
    ∀ a ∈ ((empty caching).afterAll before).applications criteria, ∀ f, a.answer = .error f →
      a.key ∉ ((empty caching).afterAll (before ++ [.mutate criteria])).cache.map Prod.fst

/-- **The state of a mutator is sound after any steps.** -/
theorem isSound_afterAll (caching : Bool) (steps : List Act) : IsSound caching steps := by
  obtain ⟨-, hcache, huncached, -⟩ := hasOrigins caching steps
  refine ⟨fun e he => ?_, huncached, fun e he => ?_, fun before criteria after _ => ⟨?_, ?_⟩⟩
  · obtain ⟨a, ⟨before, criteria, after, rfl, -, -, t, ht, -⟩, hkey, -⟩ := hcache e he
    exact hkey ▸ List.mem_map_of_mem (Entries.mem_of_find? ht)
  · obtain ⟨a, ⟨before, criteria, after, hsteps, happlied, -, -⟩, hkey, hcame⟩ := hcache e he
    exact ⟨before, criteria, after, hsteps, a, happlied, hkey, hcame.of_ok⟩
  · exact inFlight_landed _ criteria
  · intro a ha f hf
    rw [afterAll_concat]
    exact not_mem_cache_of_error ha hf

/-- **A kept result is not always what its transform answered with**: the object that a constant answered
with is kept as it is, and a second transform has written into it. -/
theorem kept_result_written :
    let c : Value := .object none [("a", .object none [("x", .int 5)])]
    let m := (empty true).afterAll [.add "a" (.constant (.object none [("x", .int 1)]) 0),
      .add "a.x" (.doubling 0), .mutate c, .remove (.str "a.x")]
    m.names = ["a"] ∧ m.gives c (.object none [("a", .object none [("x", .int 10)])]) = true ∧
      (m.mutate c).2.2.length = 0 ∧
      m.forgetAll.gives c (.object none [("a", .object none [("x", .int 1)])]) = true :=
  ⟨rfl, by decide +kernel⟩

end Mutator

end Verdict
