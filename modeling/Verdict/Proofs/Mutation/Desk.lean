import Verdict.Mutation.Mutate
import Verdict.Proofs.Entries

/-!
# Proofs/Mutation/Desk — what happens on a desk, phase by phase

    copies ──look up──▸ runs ──apply──▸ outcomes ──hand──▸ copies

Where no results are kept and no transform pauses, the phases come one after another: all fields are
looked up before a run starts (`Desk.lookUpAll_eq`), all runs are applied before an outcome is
delivered, and then the outcomes are handed to the copies that wait for them, run by run
(`Desk.finish_eq`).
-/

namespace Verdict

/-- A field that a transform changes, and what is there. -/
structure Field where
  name : String
  transform : Transform
  input : Value

/-- What comes of looking up the field of a transform: none when there is no such field. -/
def Field.lookUp? (root : Value) (e : String × Transform) :
    Except Fault (Option (CacheKey × Field)) :=
  match Path.resolve e.1 root with
  | .error f => .error f
  | .ok none => .ok none
  | .ok (some v) => (cacheKey e.1 v).map fun key => some (key, ⟨e.1, e.2, v⟩)

namespace Desk

/-! ## Looking up -/

/-- Let a copy wait for the run of a key, which is started when there is none. -/
def enroll (i : Nat) (q : CacheKey × Field) (runs : List Run) : List Run :=
  (join? i q.1 runs).getD (runs ++ [⟨q.1, q.2.transform, [i], q.2.input, none⟩])

/-- A look-up for a copy: the copy, its call, and what comes of it. -/
structure Asked where
  copy : Nat
  call : Nat
  answer : Except Fault (Option (CacheKey × Field))

/-- The look-ups of all fields of copies, numbered from a first one on. -/
def asked (transforms : List (String × Transform)) (first : Nat) (copies : List WorkingCopy) :
    List Asked :=
  (copies.zipIdx first).flatMap fun (c, i) =>
    transforms.map fun e => ⟨i, c.call, Field.lookUp? c.value e⟩

/-- The field that was looked up for a copy, if it is there. -/
def Asked.request? (a : Asked) : Option (Nat × CacheKey × Field) :=
  match a.answer with
  | .ok (some q) => some (a.copy, q)
  | _ => none

/-- The fault of a look-up, and the call that it is of. -/
def Asked.fault? (a : Asked) : Option (Nat × Fault) :=
  match a.answer with
  | .error f => some (a.call, f)
  | _ => none

/-- The faults of calls after another one. -/
def withFault (faults : List (Nat × Fault)) (e : Nat × Fault) : List (Nat × Fault) :=
  if Entries.has e.1 faults then faults else Entries.put e.1 e.2 faults

/-- A desk after look-ups. -/
def note (d : Desk) (as : List Asked) : Desk :=
  { d with
    runs := (as.filterMap Asked.request?).foldl (fun runs q => enroll q.1 q.2 runs) d.runs
    faults := (as.filterMap Asked.fault?).foldl withFault d.faults }

theorem fail_eq (d : Desk) (call : Nat) (f : Fault) :
    d.fail call f = { d with faults := withFault d.faults (call, f) } := by
  unfold fail withFault
  split <;> rfl

theorem note_cons (d : Desk) (a : Asked) (as : List Asked) :
    d.note (a :: as) = (d.note [a]).note as := by
  rw [note, note, note, List.filterMap_cons, List.filterMap_cons, List.filterMap_cons,
    List.filterMap_cons]
  cases a.request? <;> cases a.fault? <;> rfl

theorem note_append (d : Desk) (as bs : List Asked) : d.note (as ++ bs) = (d.note as).note bs := by
  rw [note, note, note, List.filterMap_append, List.filterMap_append, List.foldl_append,
    List.foldl_append]

theorem lookUp_eq_note {d : Desk} {i : Nat} {c : WorkingCopy} (hcache : d.cache = [])
    (hcopy : d.copies[i]? = some c) (e : String × Transform) :
    d.lookUp i e.1 e.2 = d.note [⟨i, c.call, Field.lookUp? c.value e⟩] := by
  rw [lookUp, hcopy]
  dsimp only
  rw [Field.lookUp?]
  cases Path.resolve e.1 c.value with
  | error f => exact fail_eq d c.call f
  | ok found =>
    cases found with
    | none => rfl
    | some v =>
      dsimp only
      cases cacheKey e.1 v with
      | error f => exact fail_eq d c.call f
      | ok key =>
        have hkept : Entries.find? key d.cache = none := by rw [hcache, Entries.find?_nil]
        have hnote : ∀ q, d.note [⟨i, c.call, .ok (some q)⟩] =
            { d with runs := enroll i q d.runs } := fun _ => rfl
        rw [Except.map, hnote, enroll]
        dsimp only
        rw [hkept]
        cases join? i key d.runs <;> rfl

/-- **All fields are looked up before anything else happens.** -/
theorem lookUpAll_eq {d : Desk} (hcache : d.cache = []) (transforms : List (String × Transform)) :
    d.lookUpAll transforms = d.note (asked transforms 0 d.copies) := by
  have hcopy : ∀ {i : Nat} {c : WorkingCopy} (ts : List (String × Transform)) {e : Desk},
      e.cache = [] → e.copies[i]? = some c →
      ts.foldl (fun e t => e.lookUp i t.1 t.2) e =
        e.note (ts.map fun t => ⟨i, c.call, Field.lookUp? c.value t⟩) := by
    intro i c ts
    induction ts with
    | nil => exact fun _ _ => rfl
    | cons t rest ih =>
      intro e he hi
      rw [List.foldl_cons, lookUp_eq_note he hi, List.map_cons, note_cons e _ (rest.map _)]
      exact ih he hi
  have hrest : ∀ (done rest : List WorkingCopy) {e : Desk}, e.cache = [] →
      e.copies = done ++ rest →
      (List.range' done.length rest.length).foldl
        (fun e i => transforms.foldl (fun e t => e.lookUp i t.1 t.2) e) e =
        e.note (asked transforms done.length rest) := by
    intro done rest
    induction rest generalizing done with
    | nil => exact fun _ _ => rfl
    | cons c rest ih =>
      intro e he hcopies
      have hc : e.copies[done.length]? = some c := by
        rw [hcopies, List.getElem?_append_right (Nat.le_refl _), Nat.sub_self]
        rfl
      have hdone : done.length + 1 = (done ++ [c]).length := by simp
      rw [List.length_cons, List.range'_succ, List.foldl_cons, hcopy transforms he hc, asked,
        List.zipIdx_cons, List.flatMap_cons, note_append, hdone]
      exact ih (done ++ [c]) he (hcopies.trans (List.append_cons ..))
  have hall := hrest [] d.copies hcache rfl
  rwa [List.length_nil, ← List.range_eq_range'] at hall

/-- A call fails with the fault it had, or the first fault of its look-ups. -/
theorem find?_foldl_withFault (call : Nat) (fs : List (Nat × Fault)) :
    ∀ faults : List (Nat × Fault), Entries.find? call (fs.foldl withFault faults) =
      (Entries.find? call faults).or (Entries.find? call fs) := by
  induction fs with
  | nil => exact fun faults => (Option.or_none).symm
  | cons e rest ih =>
    obtain ⟨other, f⟩ := e
    intro faults
    rw [List.foldl_cons, ih, withFault, Entries.has, Entries.find?_cons]
    by_cases h : other = call
    · subst h
      rw [if_pos rfl]
      cases hfind : Entries.find? other faults with
      | some g => simp [hfind]
      | none => simp
    · rw [if_neg h]
      split
      · rfl
      · rw [Entries.find?_put_other (Ne.symm h)]

/-! ## Applying -/

end Desk

namespace Run

/-- What a run's transform is given besides its input. -/
def criteria (copies : List WorkingCopy) (r : Run) : Value :=
  ((r.copies.head?.bind fun i => copies[i]?).map WorkingCopy.value).getD .null

/-- A run that is applied, and the next free mark. -/
def applied (copies : List WorkingCopy) (next : Nat) (r : Run) : Run × Nat :=
  match r.transform.apply r.input (r.criteria copies) with
  | .error f => ({ r with outcome := some (.error f) }, next)
  | .ok v => ({ r with outcome := some (.ok (v.settled next).1) }, (v.settled next).2)

/-- Runs that are applied one after another, and the next free mark. -/
def applyEach (copies : List WorkingCopy) : Nat → List Run → List Run × Nat
  | next, [] => ([], next)
  | next, r :: rest =>
    ((r.applied copies next).1 :: (applyEach copies (r.applied copies next).2 rest).1,
      (applyEach copies (r.applied copies next).2 rest).2)

theorem applied_copies (copies : List WorkingCopy) (next : Nat) (r : Run) :
    (r.applied copies next).1.copies = r.copies := by
  unfold applied
  split <;> rfl

theorem applied_key (copies : List WorkingCopy) (next : Nat) (r : Run) :
    (r.applied copies next).1.key = r.key := by
  unfold applied
  split <;> rfl

theorem length_applyEach (copies : List WorkingCopy) (runs : List Run) :
    ∀ next, (applyEach copies next runs).1.length = runs.length := by
  induction runs with
  | nil => exact fun _ => rfl
  | cons r rest ih => exact fun next => congrArg (· + 1) (ih _)

/-- The hands of runs, numbered from a first one on: each copy that waits gets the outcome. -/
def hands (first : Nat) (runs : List Run) : List (Nat × Nat) :=
  (runs.zipIdx first).flatMap fun (r, j) => r.copies.map fun i => (j, i)

end Run

namespace Desk

theorem compute_eq {d : Desk} {j : Nat} {r : Run} (h : d.runs[j]? = some r) :
    d.compute j = { d with
      runs := d.runs.set j (r.applied d.copies d.nextMark).1
      nextMark := (r.applied d.copies d.nextMark).2 } := by
  rw [compute, h]
  dsimp only
  rw [Run.applied, Run.criteria]
  generalize r.transform.apply r.input _ = result
  cases result <;> rfl

theorem foldl_compute (done rest : List Run) : ∀ {d : Desk}, d.runs = done ++ rest →
    (List.range' done.length rest.length).foldl compute d = { d with
      runs := done ++ (Run.applyEach d.copies d.nextMark rest).1
      nextMark := (Run.applyEach d.copies d.nextMark rest).2 } := by
  induction rest generalizing done with
  | nil =>
    intro d h
    rw [Run.applyEach, ← h]
    rfl
  | cons r rest ih =>
    intro d h
    have hr : d.runs[done.length]? = some r := by
      rw [h, List.getElem?_append_right (Nat.le_refl _), Nat.sub_self]
      rfl
    have hset : ∀ r', d.runs.set done.length r' = (done ++ [r']) ++ rest := fun r' => by
      rw [h, List.set_append_right _ _ (Nat.le_refl _), Nat.sub_self, List.append_assoc]
      rfl
    have hdone : ∀ r' : Run, done.length + 1 = (done ++ [r']).length := fun _ => by simp
    rw [List.length_cons, List.range'_succ, List.foldl_cons, compute_eq hr, hset,
      hdone (r.applied d.copies d.nextMark).1, ih _ rfl, Run.applyEach]
    simp only [List.append_assoc, List.singleton_append]

/-! ## Handing -/

/-- Hands one after another. -/
def handAll (d : Desk) (hands : List (Nat × Nat)) : Desk :=
  hands.foldl (fun d h => d.hand h.1 h.2) d

theorem apply_waiting (d : Desk) (i : Nat) (w : Write) :
    (d.apply i w).runs.map Run.copies = d.runs.map Run.copies := by
  rw [apply, List.map_map]
  rfl

theorem hand_waiting (d : Desk) (j i : Nat) :
    (d.hand j i).runs.map Run.copies = d.runs.map Run.copies := by
  rw [hand]
  split
  · rfl
  · split
    · rw [put]
      split
      · rfl
      · split
        · exact apply_waiting ..
        · rfl
    · cases d.copies[i]? with
      | none => rfl
      | some c =>
        rw [Option.map_some, Option.getD_some, fail_eq]
    · rfl

theorem deliver_eq {d : Desk} {j : Nat} {waiting : List Nat}
    (h : (d.runs.map Run.copies)[j]? = some waiting) :
    d.deliver false j = d.handAll (waiting.map fun i => (j, i)) := by
  rw [List.getElem?_map] at h
  obtain ⟨r, hr, rfl⟩ := Option.map_eq_some_iff.mp h
  rw [deliver, hr, handAll, List.foldl_map]
  rfl

theorem handAll_waiting (hs : List (Nat × Nat)) : ∀ d : Desk,
    (d.handAll hs).runs.map Run.copies = d.runs.map Run.copies := by
  induction hs with
  | nil => exact fun _ => rfl
  | cons h rest ih => exact fun d => (ih _).trans (hand_waiting ..)

theorem foldl_deliver (done rest : List Run) : ∀ {d : Desk},
    d.runs.map Run.copies = (done ++ rest).map Run.copies →
    (List.range' done.length rest.length).foldl (deliver false) d =
      d.handAll (Run.hands done.length rest) := by
  induction rest generalizing done with
  | nil => exact fun _ => rfl
  | cons r rest ih =>
    intro d h
    have hr : (d.runs.map Run.copies)[done.length]? = some r.copies := by
      rw [h, List.getElem?_map, List.getElem?_append_right (Nat.le_refl _), Nat.sub_self]
      rfl
    have hdone : done.length + 1 = (done ++ [r]).length := by simp
    rw [List.length_cons, List.range'_succ, List.foldl_cons, deliver_eq hr, hdone,
      ih (done ++ [r]) (by rw [handAll_waiting, h, List.append_assoc]; rfl), Run.hands, Run.hands,
      List.zipIdx_cons, List.flatMap_cons, ← hdone, handAll, handAll, handAll, List.foldl_append]

theorem ofRound_zero {pauses : List Nat} (h : ∀ p ∈ pauses, p = 0) : ∀ j,
    Event.ofRound 0 j pauses = (List.range' j pauses.length).map Event.compute ∧
      Event.ofRound 1 j pauses = (List.range' j pauses.length).map Event.deliver := by
  induction pauses with
  | nil => exact fun _ => ⟨rfl, rfl⟩
  | cons p rest ih =>
    intro j
    obtain ⟨rfl, hrest⟩ := List.forall_mem_cons.mp h
    obtain ⟨hcompute, hdeliver⟩ := ih hrest (j + 1)
    rw [Event.ofRound, Event.ofRound, hcompute, hdeliver, List.length_cons, List.range'_succ]
    exact ⟨rfl, rfl⟩

/-- Runs that do not pause are all applied before any is delivered. -/
theorem agenda_eq {pauses : List Nat} (h : ∀ p ∈ pauses, p = 0) :
    Event.agenda pauses = (List.range' 0 pauses.length).map Event.compute ++
      (List.range' 0 pauses.length).map Event.deliver := by
  have hmax : pauses.foldl max 0 = 0 := by
    induction pauses with
    | nil => rfl
    | cons p rest ih =>
      obtain ⟨rfl, hrest⟩ := List.forall_mem_cons.mp h
      exact ih hrest
  obtain ⟨hcompute, hdeliver⟩ := ofRound_zero h 0
  rw [Event.agenda, hmax, ← hcompute, ← hdeliver]
  simp [List.range_succ]

/-- **All runs are applied, and then their outcomes handed out.** -/
theorem finish_eq {d : Desk} (h : ∀ r ∈ d.runs, r.transform.pauses = 0) :
    d.finish false = handAll { d with
      runs := (Run.applyEach d.copies d.nextMark d.runs).1
      nextMark := (Run.applyEach d.copies d.nextMark d.runs).2 }
      (Run.hands 0 (Run.applyEach d.copies d.nextMark d.runs).1) := by
  have hpauses : ∀ p ∈ d.runs.map fun r => r.transform.pauses, p = 0 := by
    intro p hp
    obtain ⟨r, hr, rfl⟩ := List.mem_map.mp hp
    exact h r hr
  have happly := foldl_compute [] d.runs (d := d) rfl
  rw [finish, agenda_eq hpauses, List.length_map, List.foldl_append, List.foldl_map, List.foldl_map]
  simp only [step]
  rw [List.length_nil, List.nil_append] at happly
  rw [happly]
  have hdeliver := foldl_deliver [] (Run.applyEach d.copies d.nextMark d.runs).1
    (d := { d with
      runs := (Run.applyEach d.copies d.nextMark d.runs).1
      nextMark := (Run.applyEach d.copies d.nextMark d.runs).2 }) rfl
  rwa [List.length_nil, Run.length_applyEach] at hdeliver

end Desk

end Verdict
