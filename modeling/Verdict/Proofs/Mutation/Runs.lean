import Verdict.Proofs.Mutation.Plain

/-!
# Proofs/Mutation/Runs — which runs are started, and what they come to

    requests ──enroll──▸ runs ──apply──▸ outcomes ──▸ errands of each copy

A run is started by the first request for its key, and every later one waits for it
(`Run.ComesFrom`); so a copy waits once for each of its requests (`Run.keysFor_enrollAll`).  Runs whose
keys only one copy asks for are the runs of that copy alone, with other marks (`Run.applyEach_moved`).
-/

namespace Verdict

/-- A request of a copy for the field under a key. -/
abbrev Request := Nat × CacheKey × Field

namespace Desk

variable {i : Nat} {key : CacheKey} {runs : List Run}

/-- The runs after requests, one after another. -/
def enrollAll (qs : List Request) (runs : List Run) : List Run :=
  qs.foldl (fun runs q => enroll q.1 q.2 runs) runs

theorem join?_eq_none_iff : join? i key runs = none ↔ ∀ r ∈ runs, r.key ≠ key := by
  induction runs with
  | nil => simp [join?]
  | cons r rest ih =>
    rw [join?, List.forall_mem_cons]
    split
    · next hkey => simp [hkey]
    · next hkey => rw [Option.map_eq_none_iff, ih, and_iff_right hkey]

/-- Where there is a run for a key, the first one is joined. -/
theorem exists_of_join? : ∀ {runs joined : List Run}, join? i key runs = some joined →
    ∃ before r after, runs = before ++ r :: after ∧ (∀ r' ∈ before, r'.key ≠ key) ∧ r.key = key ∧
      joined = before ++ { r with copies := r.copies ++ [i] } :: after
  | [], _, h => by cases h
  | r :: rest, joined, h => by
    rw [join?] at h
    split at h
    · next hkey =>
      obtain rfl := Option.some.inj h
      exact ⟨[], r, rest, rfl, List.forall_mem_nil _, hkey, rfl⟩
    · next hkey =>
      obtain ⟨joined', hjoin, rfl⟩ := Option.map_eq_some_iff.mp h
      obtain ⟨before, r', after, rfl, hbefore, hr', rfl⟩ := exists_of_join? hjoin
      exact ⟨r :: before, r', after, rfl, List.forall_mem_cons.mpr ⟨hkey, hbefore⟩, hr', rfl⟩

/-- **A request joins the run of its key, or starts one.** -/
theorem enroll_cases (i : Nat) (q : CacheKey × Field) (runs : List Run) :
    ((∀ r ∈ runs, r.key ≠ q.1) ∧
      enroll i q runs = runs ++ [⟨q.1, q.2.transform, [i], q.2.input, none⟩]) ∨
    ∃ before r after, runs = before ++ r :: after ∧ (∀ r' ∈ before, r'.key ≠ q.1) ∧ r.key = q.1 ∧
      enroll i q runs = before ++ { r with copies := r.copies ++ [i] } :: after := by
  cases hjoin : join? i q.1 runs with
  | none =>
    exact .inl ⟨join?_eq_none_iff.mp hjoin, by rw [enroll, hjoin]; rfl⟩
  | some joined =>
    obtain ⟨before, r, after, hruns, hbefore, hkey, rfl⟩ := exists_of_join? hjoin
    exact .inr ⟨before, r, after, hruns, hbefore, hkey, by rw [enroll, hjoin]; rfl⟩

theorem enroll_new {q : CacheKey × Field} (h : ∀ r ∈ runs, r.key ≠ q.1) :
    enroll i q runs = runs ++ [⟨q.1, q.2.transform, [i], q.2.input, none⟩] := by
  rw [enroll, join?_eq_none_iff.mpr h]
  rfl

theorem enroll_joined {q : CacheKey × Field} {before after : List Run} {r : Run}
    (hbefore : ∀ r' ∈ before, r'.key ≠ q.1) (hr : r.key = q.1) :
    enroll i q (before ++ r :: after) =
      before ++ { r with copies := r.copies ++ [i] } :: after := by
  have hjoin : join? i q.1 (before ++ r :: after) =
      some (before ++ { r with copies := r.copies ++ [i] } :: after) := by
    induction before with
    | nil => rw [List.nil_append, join?, if_pos hr, List.nil_append]
    | cons r' rest ih =>
      obtain ⟨hr', hrest⟩ := List.forall_mem_cons.mp hbefore
      rw [List.cons_append, join?, if_neg hr', ih hrest]
      rfl
  rw [enroll, hjoin]
  rfl

/-- Requests for other keys pass runs by. -/
theorem filter_enrollAll (p : CacheKey → Bool) (qs : List Request) : ∀ runs : List Run,
    (enrollAll qs runs).filter (fun r => p r.key) =
      enrollAll (qs.filter fun q => p q.2.1) (runs.filter fun r => p r.key) := by
  induction qs with
  | nil => exact fun _ => rfl
  | cons q rest ih =>
    intro runs
    have hstep : (enroll q.1 q.2 runs).filter (fun r => p r.key) =
        if p q.2.1 then enroll q.1 q.2 (runs.filter fun r => p r.key)
        else runs.filter fun r => p r.key := by
      rcases enroll_cases q.1 q.2 runs with ⟨hnew, heq⟩ |
        ⟨before, r, after, rfl, hbefore, hkey, heq⟩ <;> rw [heq]
      · have hnew' : ∀ r ∈ runs.filter (fun r => p r.key), r.key ≠ q.2.1 := fun r hr =>
          hnew r (List.mem_filter.mp hr).1
        rw [List.filter_append, enroll_new hnew']
        split <;> simp [*]
      · have hbefore' : ∀ r' ∈ before.filter (fun r => p r.key), r'.key ≠ q.2.1 := fun r' hr' =>
          hbefore r' (List.mem_filter.mp hr').1
        rw [List.filter_append, List.filter_append]
        by_cases hp : p q.2.1 = true
        · rw [if_pos hp, List.filter_cons_of_pos (by rwa [hkey]),
            List.filter_cons_of_pos (by rwa [hkey]), enroll_joined hbefore' hkey]
        · rw [if_neg hp, List.filter_cons_of_neg (by rwa [hkey]),
            List.filter_cons_of_neg (by rwa [hkey])]
    rw [enrollAll, List.foldl_cons, ← enrollAll, ih, hstep, List.filter_cons]
    split <;> rfl

end Desk

namespace Run

open Desk

/-! ## Where runs come from -/

/-- A run that was started by a request, and for which only requests for its key wait. -/
structure ComesFrom (qs : List Request) (r : Run) : Prop where
  start : ∃ q ∈ qs, r.copies.head? = some q.1 ∧ r.key = q.2.1 ∧ r.transform = q.2.2.transform ∧
    r.input = q.2.2.input
  waiting : ∀ i ∈ r.copies, ∃ q ∈ qs, q.1 = i ∧ q.2.1 = r.key
  outcome : r.outcome = none

theorem ComesFrom.join {qs : List Request} {r : Run} (h : r.ComesFrom qs) {q : Request}
    (hq : q ∈ qs) (hkey : r.key = q.2.1) :
    ComesFrom qs { r with copies := r.copies ++ [q.1] } := by
  obtain ⟨q', hq', hhead, hstart⟩ := h.start
  refine ⟨⟨q', hq', ?_, hstart⟩, fun i hi => ?_, h.outcome⟩
  · rw [List.head?_append, hhead]
    rfl
  · rcases List.mem_append.mp hi with hi | hi
    · exact h.waiting i hi
    · exact ⟨q, hq, (List.mem_singleton.mp hi).symm, hkey.symm⟩

theorem comesFrom_enrollAll {qs : List Request} (rest : List Request) (hrest : rest ⊆ qs) :
    ∀ {runs : List Run}, (∀ r ∈ runs, r.ComesFrom qs) → ∀ r ∈ enrollAll rest runs, r.ComesFrom qs := by
  induction rest with
  | nil => exact fun h => h
  | cons q rest ih =>
    intro runs h
    obtain ⟨hq, hrest⟩ := List.cons_subset.mp hrest
    refine ih hrest ?_
    dsimp only
    rcases enroll_cases q.1 q.2 runs with ⟨-, heq⟩ | ⟨before, r, after, rfl, -, hkey, heq⟩ <;>
      rw [heq] <;> intro r' hr' <;> rcases List.mem_append.mp hr' with hr' | hr'
    · exact h r' hr'
    · obtain rfl := List.mem_singleton.mp hr'
      exact ⟨⟨q, hq, rfl, rfl, rfl, rfl⟩, fun i hi => ⟨q, hq, (List.mem_singleton.mp hi).symm, rfl⟩,
        rfl⟩
    · exact h r' (List.mem_append_left _ hr')
    · rcases List.mem_cons.mp hr' with rfl | hr'
      · exact (h r (List.mem_append_right _ (List.mem_cons_self ..))).join hq hkey
      · exact h r' (List.mem_append_right _ (List.mem_cons_of_mem _ hr'))

/-- The keys of the runs that a copy waits for. -/
def keysFor (i : Nat) (runs : List Run) : List CacheKey :=
  runs.flatMap fun r => (r.copies.filter (· = i)).map fun _ => r.key

theorem keysFor_append (i : Nat) (runs runs' : List Run) :
    keysFor i (runs ++ runs') = keysFor i runs ++ keysFor i runs' := List.flatMap_append

/-- **A copy waits once for each of its requests.** -/
theorem keysFor_enrollAll (i : Nat) (qs : List Request) : ∀ runs : List Run,
    (keysFor i (enrollAll qs runs)).Perm
      (keysFor i runs ++ (qs.filter (·.1 = i)).map fun q => q.2.1) := by
  induction qs with
  | nil => exact fun runs => List.Perm.of_eq (List.append_nil _).symm
  | cons q rest ih =>
    intro runs
    have hstep : (keysFor i (enroll q.1 q.2 runs)).Perm
        (keysFor i runs ++ if q.1 = i then [q.2.1] else []) := by
      rcases enroll_cases q.1 q.2 runs with ⟨-, heq⟩ | ⟨before, r, after, rfl, -, hkey, heq⟩ <;>
        rw [heq]
      · rw [keysFor_append]
        split <;> simp [keysFor, *]
      · have hr : keysFor i ({ r with copies := r.copies ++ [q.1] } :: after) =
            ((r.copies.filter (· = i)).map fun _ => r.key) ++
              ((if q.1 = i then [q.2.1] else []) ++ keysFor i after) := by
          rw [keysFor, List.flatMap_cons, List.filter_append, List.map_append, List.append_assoc,
            hkey]
          split <;> simp [keysFor, *]
        rw [keysFor_append, keysFor_append, hr, List.append_assoc]
        refine List.Perm.append_left _ ?_
        have hbefore : keysFor i (r :: after) =
            ((r.copies.filter (· = i)).map fun _ => r.key) ++ keysFor i after := List.flatMap_cons
        rw [hbefore, List.append_assoc]
        exact List.Perm.append_left _ List.perm_append_comm
    refine (ih _).trans ((hstep.append_right _).trans ?_)
    rw [List.append_assoc]
    refine List.Perm.append_left _ (List.Perm.of_eq ?_)
    by_cases h : q.1 = i <;> simp [h]

/-! ## What runs come to -/

/-- The outcome that a run has for a copy, under the name of its field. -/
def errandsOf (i : Nat) (r : Run) : List (String × Value) :=
  match r.outcome with
  | some (.ok v) => (r.copies.filter (· = i)).map fun _ => (r.key.1, v)
  | _ => []

/-- The outcomes that runs have for a copy. -/
def errandsFor (i : Nat) (runs : List Run) : List (String × Value) := runs.flatMap (errandsOf i)

theorem errandsFor_cons (i : Nat) (r : Run) (rest : List Run) :
    errandsFor i (r :: rest) = errandsOf i r ++ errandsFor i rest := List.flatMap_cons

theorem filter_copies_of_not_mem {i : Nat} {r : Run} (h : i ∉ r.copies) :
    r.copies.filter (· = i) = [] :=
  List.filter_eq_nil_iff.mpr fun _ hc heq => h (of_decide_eq_true heq ▸ hc)

theorem errandsOf_of_not_mem {i : Nat} {r : Run} (h : i ∉ r.copies) : errandsOf i r = [] := by
  rw [errandsOf, filter_copies_of_not_mem h]
  split <;> rfl

theorem exists_of_mem_errandsFor {i : Nat} {runs : List Run} {e : String × Value}
    (h : e ∈ errandsFor i runs) :
    ∃ r ∈ runs, i ∈ r.copies ∧ e.1 = r.key.1 ∧ r.outcome = some (.ok e.2) := by
  obtain ⟨r, hr, he⟩ := List.mem_flatMap.mp h
  rw [errandsOf] at he
  split at he
  · next v hv =>
    obtain ⟨j, hj, rfl⟩ := List.mem_map.mp he
    obtain ⟨hmem, hji⟩ := List.mem_filter.mp hj
    exact ⟨r, hr, of_decide_eq_true hji ▸ hmem, rfl, hv⟩
  · cases he

/-- A copy gets an outcome as often as it waits for it. -/
theorem filterMap_copies (o : Option (String × Value)) (i : Nat) (copies : List Nat) :
    copies.filterMap (fun c => if c = i then o else none) =
      o.elim [] fun e => (copies.filter (· = i)).map fun _ => e := by
  induction copies with
  | nil => cases o <;> rfl
  | cons c copies ih => by_cases hc : c = i <;> cases o <;> simp_all

theorem errands_hands (d : Desk) (i : Nat) : d.errands i (hands 0 d.runs) = errandsFor i d.runs := by
  suffices h : ∀ done rest : List Run, d.runs = done ++ rest →
      d.errands i (hands done.length rest) = errandsFor i rest from h [] d.runs rfl
  intro done rest
  induction rest generalizing done with
  | nil => exact fun _ => rfl
  | cons r rest ih =>
    intro hruns
    have hr : d.runs[done.length]? = some r := by
      rw [hruns, List.getElem?_append_right (Nat.le_refl _), Nat.sub_self]
      rfl
    have hdone : done.length + 1 = (done ++ [r]).length := by simp
    have hrest := ih (done ++ [r]) (hruns.trans (List.append_cons ..))
    rw [hands, List.zipIdx_cons, List.flatMap_cons, Desk.errands, List.filterMap_append,
      errandsFor_cons]
    refine congr (congrArg _ ?_) (by rw [hdone]; exact hrest)
    rw [List.filterMap_map]
    refine (filterMap_copies (d.errand? done.length) i r.copies).trans ?_
    rw [Desk.errand?_eq hr]
    rcases r with ⟨key, t, copies, input, _ | (f | v)⟩ <;> rfl

/-- Runs that a copy does not wait for have nothing for it. -/
theorem errandsFor_filter {i : Nat} {p : CacheKey → Bool} {runs : List Run}
    (h : ∀ r ∈ runs, i ∈ r.copies → p r.key = true) :
    errandsFor i (runs.filter fun r => p r.key) = errandsFor i runs := by
  induction runs with
  | nil => rfl
  | cons r rest ih =>
    obtain ⟨hr, hrest⟩ := List.forall_mem_cons.mp h
    by_cases hp : p r.key = true
    · rw [List.filter_cons_of_pos (p := fun r : Run => p r.key) hp, errandsFor_cons, ih hrest,
        errandsFor_cons]
    · rw [List.filter_cons_of_neg (p := fun r : Run => p r.key) hp, ih hrest, errandsFor_cons,
        errandsOf_of_not_mem fun hi => hp (hr hi), List.nil_append]

/-- What a copy gets, said by the keys it waits for. -/
theorem map_errandsFor {i : Nat} {runs : List Run} {content : CacheKey → Value}
    (h : ∀ r ∈ runs, i ∈ r.copies → ∃ v, r.outcome = some (.ok v) ∧ v.unmarked = content r.key) :
    (errandsFor i runs).map (fun e => (e.1, e.2.unmarked)) =
      (keysFor i runs).map fun key => (key.1, content key) := by
  induction runs with
  | nil => rfl
  | cons r rest ih =>
    obtain ⟨hr, hrest⟩ := List.forall_mem_cons.mp h
    rw [errandsFor_cons, keysFor, List.flatMap_cons, List.map_append, List.map_append]
    refine congr (congrArg _ ?_) (ih hrest)
    by_cases hi : i ∈ r.copies
    · obtain ⟨v, hv, hcontent⟩ := hr hi
      rw [errandsOf, hv]
      simp only [List.map_map]
      exact List.map_congr_left fun _ _ => congrArg (Prod.mk r.key.1) hcontent
    · rw [errandsOf_of_not_mem hi, filter_copies_of_not_mem hi]
      rfl

theorem le_applied (copies : List WorkingCopy) (next : Nat) (r : Run) :
    next ≤ (r.applied copies next).2 := by
  unfold applied
  split
  · exact Nat.le_refl _
  · exact (Value.marks_settled _ _).1

theorem applied_of_ok {copies : List WorkingCopy} {next : Nat} {r : Run} {a : Value}
    (h : r.transform.apply r.input (r.criteria copies) = .ok a) :
    r.applied copies next =
      ({ r with outcome := some (.ok (a.settled next).1) }, (a.settled next).2) := by
  rw [applied, h]

theorem criteria_of_head {copies : List WorkingCopy} {r : Run} {i : Nat} {c : WorkingCopy}
    (hhead : r.copies.head? = some i) (hc : copies[i]? = some c) : r.criteria copies = c.value := by
  rw [criteria, hhead, Option.bind_some, hc]
  rfl

/-- Runs that are applied wait as they did. -/
theorem waiting_applyEach (copies : List WorkingCopy) (runs : List Run) : ∀ next,
    (applyEach copies next runs).1.map (fun r => (r.key, r.copies)) =
      runs.map fun r => (r.key, r.copies) := by
  induction runs with
  | nil => exact fun _ => rfl
  | cons r rest ih =>
    intro next
    rw [applyEach, List.map_cons, List.map_cons, ih, applied_key, applied_copies]

theorem keysFor_applyEach (i : Nat) (copies : List WorkingCopy) (next : Nat) (runs : List Run) :
    keysFor i (applyEach copies next runs).1 = keysFor i runs := by
  have hkeys : ∀ runs : List Run, keysFor i runs = (runs.map fun r => (r.key, r.copies)).flatMap
      fun w => (w.2.filter (· = i)).map fun _ => w.1 := fun runs => by
    rw [List.flatMap_map]
    rfl
  rw [hkeys, hkeys, waiting_applyEach]

/-- Each run comes to what its transform answers, with marks that are in use or its own.  Marks are
assigned to the copies that the runs started from. -/
theorem outcome_applyEach (copies : List WorkingCopy) {Z : Nat → Nat → Prop} (runs : List Run) :
    ∀ (next : Nat) (owner : Nat → Nat), (∀ h n, Z h n → n < next) →
    (∀ r ∈ runs, ∃ h a, r.copies.head? = some h ∧
      r.transform.apply r.input (r.criteria copies) = .ok a ∧
      ∀ n ∈ a.marks, n < next ∧ owner n = h ∧ ¬ Z h n) →
    ∃ owner' : Nat → Nat, (∀ n < next, owner' n = owner n) ∧
      ∀ r' ∈ (applyEach copies next runs).1, ∃ r ∈ runs, ∃ h a v, r.copies.head? = some h ∧
        r.transform.apply r.input (r.criteria copies) = .ok a ∧
        r' = { r with outcome := some (.ok v) } ∧ v.unmarked = a.unmarked ∧
        ∀ n ∈ v.marks, owner' n = h ∧ ¬ Z h n := by
  induction runs with
  | nil => exact fun _ _ _ _ => ⟨_, fun _ _ => rfl, List.forall_mem_nil _⟩
  | cons r rest ih =>
    intro next owner hZ h
    obtain ⟨⟨i, a, hhead, ha, hmarks⟩, hrest⟩ := List.forall_mem_cons.mp h
    obtain ⟨hnext, hsettled⟩ := Value.marks_settled next a
    obtain ⟨owner', howner, hruns⟩ := ih (a.settled next).2
      (fun n => if n < next then owner n else i)
      (fun h n hn => Nat.lt_of_lt_of_le (hZ h n hn) hnext) fun r' hr' => by
        obtain ⟨i', a', hhead', ha', hmarks'⟩ := hrest r' hr'
        refine ⟨i', a', hhead', ha', fun n hn => ?_⟩
        obtain ⟨hlt, howner, hZn⟩ := hmarks' n hn
        exact ⟨Nat.lt_of_lt_of_le hlt hnext, (if_pos hlt).trans howner, hZn⟩
    refine ⟨owner', fun n hn => (howner n (Nat.lt_of_lt_of_le hn hnext)).trans (if_pos hn), ?_⟩
    rw [applyEach, applied_of_ok ha]
    refine List.forall_mem_cons.mpr ⟨?_, fun r' hr' => ?_⟩
    · refine ⟨r, List.mem_cons_self .., i, a, _, hhead, ha, rfl, Value.unmarked_settled a,
        fun n hn => ?_⟩
      rcases hsettled n hn with hn | ⟨hge, hlt⟩
      · obtain ⟨hlt, hownern, hZn⟩ := hmarks n hn
        exact ⟨(howner n (Nat.lt_of_lt_of_le hlt hnext)).trans ((if_pos hlt).trans hownern), hZn⟩
      · exact ⟨(howner n hlt).trans (if_neg (Nat.not_lt.mpr hge)),
          fun hZn => Nat.not_lt.mpr hge (hZ i n hZn)⟩
    · obtain ⟨r'', hmem, hfound⟩ := hruns r' hr'
      exact ⟨r'', List.mem_cons_of_mem _ hmem, hfound⟩

/-! ## Runs of one copy, moved to another place -/

/-- A run moved to another copy, with other marks. -/
def moved (i : Nat) (ρ : Nat → Nat) (r : Run) : Run :=
  { r with
    copies := r.copies.map fun _ => i
    input := r.input.rename ρ
    outcome := r.outcome.map fun o => o.map (Value.rename ρ) }

end Run

/-- A field with other marks. -/
def Field.rename (ρ : Nat → Nat) (f : Field) : Field := { f with input := f.input.rename ρ }

namespace Run

open Desk

variable {i : Nat} {ρ : Nat → Nat}

theorem enroll_moved (q : Request) (runs : List Run) :
    enroll i (q.2.1, q.2.2.rename ρ) (runs.map (moved i ρ)) =
      (enroll q.1 q.2 runs).map (moved i ρ) := by
  have hkeys : ∀ {rs : List Run}, (∀ r ∈ rs, r.key ≠ q.2.1) →
      ∀ r ∈ rs.map (moved i ρ), r.key ≠ q.2.1 := fun h => List.forall_mem_map.mpr h
  rcases enroll_cases q.1 q.2 runs with ⟨hnew, heq⟩ |
    ⟨before, r, after, rfl, hbefore, hkey, heq⟩ <;> rw [heq]
  · rw [enroll_new (q := (q.2.1, q.2.2.rename ρ)) (hkeys hnew), List.map_append]
    rfl
  · rw [List.map_append, List.map_cons,
      enroll_joined (q := (q.2.1, q.2.2.rename ρ)) (r := moved i ρ r) (hkeys hbefore) hkey,
      List.map_append, List.map_cons]
    simp [moved]

theorem enrollAll_moved (qs : List Request) : ∀ runs : List Run,
    enrollAll (qs.map fun q => (i, q.2.1, q.2.2.rename ρ)) (runs.map (moved i ρ)) =
      (enrollAll qs runs).map (moved i ρ) := by
  induction qs with
  | nil => exact fun _ => rfl
  | cons q rest ih =>
    intro runs
    rw [List.map_cons, enrollAll, List.foldl_cons, ← enrollAll, enroll_moved, ih]
    rfl

/-- Runs that are moved have moved outcomes for their copy. -/
theorem errandsFor_moved {k : Nat} {runs : List Run} (h : ∀ r ∈ runs, ∀ c ∈ r.copies, c = k) :
    errandsFor i (runs.map (moved i ρ)) = Value.renameErrands ρ (errandsFor k runs) := by
  induction runs with
  | nil => rfl
  | cons r rest ih =>
    obtain ⟨hr, hrest⟩ := List.forall_mem_cons.mp h
    have hall : r.copies.filter (· = k) = r.copies :=
      List.filter_eq_self.mpr fun c hc => decide_eq_true (hr c hc)
    have hall' : (r.copies.map fun _ => i).filter (· = i) = r.copies.map fun _ => i :=
      List.filter_eq_self.mpr fun c hc => by
        obtain ⟨_, -, rfl⟩ := List.mem_map.mp hc
        exact decide_eq_true rfl
    rw [List.map_cons, errandsFor_cons, ih hrest, errandsFor_cons, Value.renameErrands,
      Value.renameErrands, List.map_append]
    refine congrArg (· ++ _) ?_
    rcases r with ⟨key, t, copies, input, _ | (f | v)⟩
    · rfl
    · rfl
    · rw [errandsOf, errandsOf]
      dsimp only [moved, Option.map_some, Except.map]
      rw [hall', hall, List.map_map, List.map_map]
      rfl

/-- A run that the first copy started and that is still to be applied: its transform is plain and
answers, and its marks are not free. -/
structure IsReady (criteria : Value) (next : Nat) (r : Run) : Prop where
  head : r.copies.head? = some 0
  outcome : r.outcome = none
  plain : r.transform.IsPlain
  input : ∀ n ∈ r.input.marks, n < next
  answer : ∃ a, r.transform.apply r.input criteria = .ok a

theorem IsReady.mono {criteria : Value} {next later : Nat} {r : Run} (h : r.IsReady criteria next)
    (hle : next ≤ later) : r.IsReady criteria later :=
  ⟨h.head, h.outcome, h.plain, fun n hn => Nat.lt_of_lt_of_le (h.input n hn) hle, h.answer⟩

/-- The marks that a run holds are in use. -/
structure IsBelow (next : Nat) (r : Run) : Prop where
  input : ∀ n ∈ r.input.marks, n < next
  outcome : ∀ v, r.outcome = some (.ok v) → ∀ n ∈ v.marks, n < next

theorem IsReady.isBelow {criteria : Value} {next : Nat} {r : Run} (h : r.IsReady criteria next) :
    r.IsBelow next :=
  ⟨h.input, fun v hv => by rw [h.outcome] at hv; cases hv⟩

/-- Where a run goes depends only on what becomes of its marks. -/
theorem moved_congr {next : Nat} {σ : Nat → Nat} {r : Run} (hr : r.IsBelow next)
    (h : ∀ n < next, ρ n = σ n) : r.moved i ρ = r.moved i σ := by
  obtain ⟨key, t, copies, input, outcome⟩ := r
  have hin : input.rename ρ = input.rename σ := Value.rename_congr fun n hn => h n (hr.input n hn)
  rw [moved, moved]
  dsimp only
  rw [hin]
  rcases outcome with _ | (f | v)
  · rfl
  · rfl
  · have hout : v.rename ρ = v.rename σ :=
      Value.rename_congr fun n hn => h n (hr.outcome v rfl n hn)
    dsimp only [Option.map_some, Except.map]
    rw [hout]

section Moved

variable {copies copies' : List WorkingCopy} {c c' : WorkingCopy} {next next' : Nat}

/-- A run that is ready answers, with marks in use. -/
theorem IsReady.exists_answer {r : Run} (hr : r.IsReady c.value next) (hc : copies[0]? = some c)
    (hbelow : ∀ n ∈ c.value.marks, n < next) :
    ∃ a, r.transform.apply r.input c.value = .ok a ∧ (∀ n ∈ a.marks, n < next) ∧
      r.applied copies next =
        ({ r with outcome := some (.ok (a.settled next).1) }, (a.settled next).2) := by
  obtain ⟨a, ha⟩ := hr.answer
  refine ⟨a, ha, fun n hn =>
    (hr.plain.ignoresMarks.mem_marks_apply ha hn).elim (hr.input n) (hbelow n), ?_⟩
  rw [applied_of_ok ((criteria_of_head hr.head hc).symm ▸ ha)]

theorem IsReady.isBelow_applied {r : Run} (hr : r.IsReady c.value next) (hc : copies[0]? = some c)
    (hbelow : ∀ n ∈ c.value.marks, n < next) :
    (r.applied copies next).1.IsBelow (r.applied copies next).2 := by
  obtain ⟨a, -, hamarks, happlied⟩ := hr.exists_answer hc hbelow
  obtain ⟨hle, hmarks⟩ := Value.marks_settled next a
  rw [happlied]
  refine ⟨fun n hn => Nat.lt_of_lt_of_le (hr.input n hn) hle, fun v hv n hn => ?_⟩
  obtain rfl := Except.ok.inj (Option.some.inj hv)
  exact (hmarks n hn).elim (fun hn => Nat.lt_of_lt_of_le (hamarks n hn) hle) And.right

/-- **A moved run comes to the same**: its marks go where they went before, and new ones to free ones. -/
theorem applied_moved (hc : copies[0]? = some c) (hc' : copies'[i]? = some c') {r : Run}
    (hr : r.IsReady c.value next) (hvalue : c'.value = c.value.rename ρ)
    (hbelow : ∀ n ∈ c.value.marks, n < next) (hρ : Function.Injective ρ)
    (hnext : ∀ n < next, ρ n < next') :
    ∃ ρ₁ : Nat → Nat, Function.Injective ρ₁ ∧ (∀ n < next, ρ₁ n = ρ n) ∧
      (∀ n < (r.applied copies next).2, ρ₁ n < ((r.moved i ρ).applied copies' next').2) ∧
      ((r.moved i ρ).applied copies' next').1 = (r.applied copies next).1.moved i ρ₁ := by
  obtain ⟨a, ha, hamarks, happlied⟩ := hr.exists_answer hc hbelow
  have hcriteria' : (r.moved i ρ).criteria copies' = c'.value :=
    criteria_of_head (by rw [moved, List.head?_map, hr.head, Option.map_some]) hc'
  -- The new renaming takes the marks of the new containers along.
  let ρ₁ := Value.graft ρ next next'
  have hgraft : ∀ {v : Value}, (∀ n ∈ v.marks, n < next) → v.rename ρ = v.rename ρ₁ :=
    fun hv => Value.rename_congr fun n hn => (Value.graft_of_lt (hv n hn)).symm
  have ha' : (r.moved i ρ).transform.apply (r.moved i ρ).input
      ((r.moved i ρ).criteria copies') = .ok (a.rename ρ₁) := by
    rw [hcriteria', hvalue]
    refine (hr.plain.rename hρ r.input c.value).trans ?_
    rw [ha, ← hgraft hamarks]
    rfl
  have hsettled : ((a.rename ρ₁).settled next').1 = (a.settled next).1.rename ρ₁ :=
    (Value.settled_rename Value.takesFree_graft a).1
  rw [applied_of_ok ha', happlied]
  refine ⟨ρ₁, Value.graft_injective hρ hnext, fun n hn => Value.graft_of_lt hn,
    fun n hn => Value.graft_lt_settled hnext a hn, ?_⟩
  rw [hsettled, moved, moved, hgraft hr.input]
  rfl

/-- **Runs that only one copy asks for come to what they come to alone**, with other marks, whatever
other runs there are. -/
theorem applyEach_moved {p : CacheKey → Bool} (hc : copies[0]? = some c)
    (hc' : copies'[i]? = some c') (runs' : List Run) : ∀ (runs : List Run) {next next' : Nat}
    {ρ : Nat → Nat}, runs'.filter (fun r => p r.key) = runs.map (moved i ρ) →
    (∀ r ∈ runs, r.IsReady c.value next) → c'.value = c.value.rename ρ →
    (∀ n ∈ c.value.marks, n < next) → Function.Injective ρ → (∀ n < next, ρ n < next') →
    ∃ ρ' : Nat → Nat, Function.Injective ρ' ∧ (∀ n < next, ρ' n = ρ n) ∧
      (applyEach copies' next' runs').1.filter (fun r => p r.key) =
        (applyEach copies next runs).1.map (moved i ρ') := by
  -- By induction on all runs: one of the copy is the next of its own and extends the renaming, any
  -- other only takes marks.
  induction runs' with
  | nil =>
    intro runs next next' ρ hruns _ _ _ hρ _
    obtain rfl := List.map_eq_nil_iff.mp hruns.symm
    exact ⟨ρ, hρ, fun _ _ => rfl, rfl⟩
  | cons b rest ih =>
    intro runs next next' ρ hruns h hvalue hbelow hρ hnext
    by_cases hp : p b.key = true
    · rw [List.filter_cons_of_pos (p := fun r : Run => p r.key) hp] at hruns
      obtain ⟨r, later, rfl, rfl, hrest⟩ := List.map_eq_cons_iff.mp hruns.symm
      obtain ⟨hr, hlater⟩ := List.forall_mem_cons.mp h
      have hle := le_applied copies next r
      obtain ⟨ρ₁, hρ₁, hagree, hnext₁, happlied⟩ := applied_moved hc hc' hr hvalue hbelow hρ hnext
      have hmoved : later.map (moved i ρ) = later.map (moved i ρ₁) :=
        List.map_congr_left fun r' hr' =>
          moved_congr (hlater r' hr').isBelow fun n hn => (hagree n hn).symm
      obtain ⟨ρ', hρ', hagree', hruns'⟩ := ih later (hrest.symm.trans hmoved)
        (fun r' hr' => (hlater r' hr').mono hle)
        (hvalue.trans (Value.rename_congr fun n hn => (hagree n (hbelow n hn)).symm))
        (fun n hn => Nat.lt_of_lt_of_le (hbelow n hn) hle) hρ₁ hnext₁
      refine ⟨ρ', hρ', fun n hn => (hagree' n (Nat.lt_of_lt_of_le hn hle)).trans (hagree n hn), ?_⟩
      have hfirst : (r.applied copies next).1.moved i ρ₁ = (r.applied copies next).1.moved i ρ' :=
        moved_congr (hr.isBelow_applied hc hbelow) fun n hn => (hagree' n hn).symm
      have hkey : p ((r.moved i ρ).applied copies' next').1.key = true := by rwa [applied_key]
      rw [applyEach, applyEach, List.filter_cons_of_pos (p := fun r : Run => p r.key) hkey, hruns',
        happlied, hfirst]
      rfl
    · rw [List.filter_cons_of_neg (p := fun r : Run => p r.key) hp] at hruns
      obtain ⟨ρ', hρ', hagree, hruns'⟩ := ih runs hruns h hvalue hbelow hρ fun n hn =>
        Nat.lt_of_lt_of_le (hnext n hn) (le_applied copies' next' b)
      refine ⟨ρ', hρ', hagree, ?_⟩
      rw [applyEach, List.filter_cons_of_neg (p := fun r : Run => p r.key) (by rwa [applied_key]),
        hruns']

end Moved

end Run

end Verdict
