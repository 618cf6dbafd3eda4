import Mathlib.Data.List.Induction
import Verdict.Proofs.Mutation.Apart
import Verdict.Proofs.Mutation.Fields
import Verdict.Proofs.Mutation.LookUp

/-!
# Proofs/Mutation/Course — kept results beside fresh ones

    root ──look up──▸ kept answers are put in ──apply, keep, hand──▸ all answers are put in

Where fields do not get in each other's way (`Field.AreApart`) and the answer for a field is what its key
stands for (`Field.Course`), it does not matter which answers are kept and which are still to come: on
every desk on the way, the only copy is its root with some of the answers in their places
(`Desk.OnCourse`), and at the end with all of them (`Field.Course.finish`).
-/

namespace Verdict

/-- A value that holds what a key stands for, and no container that is written into. -/
structure IsAnswer (content : CacheKey → Value) (W : Nat → Prop) (next : Nat) (key : CacheKey)
    (v : Value) : Prop where
  holds : v.unmarked = content key
  marks : ∀ n ∈ v.marks, ¬ W n ∧ n < next

namespace IsAnswer

variable {content : CacheKey → Value} {W : Nat → Prop} {next later : Nat} {key : CacheKey} {v : Value}

theorem mono (h : IsAnswer content W next key v) (hle : next ≤ later) :
    IsAnswer content W later key v :=
  ⟨h.holds, fun n hn => ⟨(h.marks n hn).1, Nat.lt_of_lt_of_le (h.marks n hn).2 hle⟩⟩

theorem applyElsewhere_eq (h : IsAnswer content W next key v) {w : Write}
    (hw : ∀ p, w.before.mark = some p → W p) : w.applyElsewhere v = v :=
  Write.applyElsewhere_of_avoids fun p hp hmem => (h.marks p hmem).1 (hw p hp)

end IsAnswer

namespace Field

/-- Fields of which none notices what is put at the other ones: each path leads to what it led to. -/
def IsSteady (transforms : List (String × Transform)) (root : Value) : Prop :=
  ∀ errands : List (String × Value),
    (∀ e ∈ errands, ∃ q ∈ requests transforms root, q.2.name = e.1) →
    ∀ e ∈ transforms, e.1 ∉ errands.map Prod.fst →
      Path.resolve e.1 (Value.putEach (Path.place? · root) errands root) = Path.resolve e.1 root

/-- Fields of a root that do not get in each other's way. -/
structure AreApart (transforms : List (String × Transform)) (root : Value) : Prop where
  /-- Of the places of two fields, none is inside the other one. -/
  apart {q q' : CacheKey × Field} : q ∈ requests transforms root → q' ∈ requests transforms root →
    q.2.name ≠ q'.2.name → ∀ s ∈ Path.place? q.2.name root, ∀ s' ∈ Path.place? q'.2.name root,
      s.Apart s'
  /-- No field holds a container around another one. -/
  outside {q q' : CacheKey × Field} : q ∈ requests transforms root → q' ∈ requests transforms root →
    q.2.name ≠ q'.2.name → ∀ p, Path.IsInto q.2.name root p → p ∉ q'.2.input.marks
  steady : IsSteady transforms root

/-- The containers that fields are written into. -/
def IsAround (transforms : List (String × Transform)) (root : Value) (n : Nat) : Prop :=
  ∃ q ∈ requests transforms root, Path.IsInto q.2.name root n

/-- A root with fields that do not get in each other's way, and what their keys stand for: what the
transforms answer, whatever the criteria are, with containers of the root that are not written into. -/
structure Course (transforms : List (String × Transform)) (root : Value)
    (content : CacheKey → Value) : Prop where
  names : (transforms.map Prod.fst).Nodup
  once : root.marks.Nodup
  areApart : AreApart transforms root
  answers : ∀ q ∈ requests transforms root, ∀ criteria, ∃ a,
    q.2.transform.apply q.2.input criteria = .ok a ∧ a.unmarked = content q.1 ∧
      ∀ n ∈ a.marks, n ∈ root.marks ∧ ¬ IsAround transforms root n

/-- A root whose fields have places spread over it, and what their keys stand for: what the transforms
answer, whatever the criteria are, with containers that are not written into and not newer than those of
the root. -/
structure Spread (transforms : List (String × Transform)) (root : Value)
    (content : CacheKey → Value) : Prop where
  names : (transforms.map Prod.fst).Nodup
  once : ∀ p, IsAround transforms root p → root.marks.count p = 1
  /-- Of the places of two fields, none is inside the other one. -/
  apart {q q' : CacheKey × Field} : q ∈ requests transforms root → q' ∈ requests transforms root →
    q.2.name ≠ q'.2.name → ∀ s ∈ Path.place? q.2.name root, ∀ s' ∈ Path.place? q'.2.name root,
      s.Apart s'
  /-- No field holds a container around another one. -/
  outside {q q' : CacheKey × Field} : q ∈ requests transforms root → q' ∈ requests transforms root →
    q.2.name ≠ q'.2.name → ∀ p, Path.IsInto q.2.name root p → p ∉ q'.2.input.marks
  answers : ∀ q ∈ requests transforms root, ∀ criteria, ∃ a,
    q.2.transform.apply q.2.input criteria = .ok a ∧ a.unmarked = content q.1 ∧
      ∀ n ∈ a.marks, (∃ p ∈ root.marks, n ≤ p) ∧ ¬ IsAround transforms root n

/-- Answers for fields of a root, each field at most once. -/
structure Answered (transforms : List (String × Transform)) (root : Value)
    (content : CacheKey → Value) (next : Nat) (done : List (CacheKey × Value)) : Prop where
  keys : (done.map Prod.fst).Nodup
  fields : ∀ x ∈ done, x.1 ∈ (requests transforms root).map Prod.fst
  answers : ∀ x ∈ done, IsAnswer content (IsAround transforms root) next x.1 x.2

/-- Answers to be put at the fields of their keys. -/
def toErrands (done : List (CacheKey × Value)) : List (String × Value) :=
  done.map fun x => (x.1.1, x.2)

variable {transforms : List (String × Transform)} {root : Value} {content : CacheKey → Value}
  {done : List (CacheKey × Value)} {next later : Nat} {key : CacheKey} {v : Value}

theorem toErrands_concat : toErrands (done ++ [(key, v)]) = toErrands done ++ [(key.1, v)] :=
  List.map_append

theorem putEach_concat :
    Value.putEach (Path.place? · root) (toErrands (done ++ [(key, v)])) root =
      Value.putIn (Path.place? key.1 root) v
        (Value.putEach (Path.place? · root) (toErrands done) root) := by
  rw [toErrands_concat]
  exact List.foldl_append

/-- Fields that do not get in each other's way are spread over the root. -/
theorem Course.spread (h : Course transforms root content) : Spread transforms root content where
  names := h.names
  once := fun _ ⟨_, _, hinto⟩ => List.count_eq_one_of_mem h.once hinto.mem_marks
  apart := h.areApart.apart
  outside := h.areApart.outside
  answers := fun q hq criteria => by
    obtain ⟨a, ha, hholds, hmarks⟩ := h.answers q hq criteria
    exact ⟨a, ha, hholds, fun n hn => ⟨⟨n, (hmarks n hn).1, Nat.le_refl n⟩, (hmarks n hn).2⟩⟩

theorem names_requests_sublist (transforms : List (String × Transform)) (root : Value) :
    ((requests transforms root).map fun q => q.2.name).Sublist (transforms.map Prod.fst) := by
  induction transforms with
  | nil => exact .slnil
  | cons e rest ih =>
    rw [requests, List.filterMap_cons]
    split
    · exact ih.cons _
    · next q hq =>
      have hmem : q ∈ requests [e] root := by simp [requests, hq]
      have hname : q.2.name = e.1 :=
        congrArg Prod.fst (List.mem_singleton.mp (of_mem_requests hmem).1)
      rw [List.map_cons, List.map_cons, hname]
      exact ih.cons_cons _

theorem mem_requests_of_lookUp? {e : String × Transform} {q : CacheKey × Field}
    (he : e ∈ transforms) (h : lookUp? root e = .ok (some q)) : q ∈ requests transforms root :=
  List.mem_filterMap.mpr ⟨e, he, by rw [h]⟩

theorem requests_of_found {e : String × Transform} {q : CacheKey × Field}
    (h : lookUp? root e = .ok (some q)) : requests [e] root = [q] ∧ fault? [e] root = none := by
  simp [requests, fault?, h]

/-- Fields with one name are one. -/
theorem eq_of_name (hnames : (transforms.map Prod.fst).Nodup) {q q' : CacheKey × Field}
    (hq : q ∈ requests transforms root) (hq' : q' ∈ requests transforms root)
    (hname : q.2.name = q'.2.name) : q = q' :=
  List.inj_on_of_nodup_map ((names_requests_sublist transforms root).nodup hnames) hq hq' hname

namespace Answered

theorem nil : Answered transforms root content next [] :=
  ⟨List.nodup_nil, List.forall_mem_nil _, List.forall_mem_nil _⟩

theorem mono (h : Answered transforms root content next done) (hle : next ≤ later) :
    Answered transforms root content later done :=
  ⟨h.keys, h.fields, fun x hx => (h.answers x hx).mono hle⟩

theorem concat (h : Answered transforms root content next done)
    (hkey : key ∈ (requests transforms root).map Prod.fst) (hnew : key ∉ done.map Prod.fst)
    (hv : IsAnswer content (IsAround transforms root) next key v) :
    Answered transforms root content next (done ++ [(key, v)]) := by
  refine ⟨?_, fun x hx => ?_, fun x hx => ?_⟩
  · rw [List.map_append, List.nodup_append]
    refine ⟨h.keys, List.nodup_singleton _, fun k hk k' hk' heq => hnew ?_⟩
    obtain rfl := List.mem_singleton.mp hk'
    exact heq ▸ hk
  · rcases List.mem_append.mp hx with hx | hx
    · exact h.fields x hx
    · exact List.mem_singleton.mp hx ▸ hkey
  · rcases List.mem_append.mp hx with hx | hx
    · exact h.answers x hx
    · exact List.mem_singleton.mp hx ▸ hv

theorem exists_request (h : Answered transforms root content next done) {x : CacheKey × Value}
    (hx : x ∈ done) : ∃ q ∈ requests transforms root, q.1 = x.1 ∧ q.2.name = x.1.1 := by
  obtain ⟨q, hq, hkey⟩ := List.mem_map.mp (h.fields x hx)
  exact ⟨q, hq, hkey, by rw [← hkey, (of_mem_requests hq).2.2]⟩

/-- **Answers are put into places apart**, and hold no container around one of them. -/
theorem receivesApart (h : Answered transforms root content next done)
    (hspread : Spread transforms root content) :
    Value.ReceivesApart (IsAround transforms root) (Path.place? · root) root (toErrands done) where
  places := fun _ _ => rfl
  readOnly := fun e he hnone => by
    obtain ⟨x, hx, rfl⟩ := List.mem_map.mp he
    obtain ⟨q, hq, -, hname⟩ := h.exists_request hx
    exact Path.place?_of_resolve (hname ▸ (of_mem_requests hq).2.1) hnone
  apart := by
    rw [toErrands, List.pairwise_map]
    refine (List.pairwise_map.mp h.keys).imp_of_mem fun hx hx' hne => ?_
    obtain ⟨q, hq, hkey, hname⟩ := h.exists_request hx
    obtain ⟨q', hq', hkey', hname'⟩ := h.exists_request hx'
    dsimp only
    rw [← hname, ← hname']
    refine hspread.apart hq hq' fun heq => hne ?_
    rw [← hkey, ← hkey', eq_of_name hspread.names hq hq' heq]
  once := fun e he p hp => by
    obtain ⟨x, hx, rfl⟩ := List.mem_map.mp he
    obtain ⟨q, hq, -, hname⟩ := h.exists_request hx
    have haround : IsAround transforms root p := ⟨q, hq, hname ▸ hp⟩
    exact ⟨haround, hspread.once p haround⟩
  avoided := fun e he p hp hmem => by
    obtain ⟨x, hx, rfl⟩ := List.mem_map.mp he
    exact ((h.answers x hx).marks p hmem).1 hp

/-- Look-ups of fields without an answer find what they find in the root. -/
theorem lookUp?_eq (h : Answered transforms root content next done)
    (hcourse : Course transforms root content) {e : String × Transform} (he : e ∈ transforms)
    (hnew : e.1 ∉ done.map fun x => x.1.1) :
    lookUp? (Value.putEach (Path.place? · root) (toErrands done) root) e = lookUp? root e := by
  have hsame : Path.resolve e.1
      (Value.putEach (Path.place? · root) (toErrands done) root) = Path.resolve e.1 root := by
    refine hcourse.areApart.steady _ (fun errand herrand => ?_) e he ?_
    · obtain ⟨x, hx, rfl⟩ := List.mem_map.mp herrand
      obtain ⟨q, hq, -, hname⟩ := h.exists_request hx
      exact ⟨q, hq, hname⟩
    · rwa [toErrands, List.map_map]
  rw [lookUp?, lookUp?, hsame]

end Answered

end Field

namespace Desk

/-- A run of a field for the only copy; if it has an outcome, that is the answer of its key. -/
structure RunsFor (transforms : List (String × Transform)) (root : Value)
    (content : CacheKey → Value) (next : Nat) (r : Run) : Prop where
  copies : r.copies = [0]
  field : ∃ q ∈ Field.requests transforms root, r.key = q.1 ∧ r.transform = q.2.transform ∧
    (r.outcome = none → r.input = q.2.input)
  outcome : ∀ o, r.outcome = some o →
    ∃ v, o = .ok v ∧ IsAnswer content (Field.IsAround transforms root) next r.key v

/-- **A desk on its course**: its only copy is the root with answers for some of its fields in their
places, and all it keeps and comes to are answers. -/
structure OnCourse (transforms : List (String × Transform)) (root : Value)
    (content : CacheKey → Value) (done : List (CacheKey × Value)) (d : Desk) : Prop where
  copies : d.copies = [⟨0, Value.putEach (Path.place? · root) (Field.toErrands done) root⟩]
  answered : Field.Answered transforms root content d.nextMark done
  runs : ∀ r ∈ d.runs, RunsFor transforms root content d.nextMark r
  keys : (d.runs.map Run.key).Nodup
  cache : ∀ e ∈ d.cache, IsAnswer content (Field.IsAround transforms root) d.nextMark e.1 e.2
  below : ∀ n ∈ root.marks, n < d.nextMark

variable {transforms : List (String × Transform)} {root : Value} {content : CacheKey → Value}
  {done : List (CacheKey × Value)} {d : Desk} {key : CacheKey} {v : Value}

theorem RunsFor.mono {next later : Nat} {r : Run} (h : RunsFor transforms root content next r)
    (hle : next ≤ later) : RunsFor transforms root content later r :=
  ⟨h.copies, h.field, fun o ho => (h.outcome o ho).imp fun _ hv => ⟨hv.1, hv.2.mono hle⟩⟩

/-- A write around one field does not show in a run of another one, or in an outcome. -/
theorem RunsFor.through (hspread : Field.Spread transforms root content) {next : Nat} {r : Run}
    (h : RunsFor transforms root content next r) {q : CacheKey × Field}
    (hq : q ∈ Field.requests transforms root) (hother : r.outcome = none → r.key ≠ q.1) {w : Write}
    (hw : ∀ p, w.before.mark = some p → Path.IsInto q.2.name root p) :
    RunsFor transforms root content next (r.through w.applyElsewhere) := by
  obtain ⟨q', hq', hkey, htransform, hinput⟩ := h.field
  refine ⟨h.copies, ⟨q', hq', hkey, htransform, fun hnone => ?_⟩, fun o ho => ?_⟩
  · have hnone' := Option.map_eq_none_iff.mp hnone
    have hname : q.2.name ≠ q'.2.name := fun hname =>
      hother hnone' (hkey.trans (congrArg Prod.fst (Field.eq_of_name hspread.names hq hq' hname).symm))
    refine (Write.applyElsewhere_of_avoids fun p hp hmem => ?_).trans (hinput hnone')
    exact hspread.outside hq hq' hname p (hw p hp) (hinput hnone' ▸ hmem)
  · obtain ⟨o', ho', rfl⟩ := Option.map_eq_some_iff.mp ho
    obtain ⟨v, rfl, hv⟩ := h.outcome o' ho'
    refine ⟨v, ?_, hv⟩
    rw [Except.map, hv.applyElsewhere_eq fun p hp => ⟨q, hq, hw p hp⟩]

/-- A write around one field leaves a desk on its course, if no run waits to look at that field: inputs
of others and answers stay as they are. -/
theorem OnCourse.apply (h : d.OnCourse transforms root content done)
    (hspread : Field.Spread transforms root content) {q : CacheKey × Field}
    (hq : q ∈ Field.requests transforms root)
    (hothers : ∀ r ∈ d.runs, r.outcome = none → r.key ≠ q.1) {w : Write}
    (hwrites : ∀ p, w.before.mark = some p → Path.IsInto q.2.name root p)
    {done' : List (CacheKey × Value)}
    (hanswered : Field.Answered transforms root content d.nextMark done')
    (hcopy : w.applyTo (Value.putEach (Path.place? · root) (Field.toErrands done) root) =
      Value.putEach (Path.place? · root) (Field.toErrands done') root) :
    (d.apply 0 w).OnCourse transforms root content done' := by
  have hkeys : (d.apply 0 w).runs.map Run.key = d.runs.map Run.key := List.map_map
  refine ⟨?_, hanswered, fun r hr => ?_, hkeys ▸ h.keys, fun e he => ?_, h.below⟩
  · change d.copies.mapIdx _ = _
    rw [h.copies, ← hcopy]
    rfl
  · obtain ⟨r₀, hr₀, rfl⟩ := List.mem_map.mp hr
    exact (h.runs r₀ hr₀).through hspread hq (hothers r₀ hr₀) hwrites
  · obtain ⟨⟨key, v₀⟩, he₀, rfl⟩ := List.mem_map.mp he
    have hkept := h.cache _ he₀
    dsimp only at hkept ⊢
    rwa [hkept.applyElsewhere_eq fun p hp => ⟨q, hq, hwrites p hp⟩]

/-- **Putting in the answer of a field** puts it into its place, if no run waits to look at it. -/
theorem OnCourse.put (h : d.OnCourse transforms root content done)
    (hspread : Field.Spread transforms root content) {q : CacheKey × Field}
    (hq : q ∈ Field.requests transforms root) (hnew : q.1 ∉ done.map Prod.fst)
    (hothers : ∀ r ∈ d.runs, r.outcome = none → r.key ≠ q.1)
    (hv : IsAnswer content (Field.IsAround transforms root) d.nextMark q.1 v) :
    (d.put 0 q.1.1 v).OnCourse transforms root content (done ++ [(q.1, v)]) ∧
      (d.put 0 q.1.1 v).runs.map Run.key = d.runs.map Run.key ∧
      (d.put 0 q.1.1 v).faults = d.faults := by
  have hanswered := h.answered.concat (List.mem_map_of_mem hq) hnew hv
  have hput : Value.putEach (Path.place? · root) (Field.toErrands (done ++ [(q.1, v)])) root =
      Value.putIn (Path.place? q.1.1 root) v
        (Value.putEach (Path.place? · root) (Field.toErrands done) root) := Field.putEach_concat
  have hreceives := hanswered.receivesApart hspread
  rw [Field.toErrands_concat] at hreceives
  obtain ⟨hinto, hrest⟩ := hreceives.drop
  have hcopy : d.copies[0]? =
      some ⟨0, Value.putEach (Path.place? · root) (Field.toErrands done) root⟩ := by
    rw [h.copies]
    rfl
  rw [Desk.put, hcopy]
  dsimp only
  cases hplace : Path.place? q.1.1 root with
  | none =>
    -- A field without a place is one that is only read: no write reaches it, and its errand puts
    -- nothing in.
    have hskip := (hrest.readOnly _ (List.mem_singleton_self _) hplace).write?_ne v
    rw [hplace, Value.putIn] at hput
    split
    · next w hw => exact absurd hw (hskip w)
    · exact ⟨⟨hput ▸ h.copies, hanswered, h.runs, h.keys, h.cache, h.below⟩, rfl, rfl⟩
  | some place =>
    obtain ⟨w, hw, hinto', happly, -⟩ := hrest.write hplace
    have hwrites : ∀ p, w.before.mark = some p → Path.IsInto q.2.name root p := fun p hp => by
      rw [← (Field.of_mem_requests hq).2.2]
      exact hinto _ (List.mem_singleton_self _) p (hinto' p hp)
    rw [hplace, Value.putIn, ← happly] at hput
    rw [hw]
    exact ⟨h.apply hspread hq hothers hwrites hanswered hput.symm, List.map_map, rfl⟩

/-! ## Looking up -/

/-- Where only some fields have answers, another one is found as in the root. -/
theorem OnCourse.found_eq (h : d.OnCourse transforms root content done)
    (hcourse : Field.Course transforms root content) {e : String × Transform} (he : e ∈ transforms)
    (hnew : e.1 ∉ done.map fun x => x.1.1) : d.found (0, e) = Field.lookUp? root e := by
  rw [found, h.copies]
  exact h.answered.lookUp?_eq hcourse he hnew

/-- A look-up that finds nothing leaves a desk on its course, and lets the call fail if it did. -/
theorem OnCourse.skip (h : d.OnCourse transforms root content done) {e : String × Transform}
    {faults : List (Nat × Fault)} (hcases : (Field.lookUp? root e = .ok none ∧ faults = d.faults) ∨
      ∃ c f, d.copies[0]? = some c ∧ Field.lookUp? root e = .error f ∧
        faults = withFault d.faults (c.call, f)) :
    ({ d with faults := faults } : Desk).OnCourse transforms root content done ∧
      Field.requests [e] root = [] ∧
      Entries.find? 0 faults = (Entries.find? 0 d.faults).or (Field.fault? [e] root) := by
  refine ⟨⟨h.copies, h.answered, h.runs, h.keys, h.cache, h.below⟩, ?_⟩
  rcases hcases with ⟨hnone, rfl⟩ | ⟨c, f, hc, herror, rfl⟩
  · simp [Field.requests, Field.fault?, hnone]
  · rw [h.copies] at hc
    obtain rfl := Option.some.inj hc
    have hfind := find?_foldl_withFault 0 [(0, f)] d.faults
    rw [List.foldl_cons, List.foldl_nil] at hfind
    rw [hfind]
    simp [Field.requests, Field.fault?, herror, Entries.find?]

/-- A field whose key has no run gets one. -/
theorem OnCourse.enroll (h : d.OnCourse transforms root content done) {q : CacheKey × Field}
    (hq : q ∈ Field.requests transforms root) (hnew : ∀ r ∈ d.runs, r.key ≠ q.1) :
    ({ d with runs := Desk.enroll 0 q d.runs } : Desk).OnCourse transforms root content done ∧
      (Desk.enroll 0 q d.runs).map Run.key = d.runs.map Run.key ++ [q.1] := by
  have hkeys : (Desk.enroll 0 q d.runs).map Run.key = d.runs.map Run.key ++ [q.1] := by
    rw [enroll_new hnew, List.map_append]
    rfl
  refine ⟨⟨h.copies, h.answered, fun r hr => ?_, ?_, h.cache, h.below⟩, hkeys⟩
  · dsimp only at hr
    rw [enroll_new hnew] at hr
    rcases List.mem_append.mp hr with hr | hr
    · exact h.runs r hr
    · obtain rfl := List.mem_singleton.mp hr
      exact ⟨rfl, ⟨q, hq, rfl, rfl, fun _ => rfl⟩, fun o ho => by cases ho⟩
  · dsimp only
    rw [hkeys, List.nodup_append]
    refine ⟨h.keys, List.nodup_singleton _, fun k hk k' hk' hsame => ?_⟩
    obtain ⟨r, hr, rfl⟩ := List.mem_map.mp hk
    exact hnew r hr (hsame.trans (List.mem_singleton.mp hk'))

/-- **One look-up** finds what is in the root: then there is an answer for it, or a run. -/
theorem OnCourse.ask (h : d.OnCourse transforms root content done)
    (hcourse : Field.Course transforms root content) {e : String × Transform} (he : e ∈ transforms)
    (hnew : ∀ key ∈ done.map Prod.fst ++ d.runs.map Run.key, key.1 ≠ e.1) : ∃ done',
    (d.ask (0, e)).OnCourse transforms root content done' ∧
      (done'.map Prod.fst ++ (d.ask (0, e)).runs.map Run.key).Perm
        (done.map Prod.fst ++ d.runs.map Run.key ++ (Field.requests [e] root).map Prod.fst) ∧
      Entries.find? 0 (d.ask (0, e)).faults =
        (Entries.find? 0 d.faults).or (Field.fault? [e] root) := by
  have hdone : e.1 ∉ done.map fun x => x.1.1 := fun hmem => by
    obtain ⟨x, hx, heq⟩ := List.mem_map.mp hmem
    exact hnew x.1 (List.mem_append_left _ (List.mem_map_of_mem hx)) heq
  have hfound := h.found_eq hcourse he hdone
  have hfield : ∀ {key f}, d.found (0, e) = .ok (some (key, f)) →
      (key, f) ∈ Field.requests transforms root ∧ key.1 = e.1 ∧
        Field.requests [e] root = [(key, f)] ∧ Field.fault? [e] root = none := by
    intro key f hkey
    obtain ⟨-, hname, -⟩ := of_found hkey
    rw [hfound] at hkey
    exact ⟨Field.mem_requests_of_lookUp? he hkey, hname, Field.requests_of_found hkey⟩
  have hwaits : ∀ {key}, key.1 = e.1 → ∀ r ∈ d.runs, r.key ≠ key := fun hname r hr heq =>
    hnew r.key (List.mem_append_right _ (List.mem_map_of_mem hr)) (heq ▸ hname)
  rcases ask_cases d (0, e) with ⟨-, faults, heq, hcases⟩ | ⟨-, key, f, kept, hkey, hkept, heq⟩ |
    ⟨key, f, -, hkey, -, heq⟩
  -- Nothing is found, or the look-up fails.
  · rw [hfound] at hcases
    obtain ⟨hskipped, hrequests, hfault⟩ := h.skip hcases
    rw [heq, hrequests, List.map_nil, List.append_nil]
    exact ⟨done, hskipped, .refl _, hfault⟩
  -- A result is kept for the field: it is put in at once.
  · obtain ⟨hmem, hname, hrequests, hfault⟩ := hfield hkey
    obtain ⟨hput, hruns, hfaults⟩ := h.put hcourse.spread hmem
      (fun hmem => hnew key (List.mem_append_left _ hmem) hname)
      (fun r hr _ => hwaits hname r hr) (h.cache _ (Entries.mem_of_find? hkept))
    dsimp only at heq
    rw [← hname] at heq
    rw [heq, hrequests, hfault, hruns, hfaults, Option.or_none]
    refine ⟨_, hput, ?_, rfl⟩
    rw [List.map_append, List.append_assoc, List.append_assoc]
    exact .append_left _ List.perm_append_comm
  · obtain ⟨hmem, hname, hrequests, hfault⟩ := hfield hkey
    obtain ⟨henrolled, hkeys⟩ := h.enroll hmem (hwaits hname)
    dsimp only at heq
    rw [heq, hrequests, hfault, hkeys]
    refine ⟨done, henrolled, ?_, Option.or_none.symm⟩
    rw [List.append_assoc]
    exact .refl _

/-- **After look-ups, each field that was found has its answer or a run**, and the call has failed if one
of them did. -/
theorem OnCourse.lookUps (h : d.OnCourse transforms root content [])
    (hcourse : Field.Course transforms root content) (hruns : d.runs = []) (hfaults : d.faults = [])
    (asked : List (String × Transform)) (hasked : asked <+: transforms) : ∃ done,
    (asked.foldl (fun d e => d.ask (0, e)) d).OnCourse transforms root content done ∧
      (done.map Prod.fst ++ (asked.foldl (fun d e => d.ask (0, e)) d).runs.map Run.key).Perm
        ((Field.requests asked root).map Prod.fst) ∧
      Entries.find? 0 (asked.foldl (fun d e => d.ask (0, e)) d).faults = Field.fault? asked root := by
  induction asked using List.reverseRecOn with
  | nil => exact ⟨[], h, by simp [hruns, Field.requests], by simp [hfaults, Field.fault?]⟩
  | append_singleton asked e ih =>
    obtain ⟨done, hd, hkeys, hfault⟩ := ih ((List.prefix_append ..).trans hasked)
    -- The names that have been asked for are other ones.
    have hnew : ∀ key ∈ (Field.requests asked root).map Prod.fst, key.1 ≠ e.1 := by
      have hnames := hcourse.names.sublist (hasked.sublist.map Prod.fst)
      rw [List.map_append, List.nodup_append] at hnames
      intro key hkey
      obtain ⟨q, hq, rfl⟩ := List.mem_map.mp hkey
      obtain ⟨hmem, -, hname⟩ := Field.of_mem_requests hq
      rw [hname]
      exact hnames.2.2 _ (List.mem_map_of_mem (f := Prod.fst) hmem) _ (by simp)
    obtain ⟨done', hd', hkeys', hfault'⟩ := hd.ask hcourse (hasked.subset (by simp))
      fun key hkey => hnew key (hkeys.subset hkey)
    have hrequests : Field.requests (asked ++ [e]) root =
        Field.requests asked root ++ Field.requests [e] root := List.filterMap_append
    have hfault? : Field.fault? (asked ++ [e]) root =
        (Field.fault? asked root).or (Field.fault? [e] root) := List.findSome?_append
    rw [List.foldl_append, List.foldl_cons, List.foldl_nil, hrequests, List.map_append, hfault?,
      ← hfault]
    exact ⟨done', hd', hkeys'.trans (hkeys.append_right _), hfault'⟩

/-! ## Applying, keeping and handing -/

/-- The answer of a run that is applied. -/
theorem RunsFor.applied (hspread : Field.Spread transforms root content) {next : Nat}
    (hbelow : ∀ n ∈ root.marks, n < next) {r : Run} (h : RunsFor transforms root content next r)
    (hnone : r.outcome = none) (copies : List WorkingCopy) : next ≤ (r.applied copies next).2 ∧
      RunsFor transforms root content (r.applied copies next).2 (r.applied copies next).1 := by
  obtain ⟨q, hq, hkey, htransform, hinput⟩ := h.field
  obtain ⟨a, ha, hholds, hmarks⟩ := hspread.answers q hq (r.criteria copies)
  rw [← htransform, ← hinput hnone] at ha
  obtain ⟨hle, hsettled⟩ := Value.marks_settled next a
  rw [Run.applied_of_ok ha]
  refine ⟨hle, h.copies, ⟨q, hq, hkey, htransform, fun h => by cases h⟩,
    fun o ho => ⟨_, (Option.some.inj ho).symm, ?_, fun n hn => ?_⟩⟩
  · rw [Value.unmarked_settled, hholds, hkey]
  · rcases hsettled n hn with hn | ⟨hge, hlt⟩
    · obtain ⟨⟨p, hp, hnp⟩, haround⟩ := hmarks n hn
      exact ⟨haround, Nat.lt_of_le_of_lt hnp (Nat.lt_of_lt_of_le (hbelow p hp) hle)⟩
    · refine ⟨?_, hlt⟩
      rintro ⟨q', -, hinto⟩
      exact absurd (hbelow n hinto.mem_marks) (Nat.not_lt.mpr hge)

/-- A run that is applied comes to an answer. -/
theorem OnCourse.compute (h : d.OnCourse transforms root content done)
    (hspread : Field.Spread transforms root content) {j : Nat} {r : Run} (hr : d.runs[j]? = some r)
    (hnone : r.outcome = none) : (d.compute j).OnCourse transforms root content done := by
  obtain ⟨hle, hrun⟩ := (h.runs r (List.mem_of_getElem? hr)).applied hspread h.below hnone d.copies
  have hkeys := perform_keys d (.compute j)
  rw [perform] at hkeys
  rw [compute_eq hr] at hkeys ⊢
  refine ⟨h.copies, h.answered.mono hle, fun r' hr' => ?_, hkeys ▸ h.keys,
    fun e he => (h.cache e he).mono hle, fun n hn => Nat.lt_of_lt_of_le (h.below n hn) hle⟩
  rcases List.mem_or_eq_of_mem_set hr' with hr' | rfl
  · exact (h.runs r' hr').mono hle
  · exact hrun

/-- **One deed that is due** keeps a desk on its course: a receipt is for a field without an answer. -/
theorem OnCourse.perform (h : d.OnCourse transforms root content done)
    (hspread : Field.Spread transforms root content) {a : Deed} (hdue : d.IsDue a)
    (hfirst : ∀ r, d.receipt? a = some r → r.copy = 0 ∧ r.key ∉ done.map Prod.fst) : ∃ done',
    (d.perform a).OnCourse transforms root content done' ∧
      done'.map Prod.fst = done.map Prod.fst ++ (d.receipt? a).toList.map Receipt.key ∧
      (d.perform a).faults = d.faults := by
  rcases perform_cases hdue with ⟨j, r, -, -, rfl, hr, hnone, -⟩ | ⟨j, r, o, rfl, hr, ho, heq⟩ |
    ⟨j, i, r, o, rfl, hr, ho, hreceipt, heq⟩
  · have hfaults : (d.compute j).faults = d.faults := by rw [compute_eq hr]
    exact ⟨done, h.compute hspread hr hnone, (List.append_nil _).symm, hfaults⟩
  · obtain ⟨v, rfl, hv⟩ := (h.runs r (List.mem_of_getElem? hr)).outcome o ho
    rw [heq]
    refine ⟨done, ⟨h.copies, h.answered, h.runs, h.keys, fun e he => ?_, h.below⟩,
      (List.append_nil _).symm, rfl⟩
    rcases Entries.eq_or_mem_of_mem_put he with rfl | he
    · exact hv
    · exact h.cache e he
  · have hmem := List.mem_of_getElem? hr
    obtain ⟨v, rfl, hv⟩ := (h.runs r hmem).outcome o ho
    obtain ⟨q, hq, hkey, -⟩ := (h.runs r hmem).field
    obtain ⟨hcopy, hnew⟩ := hfirst _ hreceipt
    obtain rfl : i = 0 := hcopy
    rw [hkey] at hv
    dsimp only at hnew
    rw [hkey] at hnew
    -- The run of the field has an outcome, so it does not wait to look at its input.
    have hothers : ∀ r' ∈ d.runs, r'.outcome = none → r'.key ≠ q.1 := fun r' hr' hnone heq => by
      obtain rfl := List.inj_on_of_nodup_map h.keys hr' hmem (heq.trans hkey.symm)
      cases hnone.symm.trans ho
    obtain ⟨hd, -, hfaults⟩ := h.put hspread hq hnew hothers hv
    rw [heq, hreceipt, Desk.receive, hkey]
    exact ⟨_, hd, List.map_append, hfaults⟩

/-- **All deeds** of a desk on its course give their fields the answers. -/
theorem OnCourse.foldl_perform (hspread : Field.Spread transforms root content) :
    ∀ {as : List Deed} {d : Desk} {done : List (CacheKey × Value)},
    d.OnCourse transforms root content done → (∀ s ∈ trace Desk.perform d as, s.1.IsDue s.2) →
    (∀ r ∈ (trace Desk.perform d as).filterMap (fun s => s.1.receipt? s.2), r.copy = 0) →
    (done.map Prod.fst ++
      ((trace Desk.perform d as).filterMap fun s => s.1.receipt? s.2).map Receipt.key).Nodup →
    ∃ done', (as.foldl Desk.perform d).OnCourse transforms root content done' ∧
      done'.map Prod.fst = done.map Prod.fst ++
        ((trace Desk.perform d as).filterMap fun s => s.1.receipt? s.2).map Receipt.key ∧
      (as.foldl Desk.perform d).faults = d.faults
  | [], d, done, h, _, _, _ => ⟨done, h, (List.append_nil _).symm, rfl⟩
  | a :: rest, d, done, h, hdue, hcopies, hnodup => by
    obtain ⟨hfirst, hlater⟩ := List.forall_mem_cons.mp hdue
    have hreceipts : (trace Desk.perform d (a :: rest)).filterMap (fun s => s.1.receipt? s.2) =
        (d.receipt? a).toList ++
          (trace Desk.perform (d.perform a) rest).filterMap fun s => s.1.receipt? s.2 := by
      rw [trace, List.filterMap_cons]
      cases d.receipt? a <;> rfl
    rw [hreceipts] at hcopies hnodup ⊢
    rw [List.map_append, ← List.append_assoc] at hnodup ⊢
    obtain ⟨done₁, hd₁, hkeys₁, hfaults₁⟩ := h.perform hspread hfirst fun r hr => by
      have hmem : r ∈ (d.receipt? a).toList := Option.mem_toList.mpr hr
      refine ⟨hcopies r (List.mem_append_left _ hmem), fun hdone => ?_⟩
      have hdisjoint := (List.nodup_append.mp (List.nodup_append.mp hnodup).1).2.2
      exact hdisjoint _ hdone _ (List.mem_map_of_mem hmem) rfl
    rw [← hkeys₁] at hnodup ⊢
    obtain ⟨done', hd', hkeys', hfaults'⟩ := OnCourse.foldl_perform hspread hd₁ hlater
      (fun r hr => hcopies r (List.mem_append_right _ hr)) hnodup
    exact ⟨done', hd', hkeys', hfaults'.trans hfaults₁⟩

/-- The receipts of a desk on its course: one for each of its runs, all of them for the only copy. -/
theorem OnCourse.receipts (h : d.OnCourse transforms root content done) (hfresh : d.IsFresh)
    (caching : Bool) : (∀ r ∈ d.receipts caching, r.copy = 0) ∧
      ((d.receipts caching).map Receipt.key).Perm (d.runs.map Run.key) := by
  have hwaiting := waiting_receipts hfresh caching
  have hwaits : (d.runs.flatMap fun r => r.copies.map fun i => (i, r.key)) =
      d.runs.map fun r => (0, r.key) := by
    rw [List.map_eq_flatMap, List.flatMap_def, List.flatMap_def]
    exact congrArg List.flatten (List.map_congr_left fun r hr => by rw [(h.runs r hr).copies]; rfl)
  rw [hwaits] at hwaiting
  refine ⟨fun r hr => ?_, ?_⟩
  · obtain ⟨run, -, heq⟩ := List.mem_map.mp (hwaiting.subset (List.mem_map_of_mem hr))
    exact (congrArg Prod.fst heq).symm
  · have hkeys := hwaiting.map Prod.snd
    rwa [List.map_map, List.map_map] at hkeys

end Desk

namespace Field

variable {transforms : List (String × Transform)} {root : Value} {content : CacheKey → Value}

theorem nodup_keys_requests (hnames : (transforms.map Prod.fst).Nodup) (root : Value) :
    ((requests transforms root).map Prod.fst).Nodup := by
  refine List.Nodup.of_map Prod.fst ?_
  have hkeys : ((requests transforms root).map Prod.fst).map Prod.fst =
      (requests transforms root).map fun q => q.2.name := by
    rw [List.map_map]
    exact List.map_congr_left fun q hq => (of_mem_requests hq).2.2
  rw [hkeys]
  exact (names_requests_sublist transforms root).nodup hnames

/-- **At the end of the runs each field that has an answer or a run has its answer.** -/
theorem Spread.finish (hspread : Spread transforms root content) {d : Desk}
    {done : List (CacheKey × Value)} (h : d.OnCourse transforms root content done)
    (hfresh : d.IsFresh) (caching : Bool) (hkeys : (done.map Prod.fst ++ d.runs.map Run.key).Perm
      ((requests transforms root).map Prod.fst)) : ∃ done',
    (d.finish caching).OnCourse transforms root content done' ∧
      (done'.map Prod.fst).Perm ((requests transforms root).map Prod.fst) ∧
      (d.finish caching).faults = d.faults := by
  obtain ⟨hcopies, hreceipts⟩ := h.receipts hfresh caching
  have hall : (done.map Prod.fst ++ (d.receipts caching).map Receipt.key).Perm
      ((requests transforms root).map Prod.fst) := (hreceipts.append_left _).trans hkeys
  obtain ⟨done', hd, hkeys', hfaults⟩ := h.foldl_perform hspread
    (fun s hs => Desk.isDue_of_mem_flight hfresh hs) hcopies
    (hall.nodup_iff.mpr (nodup_keys_requests hspread.names root))
  rw [Desk.finish_eq_deeds]
  refine ⟨done', hd, ?_, hfaults⟩
  rw [hkeys']
  exact hall

/-- **At the end of a call each field that was found has its answer**, whatever was kept before, and the
call has failed if a look-up did. -/
theorem Course.finish (hcourse : Course transforms root content) {d : Desk}
    (h : d.OnCourse transforms root content []) (hruns : d.runs = []) (hfaults : d.faults = [])
    (caching : Bool) : ∃ done,
    ((d.lookUpAll transforms).finish caching).OnCourse transforms root content done ∧
      (done.map Prod.fst).Perm ((requests transforms root).map Prod.fst) ∧
      Entries.find? 0 ((d.lookUpAll transforms).finish caching).faults = fault? transforms root := by
  have hlookUps : d.lookUps transforms = transforms.map (Prod.mk 0) := by
    rw [Desk.lookUps, h.copies]
    exact List.flatMap_singleton ..
  have hlookUpAll : d.lookUpAll transforms =
      transforms.foldl (fun d e => d.ask (0, e)) d := by
    rw [Desk.lookUpAll_eq_foldl, hlookUps, List.foldl_map]
  have hfresh := (Desk.started_lookUpAll hruns transforms).2.fresh
  obtain ⟨done, hd, hkeys, hfault⟩ := h.lookUps hcourse hruns hfaults transforms (List.prefix_refl _)
  rw [← hlookUpAll] at hd hkeys hfault
  obtain ⟨done', hd', hkeys', hfaults'⟩ := hcourse.spread.finish hd hfresh caching hkeys
  exact ⟨done', hd', hkeys', hfaults' ▸ hfault⟩

/-- What a root is with answers for all of its fields: each key's content in the place of its field. -/
theorem Answered.unmarked_putEach (hspread : Spread transforms root content) {next : Nat}
    {done : List (CacheKey × Value)} (h : Answered transforms root content next done)
    (hkeys : (done.map Prod.fst).Perm ((requests transforms root).map Prod.fst)) :
    (Value.putEach (Path.place? · root) (toErrands done) root).unmarked =
      Value.putEach (Path.place? · root)
        ((requests transforms root).map fun q => (q.1.1, content q.1)) root.unmarked := by
  have hcontents : (toErrands done).map (fun e => (e.1, e.2.unmarked)) =
      (done.map Prod.fst).map fun key => (key.1, content key) := by
    rw [toErrands, List.map_map, List.map_map]
    exact List.map_congr_left fun x hx => congrArg (Prod.mk x.1.1) (h.answers x hx).holds
  have hperm := hkeys.map fun key => (key.1, content key)
  rw [← hcontents, List.map_map] at hperm
  rw [Value.unmarked_putEach]
  exact Value.putEach_perm hperm (List.pairwise_map.mpr (h.receivesApart hspread).apart) _

end Field

end Verdict
