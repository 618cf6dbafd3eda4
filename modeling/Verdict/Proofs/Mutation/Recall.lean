import Verdict.Proofs.Mutation.History
import Verdict.Proofs.Mutation.Plain
import Verdict.Proofs.Mutation.Steady
import Verdict.Proofs.Value.Copy

/-!
# Proofs/Mutation/Recall — what is kept does not show

    m ──mutate c₁──▸ m₁ ──mutate c₂──▸ m₂ ──mutate c₃──▸ …        each gives what m gives alone

A mutator keeps the results of its calls.  Where transforms look at the value alone, fields do not get in
each other's way, and values of one key have one answer, the calls come to what they come to with nothing
kept (`Mutator.mutateEach_eq`): a kept result holds what its key stands for (`Mutator.Recalls`), and a
call comes to the same with any such results (`Mutator.mutate_of_recalls`).
-/

namespace Verdict

namespace Field

variable {transforms : List (String × Transform)} {root root' : Value}

/-- Roots that hold the same have the same fields, but for marks. -/
theorem exists_request_of_unmarked_eq (h : root.unmarked = root'.unmarked) {q : CacheKey × Field}
    (hq : q ∈ requests transforms root) : ∃ q' ∈ requests transforms root', q'.1 = q.1 ∧
      q'.2.transform = q.2.transform ∧ q'.2.input.unmarked = q.2.input.unmarked := by
  have hrequests := requests_remark Value.remarks_unmarked transforms root
  rw [h, requests_remark Value.remarks_unmarked] at hrequests
  have hmem := List.mem_map_of_mem (f := fun q : CacheKey × Field =>
    (q.1, { q.2 with input := q.2.input.unmarked })) hq
  rw [← hrequests] at hmem
  obtain ⟨q', hq', heq⟩ := List.mem_map.mp hmem
  obtain ⟨hkey, hfield⟩ := Prod.mk.inj heq
  obtain ⟨-, htransform, hinput⟩ := Field.mk.inj hfield
  exact ⟨q', hq', hkey, htransform, hinput⟩

/-- What a value is with the answers of keys in the places of its fields. -/
def answered (transforms : List (String × Transform)) (content : CacheKey → Value) (root : Value) :
    Value :=
  Value.putEach (Path.place? · root)
    ((requests transforms root).map fun q => (q.1.1, content q.1)) root.unmarked

theorem answered_unmarked (content : CacheKey → Value) :
    answered transforms content root.unmarked = answered transforms content root := by
  have hplaces : (Path.place? · root.unmarked) = (Path.place? · root) :=
    funext fun name => Path.place?_remark Value.remarks_unmarked name root
  rw [answered, answered, hplaces, Value.remarks_unmarked.unmarked_eq,
    requests_remark Value.remarks_unmarked, List.map_map]
  rfl

end Field

namespace Mutator

/-- Criteria that suit the transforms of a mutator. -/
structure Suits (m : Mutator) (c : Value) : Prop where
  /-- They are no list of criteria. -/
  single : ∀ mark items, c ≠ .list mark items
  /-- No container occurs twice. -/
  once : c.marks.Nodup
  /-- The transforms answer. -/
  succeeds : ∀ q ∈ Field.requests m.transforms c, ∃ a, q.2.transform.apply q.2.input c = .ok a
  /-- No field notices what is put at the other ones. -/
  steady : ∀ root : Value, root.IsCopyOf c → Field.IsSteady m.transforms root
  /-- Where they are the value of a field of theirs, they are not put into themselves. -/
  notSelf : c.hasField "$" = true → ∀ t, ("$", t) ∈ m.transforms → ∀ root : Value, root.IsCopyOf c →
    ∀ criteria a, t.apply root criteria = .ok a → ∀ p, root.mark = some p → p ∉ a.marks

/-- Criteria whose fields with one key have one answer. -/
def Agree (m : Mutator) (c c' : Value) : Prop :=
  ∀ q ∈ Field.requests m.transforms c, ∀ q' ∈ Field.requests m.transforms c', q.1 = q'.1 →
    (q.2.transform.apply q.2.input c).map Value.unmarked =
      (q'.2.transform.apply q'.2.input c').map Value.unmarked

/-- Mutate criteria one after another: what comes of each call, and the mutator afterwards. -/
def mutateEach (m : Mutator) : List Value → List (Except Fault Mutated) × Mutator
  | [] => ([], m)
  | c :: rest =>
    ((m.mutate c).1 :: ((m.mutate c).2.1.mutateEach rest).1, ((m.mutate c).2.1.mutateEach rest).2)

/-- What comes of criteria when the answer of each field is what its key stands for. -/
def answered (m : Mutator) (content : CacheKey → Value) (c : Value) : Except Fault Mutated :=
  match m.needsCopy c with
  | .error f => .error f
  | .ok false => .ok ⟨c, true⟩
  | .ok true =>
    match Field.fault? m.transforms c with
    | some f => .error f
    | none => .ok ⟨Field.answered m.transforms content c, false⟩

/-- A mutator that keeps only what keys stand for. -/
def Recalls (m : Mutator) (content : CacheKey → Value) : Prop :=
  ∀ e ∈ m.cache, e.2.unmarked = content e.1 ∧ ∀ n ∈ e.2.marks, n < m.nextMark

variable {m : Mutator} {content : CacheKey → Value} {c : Value} {cs : List Value}

/-- No answer for a field of a copy of criteria that suit holds a container around a field. -/
theorem Suits.not_isAround (h : m.Suits c) (hnames : m.names.Nodup)
    (hvalue : ∀ e ∈ m.transforms, e.2.IsOfValue) {root : Value} (hroot : root.IsCopyOf c)
    {q : CacheKey × Field} (hq : q ∈ Field.requests m.transforms root) {criteria a : Value}
    (ha : q.2.transform.apply q.2.input criteria = .ok a) {n : Nat} (hn : n ∈ a.marks) :
    ¬ Field.IsAround m.transforms root n := by
  have hmem := (Field.of_mem_requests hq).1
  have hinput := (hvalue _ hmem).marks ha n hn
  rintro ⟨q', hq', hinto⟩
  by_cases hname : q'.2.name = q.2.name
  · obtain rfl := Field.eq_of_name hnames hq' hq hname
    obtain ⟨hdollar, hfield, hself, hmark⟩ := Field.of_mem_marks_own hroot.once hq hinto hinput
    rw [hdollar] at hmem
    rw [hself] at ha
    rw [← Value.remarks_unmarked.hasField, hroot.same, Value.remarks_unmarked.hasField] at hfield
    exact h.notSelf hfield _ hmem root hroot criteria a ha n hmark hn
  · exact (h.steady root hroot).not_mem_marks hroot.once hq' hq hname hinto hinput

/-- A copy of criteria that suit has fields with the answers of their keys. -/
theorem Suits.course (h : m.Suits c) (hnames : m.names.Nodup)
    (hvalue : ∀ e ∈ m.transforms, e.2.IsOfValue)
    (hcontent : ∀ q ∈ Field.requests m.transforms c,
      (q.2.transform.apply q.2.input c).map Value.unmarked = .ok (content q.1)) {root : Value}
    (hroot : root.IsCopyOf c) : Field.Course m.transforms root content where
  names := hnames
  once := hroot.once
  areApart := (h.steady root hroot).areApart hroot.once
  answers := fun q hq criteria => by
    obtain ⟨q', hq', hkey, htransform, hinput⟩ :=
      Field.exists_request_of_unmarked_eq hroot.same hq
    obtain ⟨hmem, hresolve, -⟩ := Field.of_mem_requests hq
    have hanswer := hcontent q' hq'
    rw [htransform, (hvalue _ hmem).answer hinput, hkey] at hanswer
    cases ha : q.2.transform.apply q.2.input criteria with
    | error f => rw [ha] at hanswer; cases hanswer
    | ok a =>
      rw [ha] at hanswer
      exact ⟨a, rfl, Except.ok.inj hanswer, fun n hn =>
        ⟨Path.mem_marks_of_resolve hresolve ((hvalue _ hmem).marks ha n hn),
          h.not_isAround hnames hvalue hroot hq ha hn⟩⟩

/-- The desk of criteria with only what keys stand for kept is on its course. -/
theorem Recalls.onCourse (hm : m.Recalls content) (c : Value) :
    Desk.OnCourse m.transforms (c.copied m.nextMark).1 content []
      ⟨[⟨0, (c.copied m.nextMark).1⟩], [], m.cache, (c.copied m.nextMark).2, []⟩ := by
  obtain ⟨hle, hmarks⟩ := Value.marks_copied m.nextMark c
  refine ⟨rfl, .nil, List.forall_mem_nil _, List.nodup_nil, fun e he => ?_,
    fun n hn => (hmarks n hn).2⟩
  obtain ⟨hholds, hbelow⟩ := hm e he
  refine ⟨hholds, fun n hn => ⟨?_, Nat.lt_of_lt_of_le (hbelow n hn) hle⟩⟩
  rintro ⟨q, -, hinto⟩
  exact absurd (hmarks n hinto.mem_marks).1 (Nat.not_le.mpr (hbelow n hn))

theorem opened_of_single (hsingle : ∀ mark items, c ≠ .list mark items) :
    m.opened c = (m.place 0 ⟨[], [], m.cache, m.nextMark, []⟩ c).1 := by
  rw [opened, placeCalls, placeCall_of_single hsingle]
  rfl

/-- What comes of criteria that are no list, from the desk at the end of the call. -/
theorem mutate_fst (hsingle : ∀ mark items, c ≠ .list mark items) : (m.mutate c).1 =
    outcome (m.landed c) 0 ⟨false, [(m.place 0 ⟨[], [], m.cache, m.nextMark, []⟩ c).2]⟩ := by
  rw [mutate_of_placeCall (placeCall_of_single hsingle 0 _), landed, looked,
    opened_of_single hsingle]
  rfl

theorem opened_of_needsCopy (hsingle : ∀ mark items, c ≠ .list mark items)
    (hneeds : m.needsCopy c = .ok true) : m.opened c =
      ⟨[⟨0, (c.copied m.nextMark).1⟩], [], m.cache, (c.copied m.nextMark).2, []⟩ := by
  rw [opened_of_single hsingle, place, hneeds]
  rfl

/-- A call comes to what the answers of keys make of its criteria if each field of their copy, where
they have one, ends up with its answer. -/
theorem mutate_of_onCourse (hsingle : ∀ mark items, c ≠ .list mark items)
    (hspread : Field.Spread m.transforms (c.copied m.nextMark).1 content)
    (hdone : m.needsCopy c = .ok true → ∃ done,
      (m.landed c).OnCourse m.transforms (c.copied m.nextMark).1 content done ∧
      (done.map Prod.fst).Perm
        ((Field.requests m.transforms (c.copied m.nextMark).1).map Prod.fst) ∧
      Entries.find? 0 (m.landed c).faults =
        Field.fault? m.transforms (c.copied m.nextMark).1) :
    (m.mutate c).1 = m.answered content c := by
  rw [mutate_fst hsingle, answered, place]
  cases hneeds : m.needsCopy c with
  | error f =>
    rw [landed, looked, opened_of_single hsingle, place, hneeds]
    rfl
  | ok b =>
    cases b with
    | false =>
      rw [landed, looked, opened_of_single hsingle, place, hneeds]
      rfl
    | true =>
      obtain ⟨done, hd, hkeys, hfault⟩ := hdone hneeds
      have hsame := Value.unmarked_copied c m.nextMark
      have hresult : result (m.landed c) ⟨c, some 0⟩ = Field.answered m.transforms content c := by
        rw [result, Option.bind_some, hd.copies]
        refine (hd.answered.unmarked_putEach hspread hkeys).trans ?_
        rw [← Field.answered_unmarked, ← hsame, Field.answered_unmarked, Field.answered]
      rw [← Field.fault?_remark Value.remarks_unmarked, hsame,
        Field.fault?_remark Value.remarks_unmarked] at hfault
      rw [outcome, hfault]
      cases Field.fault? m.transforms c with
      | some f => rfl
      | none =>
        rw [← hresult]
        rfl

/-- **With only what keys stand for kept**, a call comes to what the answers of keys make of its criteria,
and afterwards only such results are kept. -/
theorem mutate_of_recalls (hm : m.Recalls content) (hsingle : ∀ mark items, c ≠ .list mark items)
    (hcourse : Field.Course m.transforms (c.copied m.nextMark).1 content) :
    (m.mutate c).1 = m.answered content c ∧ (m.mutate c).2.1.Recalls content := by
  have hafter : (m.mutate c).2.1 =
      { m with cache := (m.landed c).cache, nextMark := (m.landed c).nextMark } := rfl
  have hfinish := hcourse.finish (hm.onCourse c) rfl rfl m.caching
  have hdone := fun hneeds : m.needsCopy c = .ok true => by
    rw [← opened_of_needsCopy hsingle hneeds, ← looked, ← landed] at hfinish
    exact hfinish
  refine ⟨mutate_of_onCourse hsingle hcourse.spread hdone, ?_⟩
  rw [hafter]
  cases hneeds : m.needsCopy c with
  | error f =>
    rw [landed, looked, opened_of_single hsingle, place, hneeds]
    exact hm
  | ok b =>
    cases b with
    | false =>
      rw [landed, looked, opened_of_single hsingle, place, hneeds]
      exact hm
    | true =>
      obtain ⟨done, hd, -⟩ := hdone hneeds
      exact fun e he => ⟨(hd.cache e he).holds, fun n hn => ((hd.cache e he).marks n hn).2⟩

/-- **With only what keys stand for kept, calls one after another** each come to what the answers of keys
make of their criteria. -/
theorem mutateEach_of_recalls : ∀ {cs : List Value} {m : Mutator}, m.Recalls content →
    (∀ c ∈ cs, (∀ mark items, c ≠ .list mark items) ∧
      ∀ next, Field.Course m.transforms (c.copied next).1 content) →
    (m.mutateEach cs).1 = cs.map (m.answered content)
  | [], _, _, _ => rfl
  | c :: rest, m, hm, hcs => by
    obtain ⟨⟨hsingle, hcourse⟩, hrest⟩ := List.forall_mem_cons.mp hcs
    obtain ⟨hc, hafter⟩ := mutate_of_recalls hm hsingle (hcourse m.nextMark)
    have hlater : ((m.mutate c).2.1.mutateEach rest).1 =
        rest.map ((m.mutate c).2.1.answered content) := mutateEach_of_recalls hafter hrest
    rw [mutateEach, hc, hlater]
    rfl

/-- Criteria that agree have answers that keys stand for. -/
theorem exists_content (hsucceeds : ∀ c ∈ cs, ∀ q ∈ Field.requests m.transforms c,
      ∃ a, q.2.transform.apply q.2.input c = .ok a)
    (hagree : ∀ c ∈ cs, ∀ c' ∈ cs, m.Agree c c') : ∃ content : CacheKey → Value,
    ∀ c ∈ cs, ∀ q ∈ Field.requests m.transforms c,
      (q.2.transform.apply q.2.input c).map Value.unmarked = .ok (content q.1) := by
  have heach : ∀ key, ∃ v, ∀ c ∈ cs, ∀ q ∈ Field.requests m.transforms c, q.1 = key →
      (q.2.transform.apply q.2.input c).map Value.unmarked = .ok v := by
    intro key
    by_cases hkey : ∃ c ∈ cs, ∃ q ∈ Field.requests m.transforms c, q.1 = key
    · obtain ⟨c, hc, q, hq, rfl⟩ := hkey
      obtain ⟨a, ha⟩ := hsucceeds c hc q hq
      refine ⟨a.unmarked, fun c' hc' q' hq' heq => ?_⟩
      rw [hagree c' hc' c hc q' hq' q hq heq, ha]
      rfl
    · exact ⟨.null, fun c hc q hq heq => absurd ⟨c, hc, q, hq, heq⟩ hkey⟩
  choose content hcontent using heach
  exact ⟨content, fun c hc q hq => hcontent q.1 c hc q hq rfl⟩

/-- **What a mutator keeps does not show**: where transforms look at values alone, criteria suit them, and
fields with one key have one answer, mutating criteria one after another gives what mutating each of them
with nothing kept gives. -/
theorem mutateEach_eq (hcache : m.cache = []) (hnames : m.names.Nodup)
    (hvalue : ∀ e ∈ m.transforms, e.2.IsOfValue) (hsuits : ∀ c ∈ cs, m.Suits c)
    (hagree : ∀ c ∈ cs, ∀ c' ∈ cs, m.Agree c c') :
    (m.mutateEach cs).1 = cs.map fun c => (m.mutate c).1 := by
  obtain ⟨content, hcontent⟩ := exists_content (fun c hc => (hsuits c hc).succeeds) hagree
  have hrecalls : m.Recalls content := by
    rw [Recalls, hcache]
    exact List.forall_mem_nil _
  have hcourses : ∀ c ∈ cs, (∀ mark items, c ≠ .list mark items) ∧
      ∀ next, Field.Course m.transforms (c.copied next).1 content := fun c hc =>
    ⟨(hsuits c hc).single, fun next => (hsuits c hc).course hnames hvalue (hcontent c hc)
      (Value.isCopyOf_copied (hsuits c hc).once next)⟩
  rw [mutateEach_of_recalls hrecalls hcourses]
  refine List.map_congr_left fun c hc => ?_
  obtain ⟨hsingle, hcourse⟩ := hcourses c hc
  exact (mutate_of_recalls hrecalls hsingle (hcourse m.nextMark)).1.symm

/-- Three criteria in a row, of which the last one finds both of its results kept. -/
theorem mutateEach_of_repeated_fields :
    let m : Mutator := ⟨[("a", .doubling 0), ("b", .uppering 1)], true, [], 0⟩
    let item (s : String) : Value := .object none [("a", .int 1), ("b", .str s)]
    let cs := ["x", "y", "x"].map item
    m.names.Nodup ∧ (∀ e ∈ m.transforms, e.2.IsOfValue) ∧ (∀ c ∈ cs, m.Suits c) ∧
      (∀ c ∈ cs, ∀ c' ∈ cs, m.Agree c c') ∧ (m.mutateEach cs).1 = cs.map fun c => (m.mutate c).1 := by
  intro m item cs
  have hnames : m.names.Nodup := by decide
  have hvalue : ∀ e ∈ m.transforms, e.2.IsOfValue :=
    List.forall_mem_cons.mpr ⟨Transform.isOfValue_doubling 0,
      List.forall_mem_singleton.mpr (Transform.isOfValue_uppering 1)⟩
  have hfields : ∀ s, Field.requests m.transforms (item s) =
      [(("a", Digest.ofText "1"), ⟨"a", .doubling 0, .int 1⟩),
        (("b", Digest.ofText s), ⟨"b", .uppering 1, .str s⟩)] := fun _ => rfl
  have hsuits : ∀ c ∈ cs, m.Suits c := List.forall_mem_map.mpr fun s _ =>
    { single := fun _ _ h => by cases h
      once := List.nodup_nil
      succeeds := by
        rw [hfields]
        exact List.forall_mem_cons.mpr ⟨⟨.int 2, rfl⟩,
          List.forall_mem_singleton.mpr ⟨.str (upperText s), rfl⟩⟩
      steady := fun root hroot => by
        refine Field.isSteady_of_hasField (by decide) fun e he => ?_
        rw [← Value.remarks_unmarked.hasField, hroot.same]
        rcases List.mem_cons.mp he with rfl | he
        · rfl
        · obtain rfl := List.mem_singleton.mp he
          rfl
      notSelf := fun h => by cases h }
  have hagree : ∀ c ∈ cs, ∀ c' ∈ cs, m.Agree c c' := by
    have hdigests : (["x", "y"].map Digest.ofText).Nodup := by decide +kernel
    have htexts : ∀ s ∈ ["x", "y", "x"], s ∈ ["x", "y"] := by decide
    refine List.forall_mem_map.mpr fun s hs => List.forall_mem_map.mpr fun s' hs' => ?_
    rw [Agree, hfields, hfields]
    refine List.forall_mem_cons.mpr ⟨?_, List.forall_mem_singleton.mpr ?_⟩ <;>
      refine List.forall_mem_cons.mpr ⟨fun hkey => ?_, List.forall_mem_singleton.mpr fun hkey => ?_⟩
    · rfl
    · exact absurd (congrArg Prod.fst hkey) (show "a" ≠ "b" by decide)
    · exact absurd (congrArg Prod.fst hkey) (show "b" ≠ "a" by decide)
    · obtain rfl := List.inj_on_of_nodup_map hdigests (htexts s hs) (htexts s' hs')
        (Prod.mk.inj hkey).2
      rfl
  exact ⟨hnames, hvalue, hsuits, hagree, mutateEach_eq rfl hnames hvalue hsuits hagree⟩

/-! ## Where what is kept shows -/

/-- A mutator that keeps results, with transforms that look at values alone and always answer, for which
two calls do not both come to what they come to with nothing kept. -/
structure KeptShows (m : Mutator) (c c' : Value) : Prop where
  caching : m.caching = true
  cache : m.cache = []
  names : m.names.Nodup
  ofValue : ∀ e ∈ m.transforms, e.2.IsOfValue
  answers : ∀ e ∈ m.transforms, ∀ v criteria, ∃ a, e.2.apply v criteria = .ok a
  objects : ∀ v ∈ [c, c'], ∃ mark fields, v = .object mark fields
  differs : (m.mutateEach [c, c']).1 ≠ [c, c'].map fun c => (m.mutate c).1

theorem gives_of_mutateEach_eq {c c' : Value}
    (h : (m.mutateEach [c, c']).1 = [c, c'].map fun c => (m.mutate c).1) (v : Value) :
    (m.mutate c).2.1.gives c' v = m.gives c' v := by
  have hsecond : ((m.mutate c).2.1.mutate c').1 = (m.mutate c').1 :=
    (List.cons.inj (List.cons.inj h).2).1
  rw [gives, gives, hsecond]

/-- **What is kept shows** where two values of a field have one key and other answers, and where a kept
result is put in before a path into it is followed. -/
theorem kept_shows :
    KeptShows ⟨[("a", .uppering 0)], true, [], 0⟩
      (.object none [("a", .int 1)]) (.object none [("a", .str "1")]) ∧
    KeptShows ⟨[("a", .constant (.object none [("x", .str "q")]) 0), ("a.x", .uppering 0)],
      true, [], 0⟩ (.object none [("a", .int 1)]) (.object none [("a", .int 1)]) := by
  refine ⟨⟨rfl, rfl, by decide, ?_, ?_, ?_, fun h => ?_⟩, ⟨rfl, rfl, by decide, ?_, ?_, ?_, fun h => ?_⟩⟩
  · exact List.forall_mem_singleton.mpr (Transform.isOfValue_uppering 0)
  · exact List.forall_mem_singleton.mpr fun v _ => ⟨_, rfl⟩
  · exact List.forall_mem_cons.mpr ⟨⟨_, _, rfl⟩, List.forall_mem_singleton.mpr ⟨_, _, rfl⟩⟩
  · exact absurd (gives_of_mutateEach_eq h (.object none [("a", .str "1")])) (by decide +kernel)
  · exact List.forall_mem_cons.mpr ⟨Transform.isOfValue_constant _ 0,
      List.forall_mem_singleton.mpr (Transform.isOfValue_uppering 0)⟩
  · exact List.forall_mem_cons.mpr ⟨fun v _ => ⟨_, rfl⟩,
      List.forall_mem_singleton.mpr fun v _ => ⟨_, rfl⟩⟩
  · exact List.forall_mem_cons.mpr ⟨⟨_, _, rfl⟩, List.forall_mem_singleton.mpr ⟨_, _, rfl⟩⟩
  · exact absurd (gives_of_mutateEach_eq h (.object none [("a", .object none [("x", .str "q")])]))
      (by decide +kernel)

end Mutator

end Verdict
