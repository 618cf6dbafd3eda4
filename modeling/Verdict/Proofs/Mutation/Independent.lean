import Verdict.Proofs.Mutation.Apart
import Verdict.Proofs.Mutation.Fields

/-!
# Proofs/Mutation/Independent — criteria that do not notice each other

    copies of independent criteria ──▸ outcomes, each with its owner ──▸ orderly hands
                                                      ║ for one copy
                                       the errands it has alone, up to marks or order

Criteria share a run where their fields have one key.  They are **independent** where this does not
show: transforms answer the same for both, and in both the fields are in places apart, so that the
order in which answers come does not matter (`Mutator.Independent`).  Then outcomes can be handed out
in an orderly way (`AreIndependent.isOrderly`), and each copy becomes what it becomes alone
(`AreIndependent.unmarked_receive`).
-/

namespace Verdict

namespace Mutator

/-- The fields of criteria that transforms change, with their keys: none where there is no copy. -/
def fields (m : Mutator) (c : Value) : List (CacheKey × Field) :=
  if m.isCopied c then Field.requests m.transforms (m.copyOf c) else []

/-- What the transform of a field answers to criteria alone. -/
def answer (m : Mutator) (c : Value) (f : Field) : Except Fault Value :=
  f.transform.apply f.input (m.copyOf c)

/-- All transforms answer. -/
def Succeeds (m : Mutator) (c : Value) : Prop := ∀ q ∈ m.fields c, ∃ a, m.answer c q.2 = .ok a

instance (m : Mutator) (c : Value) : Decidable (m.Succeeds c) :=
  decidable_of_iff (∀ q ∈ m.fields c, (m.answer c q.2).toOption.isSome) <|
    forall₂_congr fun q _ => by
      cases m.answer c q.2 with
      | error f => exact ⟨nofun, nofun⟩
      | ok a => exact ⟨fun _ => ⟨a, rfl⟩, fun _ => rfl⟩

/-- Criteria whose fields are in places apart: no field has two transforms, no field that is written is
inside another one, and the container around one occurs once and is in no answer. -/
structure IsApart (m : Mutator) (c : Value) : Prop where
  names : ((m.fields c).map fun q => q.2.name).Nodup
  apart : (m.fields c).Pairwise fun q q' => ∀ s ∈ Path.place? q.2.name (m.copyOf c),
    ∀ s' ∈ Path.place? q'.2.name (m.copyOf c), s.Apart s'
  once : ∀ q ∈ m.fields c, ∀ p, Path.IsInto q.2.name (m.copyOf c) p →
    (m.copyOf c).marks.count p = 1
  avoided : ∀ q ∈ m.fields c, ∀ p, Path.IsInto q.2.name (m.copyOf c) p →
    ∀ q' ∈ m.fields c, ∀ a, m.answer c q'.2 = .ok a → p ∉ a.marks

/-- Criteria that do not notice each other: where two of their fields share a run, both have their
fields in places apart, and the transform answers the same to both. -/
def Independent (m : Mutator) (c c' : Value) : Prop :=
  ∀ q ∈ m.fields c, ∀ q' ∈ m.fields c', q.1 = q'.1 →
    m.IsApart c ∧ m.IsApart c' ∧
      (m.answer c q.2).map Value.unmarked = (m.answer c' q'.2).map Value.unmarked

/-- A mark of a container around a field, in a copy with its marks moved on. -/
def IsWritten (m : Mutator) (c : Value) (k n : Nat) : Prop :=
  ∃ q ∈ m.fields c, Path.IsInto q.2.name ((m.copyOf c).rename (· + k)) n

/-- What the transform of a key answers to criteria, without marks. -/
def content (m : Mutator) (c : Value) (key : CacheKey) : Value :=
  match (Entries.find? key (m.fields c)).map (m.answer c) with
  | some (.ok a) => a.unmarked
  | _ => .null

variable {m : Mutator} {c c' : Value} {k n : Nat}

theorem Independent.symm (h : m.Independent c c') : m.Independent c' c := fun q hq q' hq' heq =>
  have ⟨hc, hc', hanswer⟩ := h q' hq' q hq heq.symm
  ⟨hc', hc, hanswer.symm⟩

theorem of_mem_fields {q : CacheKey × Field} (h : q ∈ m.fields c) :
    (q.2.name, q.2.transform) ∈ m.transforms ∧
      Path.resolve q.2.name (m.copyOf c) = .ok (some q.2.input) ∧ q.1.1 = q.2.name := by
  rw [fields] at h
  split at h
  · exact Field.of_mem_requests h
  · cases h

theorem IsWritten.mem_marks (h : m.IsWritten c k n) : n ∈ ((m.copyOf c).rename (· + k)).marks :=
  h.choose_spec.2.mem_marks

namespace IsApart

/-- The container around a field occurs once. -/
theorem count_marks (h : m.IsApart c) (hn : m.IsWritten c k n) :
    ((m.copyOf c).rename (· + k)).marks.count n = 1 := by
  obtain ⟨q, hq, hinto⟩ := hn
  obtain ⟨p, hp, rfl⟩ := hinto.of_rename
  have hpoint : (fun x => x == p + k) ∘ (· + k) = fun x => x == p := funext fun x => by
    rw [Function.comp, Bool.eq_iff_iff, beq_iff_eq, beq_iff_eq]
    exact Nat.add_right_cancel_iff
  rw [Value.marks_rename, List.count, List.countP_map, hpoint]
  exact h.once q hq p hp

/-- The container around a field is in no answer. -/
theorem not_mem_answer (h : m.IsApart c) (hn : m.IsWritten c k n) {q : CacheKey × Field}
    (hq : q ∈ m.fields c) {a : Value} (ha : m.answer c q.2 = .ok a) :
    n ∉ (a.rename (· + k)).marks := by
  obtain ⟨q', hq', hinto⟩ := hn
  obtain ⟨p, hp, rfl⟩ := hinto.of_rename
  rw [Value.marks_rename]
  intro hmem
  obtain ⟨p', hp', heq⟩ := List.mem_map.mp hmem
  exact h.avoided q' hq' p hp q hq a ha (Nat.add_right_cancel heq ▸ hp')

/-- Fields in places apart have keys of their own. -/
theorem nodup_keys (h : m.IsApart c) : ((m.fields c).map Prod.fst).Nodup := by
  refine List.pairwise_map.mpr ((List.pairwise_map.mp h.names).imp_of_mem ?_)
  intro q q' hq hq' hname hkey
  exact hname (by rw [← (of_mem_fields hq).2.2, ← (of_mem_fields hq').2.2, hkey])

theorem content_of_answer (h : m.IsApart c) {q : CacheKey × Field} (hq : q ∈ m.fields c) {a : Value}
    (ha : m.answer c q.2 = .ok a) : m.content c q.1 = a.unmarked := by
  rw [content, Entries.find?_of_mem h.nodup_keys hq, Option.map_some, ha]

end IsApart

/-! ## Copies of independent criteria -/

/-- Independent criteria with plain transforms that answer, and their copies. -/
structure AreIndependent (m : Mutator) (cs : List Value) (copies : List WorkingCopy) (next : Nat)
    (shift owner : Nat → Nat) : Prop extends m.AreCopies cs copies next shift owner where
  copied {i : Nat} {c : Value} : cs[i]? = some c → m.isCopied c = true
  plain : ∀ e ∈ m.transforms, e.2.IsPlain
  succeeds {i : Nat} {c : Value} : cs[i]? = some c → m.Succeeds c
  independent {i i' : Nat} {c c' : Value} : cs[i]? = some c → cs[i']? = some c' → i ≠ i' →
    m.Independent c c'

/-- A run whose key is that of a field, and whose outcome is what the transform answers; its marks are
those of the copy that started it, or its own. -/
structure IsAnswered (m : Mutator) (cs : List Value) (shift owner : Nat → Nat) (r : Run) : Prop where
  start : ∃ i c q a v, cs[i]? = some c ∧ q ∈ m.fields c ∧ q.1 = r.key ∧ m.answer c q.2 = .ok a ∧
    r.outcome = some (.ok v) ∧ v.unmarked = a.unmarked ∧
    ∀ n ∈ v.marks, owner n = i ∧ (m.IsApart c → ¬ m.IsWritten c (shift i) n)
  waiting : ∀ i ∈ r.copies, ∃ c, cs[i]? = some c ∧ ∃ q ∈ m.fields c, q.1 = r.key

namespace AreIndependent

variable {cs : List Value} {copies : List WorkingCopy} {next i : Nat} {shift owner : Nat → Nat}

/-- The requests of a copy are those for its fields. -/
theorem requests_copy (h : m.AreIndependent cs copies next shift owner) (hc : cs[i]? = some c) :
    Field.requests m.transforms ((m.copyOf c).rename (· + shift i)) =
      (m.fields c).map fun q => (q.1, q.2.rename (· + shift i)) := by
  rw [Field.requests_rename, fields, if_pos (h.copied hc)]

theorem exists_of_copy (h : m.AreIndependent cs copies next shift owner) {copy : WorkingCopy}
    (hcopy : copies[i]? = some copy) : ∃ c, cs[i]? = some c ∧
      copy = ⟨0, (m.copyOf c).rename (· + shift i)⟩ ∧
      Field.requests m.transforms copy.value =
        (m.fields c).map fun q => (q.1, q.2.rename (· + shift i)) := by
  have hlt : i < cs.length := h.length ▸ (List.getElem?_eq_some_iff.mp hcopy).1
  have hc := List.getElem?_eq_getElem hlt
  obtain rfl := Option.some.inj (hcopy.symm.trans (h.copy hc))
  exact ⟨cs[i], hc, rfl, h.requests_copy hc⟩

/-- An answer has no marks but those of its copy. -/
theorem mem_marks_answer (h : m.AreIndependent cs copies next shift owner) {q : CacheKey × Field}
    (hq : q ∈ m.fields c) {a : Value} (ha : m.answer c q.2 = .ok a) (hn : n ∈ a.marks) :
    n ∈ (m.copyOf c).marks := by
  obtain ⟨htransform, hinput, -⟩ := of_mem_fields hq
  rcases (h.plain _ htransform).ignoresMarks.mem_marks_apply ha hn with hn | hn
  · exact Path.mem_marks_of_resolve hinput hn
  · exact hn

/-- **A run is started by a field, and answers as the transform does alone**; for it wait only copies
with a field of its key. -/
theorem started (h : m.AreIndependent cs copies next shift owner) :
    ∀ r ∈ Desk.enrollAll (Desk.requests m.transforms copies) [],
      (∃ i c q a, cs[i]? = some c ∧ q ∈ m.fields c ∧ q.1 = r.key ∧ r.copies.head? = some i ∧
        r.transform = q.2.transform ∧ r.input = q.2.input.rename (· + shift i) ∧
        m.answer c q.2 = .ok a ∧
        r.transform.apply r.input (r.criteria copies) = .ok (a.rename (· + shift i))) ∧
      (∀ i ∈ r.copies, ∃ c, cs[i]? = some c ∧ ∃ q ∈ m.fields c, q.1 = r.key) ∧
      r.outcome = none := by
  intro r hr
  have hfrom := Run.comesFrom_enrollAll _ (List.Subset.refl (Desk.requests m.transforms copies))
    (List.forall_mem_nil _) r hr
  -- A request is for a field of the criteria, with the marks of their copy.
  have hrequest : ∀ {i q}, (i, q) ∈ Desk.requests m.transforms copies → ∃ c, cs[i]? = some c ∧
      ∃ q' ∈ m.fields c, q = (q'.1, q'.2.rename (· + shift i)) := fun {i q} hq => by
    obtain ⟨copy, hcopy, hmem⟩ := Desk.exists_of_mem_requests hq
    obtain ⟨c, hc, -, hrequests⟩ := h.exists_of_copy hcopy
    rw [hrequests] at hmem
    obtain ⟨q', hq', heq⟩ := List.mem_map.mp hmem
    exact ⟨c, hc, q', hq', heq.symm⟩
  refine ⟨?_, fun i hi => ?_, hfrom.outcome⟩
  · obtain ⟨⟨i, _⟩, hmem, hhead, hkey, htransform, hinput⟩ := hfrom.start
    obtain ⟨c, hc, q, hq, rfl⟩ := hrequest hmem
    obtain ⟨a, ha⟩ := h.succeeds hc q hq
    refine ⟨i, c, q, a, hc, hq, hkey.symm, hhead, htransform, hinput, ha, ?_⟩
    have hplain := h.plain _ (of_mem_fields hq).1
    rw [Run.criteria_of_head hhead (h.copy hc), htransform, hinput]
    refine (hplain.rename (shift_injective (shift i)) q.2.input (m.copyOf c)).trans ?_
    exact congrArg (Except.map _) ha
  · obtain ⟨⟨i', _⟩, hmem, rfl, hkey⟩ := hfrom.waiting i hi
    obtain ⟨c, hc, q, hq, rfl⟩ := hrequest hmem
    exact ⟨c, hc, q, hq, hkey⟩

/-- **All runs are answered**, and their new marks have owners too. -/
theorem exists_owner (h : m.AreIndependent cs copies next shift owner) :
    ∃ owner' : Nat → Nat, (∀ n < next, owner' n = owner n) ∧
      ∀ r ∈ Desk.outcomes m.transforms copies next, m.IsAnswered cs shift owner' r := by
  obtain ⟨owner', howner, hruns⟩ := Run.outcome_applyEach copies
    (Z := fun i n => ∃ c, cs[i]? = some c ∧ m.IsApart c ∧ m.IsWritten c (shift i) n)
    (Desk.enrollAll (Desk.requests m.transforms copies) []) next owner
    (fun i n ⟨c, hc, _, hwritten⟩ => h.lt_next hc hwritten.mem_marks) fun r hr => by
      obtain ⟨⟨i, c, q, a, hc, hq, -, hhead, -, -, ha, happly⟩, -, -⟩ := h.started r hr
      refine ⟨i, _, hhead, happly, fun n hn => ?_⟩
      have hmem : n ∈ ((m.copyOf c).rename (· + shift i)).marks := by
        rw [Value.marks_rename] at hn ⊢
        obtain ⟨n₀, hn₀, rfl⟩ := List.mem_map.mp hn
        exact List.mem_map_of_mem (h.mem_marks_answer hq ha hn₀)
      refine ⟨h.lt_next hc hmem, h.owner hc n hmem, ?_⟩
      rintro ⟨c', hc', hapart, hwritten⟩
      obtain rfl := Option.some.inj (hc.symm.trans hc')
      exact hapart.not_mem_answer hwritten hq ha hn
  refine ⟨owner', howner, fun r' hr' => ?_⟩
  obtain ⟨r, hr, i, a', v, hhead, happly', rfl, hv, hmarks⟩ := hruns r' hr'
  obtain ⟨⟨i', c, q, a, hc, hq, hkey, hhead', -, -, ha, happly⟩, hwaiting, -⟩ := h.started r hr
  obtain rfl := Option.some.inj (hhead.symm.trans hhead')
  obtain rfl := Except.ok.inj (happly'.symm.trans happly)
  refine ⟨⟨i, c, q, a, v, hc, hq, hkey, ha, rfl, hv.trans (Value.unmarked_rename a),
    fun n hn => ⟨(hmarks n hn).1, fun hapart hwritten => ?_⟩⟩, hwaiting⟩
  exact (hmarks n hn).2 ⟨c, hc, hapart, hwritten⟩

/-! ## Errands -/

variable {owner' : Nat → Nat} {e : String × Value}

/-- **An errand of a copy is an answer to one of its fields**, with marks of the copy that asked first;
that one is the copy itself, or both have their fields in places apart. -/
theorem errand (h : m.AreIndependent cs copies next shift owner)
    (hanswered : ∀ r ∈ Desk.outcomes m.transforms copies next, m.IsAnswered cs shift owner' r)
    (hc : cs[i]? = some c) (he : e ∈ Run.errandsFor i (Desk.outcomes m.transforms copies next)) :
    (∃ q ∈ m.fields c, e.1 = q.2.name) ∧ ∃ i' c', cs[i']? = some c' ∧
      (∀ n ∈ e.2.marks, owner' n = i' ∧ (m.IsApart c' → ¬ m.IsWritten c' (shift i') n)) ∧
      (i' ≠ i → m.IsApart c' ∧ m.IsApart c) := by
  obtain ⟨r, hr, hi, hname, houtcome⟩ := Run.exists_of_mem_errandsFor he
  obtain ⟨⟨i', c', q', a, v, hc', hq', hkey', -, hv, -, hmarks⟩, hwaiting⟩ := hanswered r hr
  obtain ⟨c₁, hc₁, q, hq, hkey⟩ := hwaiting i hi
  obtain rfl := Option.some.inj (hc₁.symm.trans hc)
  obtain rfl := Except.ok.inj (Option.some.inj (hv.symm.trans houtcome))
  refine ⟨⟨q, hq, ?_⟩, i', c', hc', hmarks, fun hne => ?_⟩
  · rw [hname, ← hkey, (of_mem_fields hq).2.2]
  · obtain ⟨hapart', hapart, -⟩ := h.independent hc' hc hne q' hq' q hq (hkey'.trans hkey.symm)
    exact ⟨hapart', hapart⟩

/-- A run that criteria with fields in places apart wait for comes to what it comes to for them. -/
theorem content_of_outcome (h : m.AreIndependent cs copies next shift owner) {r : Run}
    (hr : m.IsAnswered cs shift owner' r) (hc : cs[i]? = some c) (hapart : m.IsApart c)
    (hi : i ∈ r.copies) : ∃ v, r.outcome = some (.ok v) ∧ v.unmarked = m.content c r.key := by
  obtain ⟨⟨i', c', q', a, v, hc', hq', hkey', ha, hv, hunmarked, -⟩, hwaiting⟩ := hr
  obtain ⟨c₁, hc₁, q, hq, hkey⟩ := hwaiting i hi
  obtain rfl := Option.some.inj (hc₁.symm.trans hc)
  refine ⟨v, hv, hunmarked.trans ?_⟩
  -- The run was started for these criteria, or for others that it answers alike.
  by_cases hne : i' = i
  · subst hne
    obtain rfl := Option.some.inj (hc'.symm.trans hc)
    rw [← hkey', hapart.content_of_answer hq' ha]
  · obtain ⟨a₁, ha₁⟩ := h.succeeds hc q hq
    obtain ⟨-, -, heq⟩ := h.independent hc' hc hne q' hq' q hq (hkey'.trans hkey.symm)
    rw [ha, ha₁] at heq
    rw [← hkey, hapart.content_of_answer hq ha₁]
    exact Except.ok.inj heq

/-- **Criteria with fields in places apart get the answers that they get alone**, in some order. -/
theorem contents_errands (h : m.AreIndependent cs copies next shift owner)
    (hanswered : ∀ r ∈ Desk.outcomes m.transforms copies next, m.IsAnswered cs shift owner' r)
    (hc : cs[i]? = some c) (hapart : m.IsApart c) :
    ((Run.errandsFor i (Desk.outcomes m.transforms copies next)).map fun e =>
      (e.1, e.2.unmarked)).Perm ((m.fields c).map fun q => (q.2.name, m.content c q.1)) := by
  have hown : (Desk.requests m.transforms copies).filter (fun q => q.1 = i) =
      (m.fields c).map fun q => (i, q.1, q.2.rename (· + shift i)) := by
    rw [Desk.filter_requests (h.copy hc) (fun _ _ => decide_eq_true rfl)
      (fun j _ _ hj _ _ => decide_eq_false hj), h.requests_copy hc, List.map_map]
    rfl
  have hkeys := Run.keysFor_enrollAll i (Desk.requests m.transforms copies) []
  rw [hown, List.map_map] at hkeys
  rw [Run.map_errandsFor fun r hr => h.content_of_outcome (hanswered r hr) hc hapart,
    Desk.outcomes, Run.keysFor_applyEach]
  refine (hkeys.map _).trans (List.Perm.of_eq ?_)
  rw [Run.keysFor, List.flatMap_nil, List.nil_append, List.map_map]
  exact List.map_congr_left fun q hq => Prod.ext (of_mem_fields hq).2.2 rfl

/-- The marks of a copy are its own. -/
theorem owner_copy (h : m.AreIndependent cs copies next shift owner)
    (howner : ∀ n < next, owner' n = owner n) (hc : cs[i]? = some c)
    (hn : n ∈ ((m.copyOf c).rename (· + shift i)).marks) : owner' n = i :=
  (howner n (h.lt_next hc hn)).trans (h.owner hc n hn)

/-- **Criteria with fields in places apart receive their errands in places apart.** -/
theorem receivesApart (h : m.AreIndependent cs copies next shift owner)
    (howner : ∀ n < next, owner' n = owner n)
    (hanswered : ∀ r ∈ Desk.outcomes m.transforms copies next, m.IsAnswered cs shift owner' r)
    (hc : cs[i]? = some c) (hapart : m.IsApart c) :
    Value.ReceivesApart (m.IsWritten c (shift i)) (fun name => Path.place? name (m.copyOf c))
      ((m.copyOf c).rename (· + shift i))
      (Run.errandsFor i (Desk.outcomes m.transforms copies next)) where
  places := fun e _ => Path.place?_remark (Value.remarks_rename _) ..
  readOnly := fun e he hnone => by
    obtain ⟨⟨q, hq, hname⟩, -⟩ := h.errand hanswered hc he
    rw [← Path.place?_remark (Value.remarks_rename (· + shift i))] at hnone
    refine Path.place?_of_resolve (v := q.2.input.rename (· + shift i)) ?_ hnone
    rw [hname, (Value.remarks_rename _).resolve, (of_mem_fields hq).2.1]
    rfl
  apart := by
    have hperm := h.contents_errands hanswered hc hapart
    have hfields : ((m.fields c).map fun q => (q.2.name, m.content c q.1)).Pairwise
        fun e e' => ∀ s ∈ Path.place? e.1 (m.copyOf c), ∀ s' ∈ Path.place? e'.1 (m.copyOf c),
          s.Apart s' := List.pairwise_map.mpr hapart.apart
    have herrands := (hperm.pairwise_iff fun hst s hs s' hs' => (hst s' hs' s hs).symm).mpr hfields
    rwa [List.pairwise_map] at herrands
  once := fun e he p hp => by
    obtain ⟨⟨q, hq, hname⟩, -⟩ := h.errand hanswered hc he
    have hwritten : m.IsWritten c (shift i) p := ⟨q, hq, hname ▸ hp⟩
    exact ⟨hwritten, hapart.count_marks hwritten⟩
  avoided := fun e he p hp hmem => by
    obtain ⟨-, i', c', hc', hmarks, -⟩ := h.errand hanswered hc he
    obtain ⟨howner', hnot⟩ := hmarks p hmem
    obtain rfl : i = i' := (h.owner_copy howner hc hp.mem_marks).symm.trans howner'
    obtain rfl := Option.some.inj (hc.symm.trans hc')
    exact hnot hapart hp

/-- The marks that one of independent criteria is written into: the containers around its fields where
these are in places apart, else any of its own. -/
def Writes (m : Mutator) (cs : List Value) (shift owner : Nat → Nat) (i n : Nat) : Prop :=
  owner n = i ∧ ∀ c, cs[i]? = some c → m.IsApart c → m.IsWritten c (shift i) n

/-- A copy is written into where it may be. -/
theorem writesIn_errands (h : m.AreIndependent cs copies next shift owner)
    (howner : ∀ n < next, owner' n = owner n)
    (hanswered : ∀ r ∈ Desk.outcomes m.transforms copies next, m.IsAnswered cs shift owner' r)
    (hc : cs[i]? = some c) :
    WritesIn (Writes m cs shift owner' i) ((m.copyOf c).rename (· + shift i))
      (Run.errandsFor i (Desk.outcomes m.transforms copies next)) := by
  by_cases hapart : m.IsApart c
  · refine (Value.receive_apart _ (h.receivesApart howner hanswered hc hapart)).2.imp fun n hn => ?_
    refine ⟨h.owner_copy howner hc hn.mem_marks, fun c' hc' _ => ?_⟩
    obtain rfl := Option.some.inj (hc.symm.trans hc')
    exact hn
  · -- Such criteria share no run, so what they get has marks of theirs only.
    refine (writesIn_of_marks (T := fun n => owner' n = i) _ rfl
      (fun n => h.owner_copy howner hc) fun e he n hn => ?_).imp
      fun n hn => ⟨hn, fun c' hc' hapart' => ?_⟩
    · obtain ⟨-, i', c', -, hmarks, hother⟩ := h.errand hanswered hc he
      have hi : i' = i := Decidable.byContradiction fun hne => hapart (hother hne).2
      exact hi ▸ (hmarks n hn).1
    · obtain rfl := Option.some.inj (hc.symm.trans hc')
      exact absurd hapart' hapart

/-- What a copy gets has no marks that another one is written into. -/
theorem not_writes_of_errand (h : m.AreIndependent cs copies next shift owner)
    (hanswered : ∀ r ∈ Desk.outcomes m.transforms copies next, m.IsAnswered cs shift owner' r)
    (hc : cs[i]? = some c) (he : e ∈ Run.errandsFor i (Desk.outcomes m.transforms copies next))
    (hne : i' ≠ i) (hn : n ∈ e.2.marks) : ¬ Writes m cs shift owner' i' n := by
  intro hW
  obtain ⟨-, i₁, c₁, hc₁, hmarks, hother⟩ := h.errand hanswered hc he
  obtain ⟨howner', hnot⟩ := hmarks n hn
  obtain rfl : i' = i₁ := hW.1.symm.trans howner'
  obtain ⟨hapart₁, -⟩ := hother hne
  exact hnot hapart₁ (hW.2 c₁ hc₁ hapart₁)

/-- **The outcomes of independent criteria can be handed out in an orderly way.** -/
theorem isOrderly (h : m.AreIndependent cs copies next shift owner)
    (howner : ∀ n < next, owner' n = owner n)
    (hanswered : ∀ r ∈ Desk.outcomes m.transforms copies next, m.IsAnswered cs shift owner' r)
    {d : Desk} (hcopies : d.copies = copies)
    (hruns : d.runs = Desk.outcomes m.transforms copies next) :
    d.IsOrderly (Writes m cs shift owner') (Run.hands 0 d.runs) := by
  constructor
  case ready =>
    intro hand hmem
    obtain ⟨⟨r, j⟩, hr, hhand⟩ := List.mem_flatMap.mp hmem
    obtain ⟨i, -, rfl⟩ := List.mem_map.mp hhand
    have hrun : d.runs[j]? = some r := List.mem_zipIdx_iff_getElem?.mp hr
    obtain ⟨-, -, -, -, v, -, -, -, -, hv, -⟩ :=
      (hanswered r (hruns ▸ List.mem_of_getElem? hrun)).start
    rw [Desk.errand?_eq hrun, hv]
    rfl
  case writes =>
    intro i copy hcopy
    obtain ⟨c, hc, rfl, -⟩ := h.exists_of_copy (hcopies ▸ hcopy)
    rw [Run.errands_hands, hruns]
    exact h.writesIn_errands howner hanswered hc
  case copies =>
    intro i i' copy hcopy hne n hn hW
    obtain ⟨c, hc, rfl, -⟩ := h.exists_of_copy (hcopies ▸ hcopy)
    exact hne (hW.1.symm.trans (h.owner_copy howner hc hn))
  case errands =>
    intro i i' copy hcopy hne e he n hn
    obtain ⟨c, hc, rfl, -⟩ := h.exists_of_copy (hcopies ▸ hcopy)
    rw [Run.errands_hands, hruns] at he
    exact h.not_writes_of_errand hanswered hc he hne hn

/-! ## What each copy becomes -/

/-- Criteria that are independent of others are so alone. -/
theorem single (h : m.AreIndependent cs copies next shift owner) (hc : cs[i]? = some c) :
    m.AreIndependent [c] [⟨0, m.copyOf c⟩] (c.copied m.nextMark).2 (fun _ => 0) fun _ => 0 := by
  refine ⟨areCopies_single m c, fun hj => ?_, h.plain, fun hj => ?_, fun hj hj' hne => ?_⟩
  · exact (eq_of_getElem?_singleton hj).2 ▸ h.copied hc
  · exact (eq_of_getElem?_singleton hj).2 ▸ h.succeeds hc
  · have hsame := (eq_of_getElem?_singleton hj).1.trans (eq_of_getElem?_singleton hj').1.symm
    exact absurd hsame hne

/-- Criteria with fields in places apart become what they become alone: their errands are the same, in
some order. -/
theorem unmarked_receive_of_isApart (h : m.AreIndependent cs copies next shift owner)
    (hc : cs[i]? = some c) (hapart : m.IsApart c) :
    (((m.copyOf c).rename (· + shift i)).receive
      (Run.errandsFor i (Desk.outcomes m.transforms copies next))).unmarked =
    ((m.copyOf c).receive (Run.errandsFor 0
      (Desk.outcomes m.transforms [⟨0, m.copyOf c⟩] (c.copied m.nextMark).2))).unmarked := by
  have halone := h.single hc
  obtain ⟨owner', howner, hanswered⟩ := h.exists_owner
  obtain ⟨owner₀, howner₀, hanswered₀⟩ := halone.exists_owner
  have hzero : (m.copyOf c).rename (· + 0) = m.copyOf c := Value.rename_id _
  have hreceives := halone.receivesApart howner₀ hanswered₀ (i := 0) rfl hapart
  rw [hzero] at hreceives
  exact Value.unmarked_receive_congr (h.receivesApart howner hanswered hc hapart) hreceives
    (Value.unmarked_rename _) ((h.contents_errands hanswered hc hapart).trans
      (halone.contents_errands hanswered₀ (i := 0) rfl hapart).symm)

/-- The requests of criteria alone are for their fields. -/
theorem requests_single (h : m.AreIndependent cs copies next shift owner) (hc : cs[i]? = some c) :
    Desk.requests m.transforms [⟨0, m.copyOf c⟩] = (m.fields c).map (Prod.mk 0) := by
  rw [fields, if_pos (h.copied hc), Desk.requests, List.zipIdx_singleton, List.flatMap_singleton]

/-- The runs for the keys of criteria that share no run are those that they have alone. -/
theorem filter_started (h : m.AreIndependent cs copies next shift owner) (hc : cs[i]? = some c)
    (hnot : ¬ m.IsApart c) :
    (Desk.enrollAll (Desk.requests m.transforms copies) []).filter
      (fun r => decide (r.key ∈ (m.fields c).map Prod.fst)) =
    (Desk.enrollAll (Desk.requests m.transforms [⟨0, m.copyOf c⟩]) []).map
      (Run.moved i (· + shift i)) := by
  have hown : (Desk.requests m.transforms copies).filter
      (fun q => decide (q.2.1 ∈ (m.fields c).map Prod.fst)) =
      ((m.fields c).map (Prod.mk 0)).map fun q => (i, q.2.1, q.2.2.rename (· + shift i)) := by
    rw [Desk.filter_requests (h.copy hc) (fun q hq => ?_) fun j copy hcopy hj q hq => ?_,
      h.requests_copy hc, List.map_map, List.map_map]
    · rfl
    · rw [h.requests_copy hc] at hq
      obtain ⟨q', hq', rfl⟩ := List.mem_map.mp hq
      exact decide_eq_true (List.mem_map.mpr ⟨q', hq', rfl⟩)
    · obtain ⟨c', hc', rfl, hrequests'⟩ := h.exists_of_copy hcopy
      rw [hrequests'] at hq
      obtain ⟨q', hq', rfl⟩ := List.mem_map.mp hq
      refine decide_eq_false fun hkey => ?_
      obtain ⟨q, hq, heq⟩ := List.mem_map.mp hkey
      exact hnot (h.independent hc' hc hj q' hq' q hq heq.symm).2.1
  rw [Desk.filter_enrollAll (fun key => decide (key ∈ (m.fields c).map Prod.fst)), List.filter_nil,
    hown, h.requests_single hc]
  exact Run.enrollAll_moved ((m.fields c).map (Prod.mk 0)) []

/-- The runs of criteria alone are ready to be applied. -/
theorem isReady_single (h : m.AreIndependent cs copies next shift owner) (hc : cs[i]? = some c) :
    ∀ r ∈ Desk.enrollAll (Desk.requests m.transforms [⟨0, m.copyOf c⟩]) [],
      r.IsReady (m.copyOf c) (c.copied m.nextMark).2 := by
  intro r hr
  have halone := h.single hc
  have hzero : ∀ v : Value, v.rename (· + 0) = v := Value.rename_id
  obtain ⟨⟨j, c', q, a, hc', hq, -, hhead, htransform, hinput, -, happly⟩, -, houtcome⟩ :=
    halone.started r hr
  obtain ⟨rfl, rfl⟩ := eq_of_getElem?_singleton hc'
  obtain ⟨htransform', hresolve, -⟩ := of_mem_fields hq
  rw [Run.criteria_of_head hhead (halone.copy hc'), hzero] at happly
  refine ⟨hhead, houtcome, htransform ▸ h.plain _ htransform', fun n hn => ?_, _, happly⟩
  rw [hinput, hzero] at hn
  exact ((Value.marks_copied m.nextMark _).2 n (Path.mem_marks_of_resolve hresolve hn)).2

/-- **Criteria that share no run get what they get alone**, with other marks. -/
theorem exists_errandsFor_eq (h : m.AreIndependent cs copies next shift owner)
    (hc : cs[i]? = some c) (hnot : ¬ m.IsApart c) : ∃ ρ : Nat → Nat, Function.Injective ρ ∧
    (m.copyOf c).rename (· + shift i) = (m.copyOf c).rename ρ ∧
    Run.errandsFor i (Desk.outcomes m.transforms copies next) =
      Value.renameErrands ρ (Run.errandsFor 0
        (Desk.outcomes m.transforms [⟨0, m.copyOf c⟩] (c.copied m.nextMark).2)) := by
  have hbelow : ∀ n ∈ (m.copyOf c).marks, n < (c.copied m.nextMark).2 := fun n hn =>
    ((Value.marks_copied m.nextMark c).2 n hn).2
  -- The runs under the keys of these criteria are those that they have alone.
  obtain ⟨ρ, hρ, hagree, hruns⟩ := Run.applyEach_moved
    (p := fun key => decide (key ∈ (m.fields c).map Prod.fst))
    (show [WorkingCopy.mk 0 (m.copyOf c)][0]? = some ⟨0, m.copyOf c⟩ from rfl) (h.copy hc) _ _
    (h.filter_started hc hnot) (h.isReady_single hc) rfl hbelow (shift_injective (shift i))
    fun n hn => Nat.lt_of_lt_of_le (Nat.add_lt_add_right hn _) (h.below hc)
  obtain ⟨owner', -, hanswered⟩ := h.exists_owner
  obtain ⟨owner₀, -, hanswered₀⟩ := (h.single hc).exists_owner
  have hwaiting : ∀ r ∈ Desk.outcomes m.transforms copies next, i ∈ r.copies →
      decide (r.key ∈ (m.fields c).map Prod.fst) = true := fun r hr hi => by
    obtain ⟨c', hc', q, hq, hkey⟩ := (hanswered r hr).waiting i hi
    obtain rfl := Option.some.inj (hc.symm.trans hc')
    exact decide_eq_true (List.mem_map.mpr ⟨q, hq, hkey⟩)
  have hmoved : ∀ r ∈ Desk.outcomes m.transforms [⟨0, m.copyOf c⟩] (c.copied m.nextMark).2,
      ∀ j ∈ r.copies, j = 0 := fun r hr j hj => by
    obtain ⟨c', hc', -⟩ := (hanswered₀ r hr).waiting j hj
    exact (eq_of_getElem?_singleton hc').1
  refine ⟨ρ, hρ, Value.rename_congr fun n hn => (hagree n (hbelow n hn)).symm, ?_⟩
  rw [← Run.errandsFor_moved hmoved, Desk.outcomes, Desk.outcomes, ← hruns]
  exact (Run.errandsFor_filter (p := fun key => decide (key ∈ (m.fields c).map Prod.fst))
    hwaiting).symm

/-- Criteria that share no run become what they become alone: their runs are the same, with other
marks. -/
theorem unmarked_receive_of_not_isApart (h : m.AreIndependent cs copies next shift owner)
    (hc : cs[i]? = some c) (hnot : ¬ m.IsApart c) :
    (((m.copyOf c).rename (· + shift i)).receive
      (Run.errandsFor i (Desk.outcomes m.transforms copies next))).unmarked =
    ((m.copyOf c).receive (Run.errandsFor 0
      (Desk.outcomes m.transforms [⟨0, m.copyOf c⟩] (c.copied m.nextMark).2))).unmarked := by
  obtain ⟨ρ, hρ, hcopy, herrands⟩ := h.exists_errandsFor_eq hc hnot
  rw [herrands, hcopy, Value.receive_rename hρ _ _ rfl, Value.unmarked_rename]

/-- **Each of independent criteria becomes what it becomes alone.** -/
theorem unmarked_receive (h : m.AreIndependent cs copies next shift owner) (hc : cs[i]? = some c) :
    (((m.copyOf c).rename (· + shift i)).receive
      (Run.errandsFor i (Desk.outcomes m.transforms copies next))).unmarked = m.mutated c := by
  rw [mutated, if_pos (h.copied hc)]
  by_cases hapart : m.IsApart c
  · exact h.unmarked_receive_of_isApart hc hapart
  · exact h.unmarked_receive_of_not_isApart hc hapart

end AreIndependent

end Mutator

end Verdict
