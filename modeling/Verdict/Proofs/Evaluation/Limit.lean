import Verdict.Proofs.Entries
import Verdict.Proofs.Limit

/-!
# Proofs/Evaluation/Limit — what stops the judging of a constraint

    message ──▸ filled in, unless it or what it is filled with exceeds the limit on digits
    constraint ──▸ judged, unless it or the criteria exceed the limit, or its operator stops

Whatever a path leads to is a part of the criteria, so nothing exceeds the limit that did not before
(`Constraint.exceeds_of_operand`, `Constraint.exceeds_of_criterion`).  A constraint adds only the
faults of its operator (`Constraint.stopsOnly_judge`), and none where the operator **decides**
(`Constraint.stopsAtDigits_judge`).
-/

namespace Verdict

/-! ## Messages -/

namespace Template

theorem append_of_readGroup? {cs group rest : List Char} (h : readGroup? cs = some (group, rest)) :
    group ++ rest = cs := by
  have hclose : ∀ (opening closing : Char) (cs : List Char),
      readGroup?.close opening closing cs = some (group, rest) → group ++ rest = opening :: cs := by
    intro opening closing cs h
    unfold readGroup?.close at h
    dsimp only at h
    split at h
    · next c after heq =>
      split at h
      · cases h
        have hsplit := List.takeWhile_append_dropWhile
          (p := fun c => c != opening && c != closing) (l := cs)
        rw [heq] at hsplit
        simpa using hsplit
      · cases h
    · cases h
  unfold readGroup? at h
  split at h
  · exact hclose _ _ _ h
  · exact hclose _ _ _ h
  · cases h

theorem append_readGroups : ∀ (fuel : Nat) (cs : List Char),
    (readGroups fuel cs).1 ++ (readGroups fuel cs).2 = cs
  | 0, cs => rfl
  | fuel + 1, cs => by
    rw [readGroups]
    split
    · next group rest h =>
      change group ++ (readGroups fuel rest).1 ++ (readGroups fuel rest).2 = cs
      rw [List.append_assoc, append_readGroups fuel rest, append_of_readGroup? h]
    · rfl

/-- Expressions stand in the text. -/
theorem infix_of_mem_rawExpressions : ∀ (fuel : Nat) (cs : List Char),
    ∀ e ∈ rawExpressions fuel cs, e <:+: cs
  | 0, _, _, h => by cases h
  | _ + 1, [], _, h => by cases h
  | fuel + 1, c :: rest, e, h => by
    rw [rawExpressions] at h
    dsimp only at h
    split at h
    · have hgroups := append_readGroups (rest.length + 1) (rest.dropWhile isPathChar)
      have hsplit := List.takeWhile_append_dropWhile (p := isPathChar) (l := rest)
      rw [← hgroups, ← List.append_assoc] at hsplit
      rcases List.mem_cons.mp h with rfl | h
      · exact List.IsPrefix.isInfix ⟨_, congrArg (c :: ·) hsplit⟩
      · refine (infix_of_mem_rawExpressions fuel _ e h).trans (List.IsSuffix.isInfix ?_)
        exact List.IsSuffix.trans ⟨_, hsplit⟩ (List.suffix_cons ..)
    · exact (infix_of_mem_rawExpressions fuel rest e h).trans (List.suffix_cons ..).isInfix

/-- What is left of a text without its end stands at its start. -/
theorem reverse_prefix_of_suffix {cs ds : List Char} (h : ds <:+ cs.reverse) : ds.reverse <+: cs := by
  rw [← List.reverse_suffix, List.reverse_reverse]
  exact h

theorem isPrefix_balance (opening closing : Char) : ∀ (fuel : Nat) (cs : List Char),
    balance opening closing fuel cs <+: cs
  | 0, cs => List.prefix_refl cs
  | fuel + 1, cs => by
    rw [balance]
    split
    · refine (isPrefix_balance opening closing fuel _).trans (reverse_prefix_of_suffix ?_)
      exact (List.drop_suffix 1 _).trans (List.dropWhile_suffix _)
    · exact List.prefix_refl cs

theorem isPrefix_trim (cs : List Char) : trim cs <+: cs :=
  (reverse_prefix_of_suffix (List.dropWhile_suffix _)).trans
    ((isPrefix_balance '[' ']' _ _).trans (isPrefix_balance '(' ')' _ _))

theorem infix_of_mem_expressions {s e : String} (h : e ∈ expressions s) : e.toList <:+: s.toList := by
  obtain ⟨cs, hcs, rfl⟩ := List.mem_map.mp h
  obtain ⟨raw, hraw, rfl⟩ := List.mem_map.mp (List.mem_filter.mp hcs).1
  rw [String.toList_ofList]
  exact (isPrefix_trim raw).isInfix.trans (infix_of_mem_rawExpressions _ _ raw hraw)

/-- **Only the digits of a message or of what it is filled with keep it from being filled.** -/
theorem stopsOnly_fill (s : String) (context : Value) :
    StopsOnly (fun f => Value.Exceeds (.str s) f ∨ context.Exceeds f) (fill s context) := by
  refine StopsOnly.foldlM (fun expression hexpression text => ?_) s
  have hpart := infix_of_mem_expressions hexpression
  refine ((Path.stopsOnly_resolve expression context).mono fun f h => .inl
    (.digits (.self _) (h.longRun.mono hpart))).bind fun found hfound => ?_
  cases found with
  | none => exact .ok _
  | some v =>
    refine StopsOnly.bind ((Value.stopsOnly_readable v).mono fun f h => ?_) fun _ _ => .ok _
    exact .inr (Path.exceeds_of_resolve hfound (.integer h))

end Template

theorem stopsOnly_fillMessage (context message : Value) :
    StopsOnly (fun f => message.Exceeds f ∨ context.Exceeds f) (fillMessage context message) := by
  unfold fillMessage
  split
  · split
    · exact (Template.stopsOnly_fill _ context).map _
    · exact .ok _
  · exact .ok _

theorem stopsAtDigits_fillMessage (context message : Value) :
    StopsAtDigits (fillMessage context message) := fun f hf =>
  (stopsOnly_fillMessage context message f hf).elim Value.Exceeds.isDigitLimit
    Value.Exceeds.isDigitLimit

/-! ## Constraints -/

namespace Constraint

/-- The values of a constraint. -/
def parts (c : Constraint) : List Value := [c.field, c.operator, c.value, c.message]

/-- A constraint that holds an integer or a text with too many digits. -/
def Exceeds (c : Constraint) (f : Fault) : Prop := ∃ v ∈ c.parts, v.Exceeds f

theorem stopsOnly_resolve (criteria v : Value) : StopsOnly v.Exceeds (resolve criteria v) := by
  unfold resolve
  split
  · exact (Path.stopsOnly_resolveValue v criteria).map _
  · exact .ok _

theorem stopsOnly_resolveItems {criteria : Value} {mark : Mark} {items : List Value}
    (rest : List Value) (h : rest ⊆ items) :
    StopsOnly (Value.Exceeds (.list mark items)) (resolveItems criteria rest) := by
  induction rest with
  | nil => exact .ok _
  | cons v rest ih =>
    rw [List.cons_subset] at h
    rw [resolveItems]
    exact ((stopsOnly_resolve criteria v).mono fun _ hf => hf.item h.1).bind fun _ _ =>
      (ih h.2).bind fun _ _ => .ok _

theorem stopsOnly_operand (criteria v : Value) : StopsOnly v.Exceeds (operand criteria v) := by
  unfold operand
  split
  · exact (stopsOnly_resolveItems _ fun _ h => h).map _
  · exact stopsOnly_resolve criteria _

theorem stopsOnly_criterion (c : Constraint) (criteria : Value) :
    StopsOnly c.field.Exceeds (c.criterion criteria) :=
  (Path.stopsOnly_resolveValue c.field criteria).map _

theorem exceeds_of_resolve {criteria v w : Value} {f : Fault} (h : resolve criteria v = .ok w)
    (hw : w.Exceeds f) : v.Exceeds f ∨ criteria.Exceeds f := by
  unfold resolve at h
  split at h
  · obtain ⟨found, hfound, rfl⟩ := Except.map_eq_ok_iff.mp h
    cases found with
    | none => exact absurd hw Value.Exceeds.not_null
    | some u => exact .inr (Path.exceeds_of_resolveValue hfound hw)
  · cases h
    exact .inl hw

theorem exceeds_of_resolveItems {criteria : Value} {f : Fault} : ∀ {items values : List Value},
    resolveItems criteria items = .ok values → (∃ w ∈ values, w.Exceeds f) →
      (∃ v ∈ items, v.Exceeds f) ∨ criteria.Exceeds f
  | [], _, h, ⟨w, hw, _⟩ => by
    cases h
    cases hw
  | v :: rest, values, h, ⟨w, hw, hf⟩ => by
    obtain ⟨u, hu, h⟩ := Except.bind_eq_ok_iff.mp h
    obtain ⟨us, hus, h⟩ := Except.bind_eq_ok_iff.mp h
    cases h
    rcases List.mem_cons.mp hw with rfl | hw
    · exact (exceeds_of_resolve hu hf).imp_left fun hv => ⟨v, List.mem_cons_self .., hv⟩
    · exact (exceeds_of_resolveItems hus ⟨w, hw, hf⟩).imp_left fun ⟨v', hv', hf'⟩ =>
        ⟨v', List.mem_cons_of_mem _ hv', hf'⟩

/-- The value that an operator is given exceeds the limit only where the constraint or the criteria
do. -/
theorem exceeds_of_operand {criteria v w : Value} {f : Fault} (h : operand criteria v = .ok w)
    (hw : w.Exceeds f) : v.Exceeds f ∨ criteria.Exceeds f := by
  unfold operand at h
  split at h
  · obtain ⟨values, hvalues, rfl⟩ := Except.map_eq_ok_iff.mp h
    exact (exceeds_of_resolveItems hvalues hw.of_list).imp_left fun ⟨v, hv, hf⟩ => hf.item hv
  · exact exceeds_of_resolve h hw

theorem exceeds_of_criterion {c : Constraint} {criteria w : Value} {f : Fault}
    (h : c.criterion criteria = .ok w) (hw : w.Exceeds f) : criteria.Exceeds f := by
  obtain ⟨found, hfound, rfl⟩ := Except.map_eq_ok_iff.mp h
  cases found with
  | none => exact absurd hw Value.Exceeds.not_missing
  | some u => exact Path.exceeds_of_resolveValue hfound hw

theorem exceeds_of_context {c : Constraint} {criterion criteria : Value} {f : Fault}
    (h : (c.context criterion criteria).Exceeds f) :
    c.value.Exceeds f ∨ criterion.Exceeds f ∨ criteria.Exceeds f := by
  have hself : (Value.ofFields [("value", c.value), ("input", criterion)]).Exceeds f →
      c.value.Exceeds f ∨ criterion.Exceeds f ∨ criteria.Exceeds f := by
    intro h
    obtain ⟨e, he, hf⟩ := h.of_object
    simp only [List.mem_cons, List.not_mem_nil, or_false] at he
    rcases he with rfl | rfl
    · exact .inl hf
    · exact .inr (.inl hf)
  unfold context at h
  dsimp only at h
  split at h
  · obtain ⟨e, he, hf⟩ := h.of_object
    rcases Entries.mem_of_mem_put he with heq | he
    · rw [heq] at hf
      exact hself hf
    · exact .inr (.inr (hf.field he))
  · obtain ⟨e, he, hf⟩ := h.of_object
    rw [List.mem_singleton.mp he] at hf
    exact hself hf

theorem stopsOnly_ownMessage (c : Constraint) (criterion criteria : Value) :
    StopsOnly (fun f => c.Exceeds f ∨ criterion.Exceeds f ∨ criteria.Exceeds f)
      (c.ownMessage criterion criteria) := by
  unfold ownMessage
  split
  · refine (stopsOnly_fillMessage _ _).mono fun f h => ?_
    rcases h with h | h
    · exact .inl ⟨c.message, by simp [parts], h⟩
    · exact (exceeds_of_context h).imp_left fun h => ⟨c.value, by simp [parts], h⟩
  · exact .ok _

/-- **Judging a constraint stops only where the constraint or the criteria exceed the limit on
digits, or the operator stops.** -/
theorem stopsOnly_judge (k : Setting) (c : Constraint) :
    StopsOnly (fun f => (c.Exceeds f ∨ k.criteria.Exceeds f) ∨
      ∃ o criterion value, k.registry.find? c.operator = some o ∧
        c.criterion k.criteria = .ok criterion ∧ operand k.criteria c.value = .ok value ∧
        o.test criterion value = .error f) (c.judge k) := by
  have hpart : ∀ {v : Value} {f : Fault}, v ∈ c.parts → v.Exceeds f → c.Exceeds f :=
    fun hv hf => ⟨_, hv, hf⟩
  refine ((stopsOnly_criterion c k.criteria).mono fun f h =>
    .inl (.inl (hpart (by simp [parts]) h))).bind fun criterion hcriterion => ?_
  cases ho : k.registry.find? c.operator with
  | none =>
    refine StopsOnly.bind (StopsOnly.map ?_ _) fun _ _ => .ok _
    exact (Value.stopsOnly_plain c.operator).mono fun f h =>
      .inl (.inl (hpart (by simp [parts]) (.integer h)))
  | some o =>
    refine ((stopsOnly_operand k.criteria c.value).mono fun f h =>
      .inl (.inl (hpart (by simp [parts]) h))).bind fun value hvalue => ?_
    refine StopsOnly.bind (fun f hf => .inr ⟨o, criterion, value, rfl, hcriterion, hvalue, hf⟩)
      fun _ _ => ?_
    refine ((stopsOnly_ownMessage c criterion k.criteria).mono fun f h => .inl ?_).bind
      fun _ _ => .ok _
    rcases h with h | h | h
    · exact .inl h
    · exact .inr (exceeds_of_criterion hcriterion h)
    · exact .inr h

/-- A field with an index of too many digits has no value to be judged. -/
theorem criterion_longIndex {n : Nat} (h : maxIntegerDigits < n) {c : Constraint}
    (hc : c.field = .str (String.ofList (Segment.longIndex n))) {criteria : Value}
    (hcriteria : criteria.get? (String.ofList (Segment.longIndex n)) = none) :
    c.criterion criteria = .error (.numeralTooLong n) := by
  rw [criterion, hc, Path.resolveValue, Path.resolve_longIndex h hcriteria]
  rfl

theorem judge_longIndex {n : Nat} (h : maxIntegerDigits < n) {c : Constraint}
    (hc : c.field = .str (String.ofList (Segment.longIndex n))) {k : Setting}
    (hk : k.criteria.get? (String.ofList (Segment.longIndex n)) = none) :
    c.judge k = .error (.numeralTooLong n) := by
  rw [judge, criterion_longIndex h hc hk]
  rfl

/-- The operator of a constraint, where it is known, decides on the values that it is given. -/
def Decides (k : Setting) (c : Constraint) : Prop :=
  ∀ o criterion value, k.registry.find? c.operator = some o →
    c.criterion k.criteria = .ok criterion → operand k.criteria c.value = .ok value →
    ∃ passed, o.test criterion value = .ok passed

/-- The operator of a constraint that is judged has decided. -/
theorem decides_of_judge {k : Setting} {c : Constraint} (h : ∃ r, c.judge k = .ok r) :
    c.Decides k := by
  obtain ⟨r, h⟩ := h
  intro o criterion value ho hcriterion hvalue
  cases htest : o.test criterion value with
  | ok passed => exact ⟨passed, rfl⟩
  | error f =>
    have hstop : c.judge k = .error f := by
      simp only [judge, hcriterion, ho, hvalue, htest, bind, Except.bind]
    cases h.symm.trans hstop

/-- Where the only operator always decides, every constraint does. -/
theorem decides_of_only {o : Operator} (ho : ∀ criterion value, ∃ b, o.test criterion value = .ok b)
    (criteria : Value) (c : Constraint) : c.Decides ⟨Registry.empty.insert o, criteria⟩ := by
  intro o' criterion value ho' _ _
  have hfound : o' = o := by
    unfold Registry.find? at ho'
    split at ho'
    · have hmem := Entries.mem_of_find? ho'
      simp only [Registry.insert, Registry.empty, Entries.put, List.mem_singleton] at hmem
      exact congrArg Prod.snd hmem
    · cases ho'
  rw [hfound]
  exact ho criterion value

/-- **Judging a constraint stops at nothing but the limit on digits** when its operator decides. -/
theorem stopsAtDigits_judge {k : Setting} {c : Constraint} (h : c.Decides k) :
    StopsAtDigits (c.judge k) := by
  intro f hf
  rcases stopsOnly_judge k c f hf with
    (⟨v, _, hv⟩ | hcriteria) | ⟨o, criterion, value, ho, hcriterion, hvalue, htest⟩
  · exact hv.isDigitLimit
  · exact hcriteria.isDigitLimit
  · obtain ⟨passed, hpassed⟩ := h o criterion value ho hcriterion hvalue
    cases htest.symm.trans hpassed

/-- Constraints that decide are all judged, or one of them meets the limit on digits. -/
theorem judged_or_stopsAtDigits {k : Setting} {cs : List Constraint} (h : ∀ c ∈ cs, c.Decides k) :
    (∀ c ∈ cs, ∃ r, c.judge k = .ok r) ∨
      ∃ c ∈ cs, ∃ f, c.judge k = .error f ∧ f.isDigitLimit = true := by
  by_cases hjudged : ∀ c ∈ cs, ∃ r, c.judge k = .ok r
  · exact .inl hjudged
  · simp only [Classical.not_forall] at hjudged
    obtain ⟨c, hc, hnot⟩ := hjudged
    cases hf : c.judge k with
    | ok r => exact absurd ⟨r, hf⟩ hnot
    | error f => exact .inr ⟨c, hc, f, hf, stopsAtDigits_judge (h c hc) f hf⟩

/-- Constraints that are all judged do not meet the limit. -/
theorem not_stops_of_judged {k : Setting} {cs : List Constraint}
    (h : ∀ c ∈ cs, ∃ r, c.judge k = .ok r) :
    ¬ ∃ c ∈ cs, ∃ f, c.judge k = .error f ∧ f.isDigitLimit = true := by
  rintro ⟨c, hc, f, hf, _⟩
  obtain ⟨r, hr⟩ := h c hc
  cases hr.symm.trans hf

end Constraint

end Verdict
