import Verdict.Operator.BuiltIn
import Verdict.Proofs.Calendar.Range
import Verdict.Proofs.Limit
import Verdict.Proofs.Pattern.Limit

/-!
# Proofs/Operator/Decide — the built-in operators decide, up to three limits

    self-contains-any, …      an integer to be written has too many digits
    date-equals-to-now, …     the day in universal time is not in the calendar
    matches, not-matches      the pattern exceeds a limit of patterns
    every other operator      none

`Operator.Limits` says which operator meets which limit on which values, and
`Operator.stopsOnly_test` that nothing else keeps a built-in operator from deciding.
-/

namespace Verdict

/-! ## Tests -/

/-- A test that decides on all values. -/
def Test.Decides (t : Test) : Prop := ∀ c v, ∃ b, t c v = .ok b

namespace Test

@[simp] theorem decides_ofRelation (holds : Value → Value → Bool) : (ofRelation holds).Decides :=
  fun _ _ => ⟨_, rfl⟩

@[simp] theorem decides_ofProperty (holds : Value → Bool) : (ofProperty holds).Decides :=
  fun _ _ => ⟨_, rfl⟩

/-- A test, or the one that holds where it fails. -/
def IsOrInverse (t t' : Test) : Prop := t' = t ∨ t' = t.inverse

/-- A test and its inverse stop at the same. -/
theorem IsOrInverse.stopsOnly {t t' : Test} (h : IsOrInverse t t') {P : Fault → Prop} {c v : Value}
    (ht : StopsOnly P (t c v)) : StopsOnly P (t' c v) := by
  rcases h with rfl | rfl
  · exact ht
  · exact ht.map _

theorem Decides.stopsOnly {t : Test} (h : t.Decides) {P : Fault → Prop} (c v : Value) :
    StopsOnly P (t c v) := by
  obtain ⟨b, hb⟩ := h c v
  rw [hb]
  exact .ok b

end Test

namespace StopsOnly

variable {α : Type} {P : Fault → Prop} {g : α → Except Fault Bool}

theorem anyM : ∀ {as : List α}, (∀ a ∈ as, StopsOnly P (g a)) → StopsOnly P (as.anyM g)
  | [], _ => .ok _
  | a :: as, h => by
    obtain ⟨ha, has⟩ := List.forall_mem_cons.mp h
    rw [List.anyM_cons]
    refine ha.bind fun b _ => ?_
    split
    · exact .ok _
    · exact anyM has

theorem allM : ∀ {as : List α}, (∀ a ∈ as, StopsOnly P (g a)) → StopsOnly P (as.allM g)
  | [], _ => .ok _
  | a :: as, h => by
    obtain ⟨ha, has⟩ := List.forall_mem_cons.mp h
    rw [List.allM_cons]
    refine ha.bind fun b _ => ?_
    split
    · exact allM has
    · exact .ok _

end StopsOnly

namespace Value

theorem stopsOnly_sought (v : Value) : StopsOnly v.HoldsLong v.sought := by
  unfold sought
  split
  · exact .ok _
  · exact .ok _
  · exact stopsOnly_plain v

/-- Only a text is searched, and only items that cannot be written cannot be searched for. -/
theorem stopsOnly_mentions (c v : Value) :
    StopsOnly (fun f => (∃ s, c = .str s) ∧ v.HoldsLong f) (mentionsAny c v) ∧
    StopsOnly (fun f => (∃ s, c = .str s) ∧ v.HoldsLong f) (mentionsAll c v) := by
  unfold mentionsAny mentionsAll
  split
  · next s mark items =>
    have hitem : ∀ item ∈ items, StopsOnly
        (fun f => (∃ s', Value.str s = .str s') ∧ (Value.list mark items).HoldsLong f)
        (item.sought.map fun part => isPartOf part s) := fun item hitem =>
      ((stopsOnly_sought item).mono fun _ h => ⟨⟨s, rfl⟩, h.item hitem⟩).map _
    exact ⟨.anyM hitem, .allM hitem⟩
  · exact ⟨.ok _, .ok _⟩

/-- Only a moment outside of the calendar is neither today nor on another day. -/
theorem stopsOnly_isToday (now : DateTime) (c : Value) :
    StopsOnly (fun f => (∃ t, c.moment? = some t ∧ ¬ DateTime.IsInCalendar t.instant) ∧
      f = .instantBeyondCalendar) (isToday now c) := by
  unfold isToday
  split
  · exact .ok _
  · next t ht =>
    split
    · exact .ok _
    · next hnone => exact .error ⟨⟨t, ht, t.toUniversal?_eq_none_iff.mp hnone⟩, rfl⟩

/-- Only a pattern that exceeds a limit is neither found in a text nor missing from it. -/
theorem stopsOnly_matchesPattern (c v : Value) :
    StopsOnly (fun f => ∃ s pattern, c = .str s ∧ v = .str pattern ∧
      Pattern.Exceeds pattern.toList f) (matchesPattern c v) := by
  unfold matchesPattern
  split
  · next s pattern =>
    exact StopsOnly.map (fun f hf => ⟨s, pattern, rfl, rfl, Pattern.exceeds_of_compile? hf⟩) _
  · exact .ok _

end Value

namespace Operator

/-! ## Built-in operators -/

/-- Operators that look for the written forms of items in a text. -/
def mentionOperators : List String := [
  "self-contains-any", "self-not-contains-any", "self-contains-all", "self-not-contains-all",
  "self-contains-none"]

/-- Operators that put a moment into universal time. -/
def todayOperators : List String := ["date-equals-to-now", "date-not-equals-to-now"]

/-- What keeps a built-in operator from deciding on a field's value and a constraint's. -/
inductive Limits (o : Operator) (c v : Value) (f : Fault) : Prop
  /-- An item that is looked for in a text cannot be written. -/
  | writing : o.name ∈ mentionOperators → (∃ s, c = .str s) → v.HoldsLong f → Limits o c v f
  /-- A moment has no day in universal time. -/
  | calendar : o.name ∈ todayOperators →
      (∃ t, c.moment? = some t ∧ ¬ DateTime.IsInCalendar t.instant) →
      f = .instantBeyondCalendar → Limits o c v f
  /-- A pattern exceeds a limit of patterns. -/
  | pattern {s pattern : String} : o.name ∈ patternOperators → c = .str s → v = .str pattern →
      Pattern.Exceeds pattern.toList f → Limits o c v f

/-- The built-in operators decide on all values, but for three families. -/
theorem decides_or_isOrInverse (now : DateTime) : ∀ o ∈ builtIns now, o.test.Decides ∨
    (o.name ∈ mentionOperators ∧
      (Test.IsOrInverse Value.mentionsAny o.test ∨ Test.IsOrInverse Value.mentionsAll o.test)) ∨
    (o.name ∈ todayOperators ∧ Test.IsOrInverse (fun c _ => Value.isToday now c) o.test) ∨
    (o.name ∈ patternOperators ∧ Test.IsOrInverse Value.matchesPattern o.test) := by
  simp [builtIns, comparisons, collections, wordings, formats, numerics, hasSign, kinds, booleans,
    presences, times, mentionOperators, todayOperators, patternOperators, Test.IsOrInverse]

/-- **Only its limits keep a built-in operator from deciding.** -/
theorem stopsOnly_test {now : DateTime} {o : Operator} (ho : o ∈ builtIns now) (c v : Value) :
    StopsOnly (o.Limits c v) (o.test c v) := by
  rcases decides_or_isOrInverse now o ho with h | ⟨hname, h | h⟩ | ⟨hname, h⟩ | ⟨hname, h⟩
  · exact h.stopsOnly c v
  · exact (h.stopsOnly (Value.stopsOnly_mentions c v).1).mono fun _ hf => .writing hname hf.1 hf.2
  · exact (h.stopsOnly (Value.stopsOnly_mentions c v).2).mono fun _ hf => .writing hname hf.1 hf.2
  · exact (h.stopsOnly (Value.stopsOnly_isToday now c)).mono fun _ hf =>
      .calendar hname hf.1 hf.2
  · exact (h.stopsOnly (Value.stopsOnly_matchesPattern c v)).mono
      fun _ ⟨_, _, hc, hv, hf⟩ => .pattern hname hc hv hf

end Operator

end Verdict
