import Verdict.Entries

/-!
# Proofs/Entries — entries whose values change

Changing every value keeps look-ups and puts in step (`find?_map`, `put_map`), and puts at keys that
are there already commute (`put_comm`).
-/

namespace Verdict.Entries

variable {κ α β : Type} [DecidableEq κ] {key other : κ}

theorem find?_map (f : α → β) (key : κ) (entries : List (κ × α)) :
    find? key (entries.map fun e => (e.1, f e.2)) = (find? key entries).map f := by
  induction entries with
  | nil => rfl
  | cons e rest ih =>
    rw [List.map_cons, find?_cons, find?_cons, ih, apply_ite (Option.map f)]
    rfl

/-- Entries that are made of their keys. -/
theorem find?_map_keys (key : κ) (g : κ → α) (keys : List κ) :
    find? key (keys.map fun k => (k, g k)) = if key ∈ keys then some (g key) else none := by
  induction keys with
  | nil => rfl
  | cons k rest ih =>
    rw [List.map_cons, find?_cons, ih]
    by_cases hk : k = key
    · simp [hk]
    · simp [hk, Ne.symm hk]

theorem find?_append (key : κ) (before after : List (κ × α)) :
    find? key (before ++ after) = (find? key before).or (find? key after) := by
  induction before with
  | nil => rfl
  | cons e rest ih =>
    rw [List.cons_append, find?_cons, find?_cons, ih]
    split <;> rfl

/-- The first of the entries that all have one key. -/
theorem find?_filterMap (key : κ) (f : β → Option α) (l : List β) :
    find? key (l.filterMap fun x => (f x).map (Prod.mk key)) = l.findSome? f := by
  induction l with
  | nil => rfl
  | cons x rest ih =>
    rw [List.filterMap_cons, List.findSome?_cons]
    cases f x with
    | none => exact ih
    | some a => exact if_pos rfl

theorem find?_eq_none_iff {entries : List (κ × α)} :
    find? key entries = none ↔ key ∉ entries.map Prod.fst := by
  induction entries with
  | nil => simp
  | cons e rest ih =>
    obtain ⟨k, b⟩ := e
    by_cases h : k = key
    · simp [find?_cons, h]
    · simp [find?_cons, h, ih, Ne.symm h]

theorem put_map (f : α → β) (key : κ) (a : α) (entries : List (κ × α)) :
    put key (f a) (entries.map fun e => (e.1, f e.2)) =
      (put key a entries).map fun e => (e.1, f e.2) := by
  induction entries with
  | nil => rfl
  | cons e rest ih =>
    rw [List.map_cons, put, put, ih, apply_ite (List.map _)]
    rfl

theorem mem_of_mem_put {a : α} {entries : List (κ × α)} {e : κ × α} (h : e ∈ put key a entries) :
    e.2 = a ∨ e ∈ entries := by
  induction entries with
  | nil => exact .inl (congrArg Prod.snd (List.mem_singleton.mp h))
  | cons e' rest ih =>
    rw [put] at h
    split at h
    · rcases List.mem_cons.mp h with rfl | h
      · exact .inl rfl
      · exact .inr (List.mem_cons_of_mem _ h)
    · rcases List.mem_cons.mp h with rfl | h
      · exact .inr (List.mem_cons_self ..)
      · exact (ih h).imp_right (List.mem_cons_of_mem _)

theorem eq_or_mem_of_mem_put {a : α} {entries : List (κ × α)} {e : κ × α}
    (h : e ∈ put key a entries) : e = (key, a) ∨ e ∈ entries := by
  induction entries with
  | nil => exact .inl (List.mem_singleton.mp h)
  | cons e' rest ih =>
    obtain ⟨k, b⟩ := e'
    rw [put] at h
    split at h
    · next hk =>
      subst hk
      exact (List.mem_cons.mp h).imp_right (List.mem_cons_of_mem _)
    · rcases List.mem_cons.mp h with rfl | h
      · exact .inr (List.mem_cons_self ..)
      · exact (ih h).imp_right (List.mem_cons_of_mem _)

theorem isSome_find?_put (other : κ) (a : α) {entries : List (κ × α)}
    (h : (find? key entries).isSome) :
    (find? other (put key a entries)).isSome = (find? other entries).isSome := by
  by_cases heq : other = key
  · subst heq
    rw [find?_put_self, h]
    rfl
  · rw [find?_put_other heq]

theorem put_put (a b : α) (entries : List (κ × α)) :
    put key b (put key a entries) = put key b entries := by
  induction entries with
  | nil => simp [put]
  | cons e rest ih =>
    obtain ⟨k, c⟩ := e
    by_cases h : k = key
    · rw [put, if_pos h, put, put, if_pos h, if_pos h]
    · rw [put, if_neg h, put, put, if_neg h, if_neg h, ih]

/-- An entry that is found is the first of its key. -/
theorem exists_first_of_find? {a : α} : ∀ {entries : List (κ × α)}, find? key entries = some a →
    ∃ before after, entries = before ++ (key, a) :: after ∧ key ∉ before.map Prod.fst
  | [], h => by cases h
  | (k, c) :: rest, h => by
    rw [find?_cons] at h
    split at h
    · next hk =>
      subst hk
      obtain rfl := Option.some.inj h
      exact ⟨[], rest, rfl, List.not_mem_nil⟩
    · next hk =>
      obtain ⟨before, after, rfl, hfirst⟩ := exists_first_of_find? h
      refine ⟨(k, c) :: before, after, rfl, fun hmem => ?_⟩
      exact (List.mem_cons.mp hmem).elim (fun heq => hk heq.symm) hfirst

/-- The first entry of a key is put in place. -/
theorem put_first {a b : α} {before after : List (κ × α)} (h : key ∉ before.map Prod.fst) :
    put key b (before ++ (key, a) :: after) = before ++ (key, b) :: after := by
  induction before with
  | nil => rw [List.nil_append, put, if_pos rfl, List.nil_append]
  | cons e rest ih =>
    rw [List.map_cons, List.mem_cons, not_or] at h
    rw [List.cons_append, put, if_neg (Ne.symm h.1), ih h.2, List.cons_append]

/-- An entry that is found is the first of its key, and put in place. -/
theorem exists_of_find? {a : α} {entries : List (κ × α)} (h : find? key entries = some a) :
    ∃ before after, entries = before ++ (key, a) :: after ∧
      ∀ b, put key b entries = before ++ (key, b) :: after := by
  obtain ⟨before, after, rfl, hfirst⟩ := exists_first_of_find? h
  exact ⟨before, after, rfl, fun b => put_first hfirst⟩

/-- Puts at different keys commute where both keys are there. -/
theorem put_comm (hne : key ≠ other) (a b : α) {entries : List (κ × α)}
    (hkey : (find? key entries).isSome) (hother : (find? other entries).isSome) :
    put key a (put other b entries) = put other b (put key a entries) := by
  induction entries with
  | nil => cases hkey
  | cons e rest ih =>
    obtain ⟨k, c⟩ := e
    rw [find?_cons] at hkey hother
    by_cases hk : k = key
    · subst hk
      rw [put, put, if_neg hne, if_pos rfl, put, put, if_pos rfl, if_neg hne]
    · rw [if_neg hk] at hkey
      by_cases ho : k = other
      · subst ho
        rw [put, put, if_pos rfl, if_neg hk, put, put, if_neg hk, if_pos rfl]
      · rw [if_neg ho] at hother
        rw [put, put, if_neg ho, if_neg hk, put, put, if_neg hk, if_neg ho, ih hkey hother]

/-! ## Entries with distinct keys -/

theorem put_of_not_mem (a : α) {entries : List (κ × α)}
    (h : key ∉ entries.map Prod.fst) : put key a entries = entries ++ [(key, a)] := by
  induction entries with
  | nil => rfl
  | cons e rest ih =>
    obtain ⟨k, b⟩ := e
    rw [List.map_cons, List.mem_cons, not_or] at h
    rw [put, if_neg (Ne.symm h.1), ih h.2, List.cons_append]

theorem nodup_put {a : α} {entries : List (κ × α)} (h : (entries.map Prod.fst).Nodup) :
    ((put key a entries).map Prod.fst).Nodup := by
  cases hfind : find? key entries with
  | none =>
    have hnot := find?_eq_none_iff.mp hfind
    rw [put_of_not_mem a hnot, List.map_append, List.nodup_append]
    refine ⟨h, List.pairwise_singleton _ _, fun k hk k' hk' heq => hnot ?_⟩
    have hkey : k' = key := List.mem_singleton.mp hk'
    rwa [← hkey, ← heq]
  | some b =>
    obtain ⟨before, after, rfl, hput⟩ := exists_of_find? hfind
    rw [hput]
    rwa [List.map_append, List.map_cons] at h ⊢

theorem find?_of_mem {entries : List (κ × α)} (hnodup : (entries.map Prod.fst).Nodup)
    {a : α} (h : (key, a) ∈ entries) : find? key entries = some a := by
  induction entries with
  | nil => cases h
  | cons e rest ih =>
    obtain ⟨k, b⟩ := e
    rw [List.map_cons, List.nodup_cons] at hnodup
    rcases List.mem_cons.mp h with h | h
    · cases h
      rw [find?_cons, if_pos rfl]
    · have hne : k ≠ key := by
        rintro rfl
        exact hnodup.1 (List.mem_map.mpr ⟨(k, a), h, rfl⟩)
      rw [find?_cons, if_neg hne, ih hnodup.2 h]

end Verdict.Entries
