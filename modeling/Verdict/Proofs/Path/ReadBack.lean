import Verdict.Proofs.Path.Frame

/-!
# Proofs/Path/ReadBack — what was written is read

    root ──update path new──▸ root' ──resolve path──▸ new

A path is written where it is read from, but for one that starts with a dollar sign and is a field of the
root: a write goes into the field, and reading follows the segments, which never lead into that field
(`Segment.length_le_of_read?`).  So what was written is read everywhere else, and a path that leads
somewhere can be written to, unless it has a wildcard or no segments (`Path.resolve_update`).
-/

namespace Verdict

/-! ## Keys are shorter than their paths -/

namespace Segment

theorem length_le_of_readQuoted? {mark : Char} : ∀ {cs inner rest : List Char},
    readQuoted? mark cs = some (inner, rest) → inner.length ≤ cs.length
  | [], _, _, h => by cases h
  | c :: cs, inner, rest, h => by
    rw [readQuoted?] at h
    split at h
    · cases h
      exact Nat.zero_le _
    · split at h
      · cases h
      · obtain ⟨⟨inner', rest'⟩, hinner, heq⟩ := Option.map_eq_some_iff.mp h
        cases heq
        exact Nat.succ_le_succ (length_le_of_readQuoted? hinner)

/-- A key is no longer than what is inside its brackets. -/
theorem length_le_of_readBracket? {cs rest : List Char} {name : String}
    (h : readBracket? cs = .ok (some (.key name, rest))) : name.toList.length ≤ cs.length := by
  have hblank : (cs.dropWhile isBlank).length ≤ cs.length := (List.dropWhile_sublist _).length_le
  unfold readBracket? at h
  dsimp only at h
  split at h
  · obtain ⟨segment, hsegment, heq⟩ := Except.map_eq_ok_iff.mp h
    cases heq
    unfold ofDigits at hsegment
    dsimp only at hsegment
    split at hsegment <;> cases hsegment
  · have h := Except.ok.inj h
    split at h
    · obtain ⟨_, -, heq⟩ := Option.map_eq_some_iff.mp h
      cases heq
    · next hcs =>
      split at h
      · obtain ⟨⟨inner, rest'⟩, hinner, heq⟩ := Option.map_eq_some_iff.mp h
        cases heq
        rw [hcs, List.length_cons] at hblank
        rw [String.toList_ofList]
        exact Nat.le_trans (length_le_of_readQuoted? hinner) (Nat.le_of_succ_le hblank)
      · cases h
    · cases h

/-- A key is no longer than its segment without the first character. -/
theorem length_le_of_read? {c : Char} {cs rest : List Char} {name : String}
    (h : read? (c :: cs) = .ok (some (.key name, rest))) : name.toList.length ≤ cs.length := by
  unfold read? at h
  split at h
  · next cs' heq =>
    obtain ⟨rfl, rfl⟩ := List.cons.inj heq
    have h := Except.ok.inj h
    split at h
    · cases h
    · have hkey := (Prod.mk.inj (Option.some.inj h)).1
      rw [ofKey] at hkey
      split at hkey
      · cases hkey
      · rw [← key.inj hkey, String.toList_ofList]
        exact (List.takeWhile_sublist _).length_le
  · next cs' heq =>
    obtain ⟨rfl, rfl⟩ := List.cons.inj heq
    exact length_le_of_readBracket? h
  · cases h

/-- A text that is read begins with its first segment. -/
theorem read?_of_readAll {fuel : Nat} {c : Char} {cs : List Char} {s : Segment} {ss : List Segment}
    (h : readAll fuel (c :: cs) = .ok (some (s :: ss))) :
    ∃ rest, read? (c :: cs) = .ok (some (s, rest)) := by
  cases fuel with
  | zero => cases h
  | succ fuel =>
    rw [readAll] at h
    split at h
    · cases h
    · cases h
    · next segment rest hread =>
      split at h
      · cases h
      · cases h
      · obtain ⟨rfl, -⟩ := List.cons.inj (Option.some.inj (Except.ok.inj h))
        exact ⟨rest, hread⟩

/-- A point is put before a text, or its first character is dropped. -/
theorem length_le_of_withPoint {cs rest : List Char} {c : Char} (h : withPoint cs = c :: rest) :
    rest.length ≤ cs.length := by
  cases cs with
  | nil => cases h
  | cons d ds =>
    rw [withPoint] at h
    split at h
    · obtain ⟨-, rfl⟩ := List.cons.inj h
      exact Nat.le_succ _
    · obtain ⟨-, rfl⟩ := List.cons.inj h
      exact Nat.le_refl _

theorem length_le_of_ofChars {cs : List Char} {name : String} {ss : List Segment}
    (h : ofChars cs = .ok (some (.key name :: ss))) : name.toList.length ≤ cs.length := by
  rw [ofChars] at h
  cases hcs : withPoint cs with
  | nil =>
    rw [hcs] at h
    cases h
  | cons c rest =>
    rw [hcs] at h
    obtain ⟨_, hread⟩ := read?_of_readAll h
    exact Nat.le_trans (length_le_of_read? hread) (length_le_of_withPoint hcs)

end Segment

/-! ## Reading after a write -/

namespace Path

variable {path : String} {root root' new v : Value}

/-- A path that starts with a dollar sign does not lead into the field of its name. -/
theorem ne_of_segments {name : String} {ss : List Segment} (hrooted : isRooted path = true)
    (h : segments path = .ok (some (.key name :: ss))) : name ≠ path := by
  rintro rfl
  rw [segments, if_pos hrooted] at h
  have hlength := Segment.length_le_of_ofChars h
  rw [isRooted, beq_iff_eq] at hrooted
  obtain ⟨rest, hrest⟩ := List.head?_eq_some_iff.mp hrooted
  rw [hrest, List.drop_one, List.tail_cons, List.length_cons] at hlength
  exact absurd hlength (Nat.not_succ_le_self _)

/-- **A path that is read from elsewhere is read as before**, unless it begins with a wildcard. -/
theorem resolve_setAt_of_readsElsewhere {s : Segment} {ss : List Segment}
    (h : ReadsElsewhere path root) (hsegments : segments path = .ok (some (s :: ss)))
    (hs : s ≠ .every) :
    resolve path (Value.setAt new [.field path] root) = resolve path root := by
  obtain ⟨inner, hinner⟩ := Option.isSome_iff_exists.mp h.2
  have hslot : root.inSlot? (.field path) = some inner := Value.get?_eq_inSlot? path root ▸ hinner
  have hstep : s.step (root.fill (.field path) new) = s.step root := by
    cases s with
    | every => exact absurd rfl hs
    | key name =>
      have hne : Slot.field name ≠ .field path := fun heq =>
        ne_of_segments h.1 hsegments (Slot.field.inj heq)
      rw [Segment.step, Segment.step, Value.get?_eq_inSlot?, Value.get?_eq_inSlot?,
        Value.inSlot?_fill_other hne]
    | index i =>
      cases root with
      | object mark fields => rfl
      | _ => cases hslot
  rw [Value.setAt_cons_of_some hslot, Value.setAt, resolve, resolve, literal?, literal?,
    if_pos h.1, if_pos h.1, hsegments]
  dsimp only
  rw [Segment.resolve, Segment.resolve, Segment.walk_cons, Segment.walk_cons, hstep]

/-- **What was written at a path is read there, unless the path is a field but is read from elsewhere;
then it is read as before.**  A path that leads somewhere and has segments, but no wildcard, is written
to. -/
theorem resolve_update (path : String) (honce : root.marks.Nodup) (new : Value) :
    (∀ root', update (.str path) root new = .ok (true, root') →
      (¬ ReadsElsewhere path root → resolve path root' = .ok (some new)) ∧
      (ReadsElsewhere path root → ∀ s ss, segments path = .ok (some (s :: ss)) → s ≠ .every →
        resolve path root' = resolve path root)) ∧
    ((∃ v, resolve path root = .ok (some v)) →
      (∀ ss, segments path = .ok (some ss) → ss ≠ [] ∧ Segment.hasWildcard ss = false) →
      ∃ root', update (.str path) root new = .ok (true, root')) := by
  refine ⟨fun root' h => ?_, fun ⟨v, hv⟩ hsegments => ?_⟩
  · obtain ⟨_, place, ⟨⟩, hplace, -, rfl⟩ | ⟨hfalse, -⟩ := update_cases honce h
    · refine ⟨fun hown => ?_, fun helsewhere s ss hss hs => ?_⟩
      · have hown' : ¬ ReadsElsewhere path (Value.setAt new place root) := fun h =>
          hown ⟨h.1, (hasField_setAt path root new (place?_ne_nil hplace)).symm.trans h.2⟩
        obtain ⟨old, hold⟩ := exists_at?_of_place? hplace
        rw [resolve_of_place? (place?_setAt_self new hplace) hown', Value.at?_setAt_self hold]
      · obtain rfl := Option.some.inj (hplace.symm.trans (place?_of_readsElsewhere helsewhere))
        exact resolve_setAt_of_readsElsewhere helsewhere hss hs
    · cases hfalse
  · cases hplace : place? path root with
    | some place => exact ⟨_, update_of_place? honce new hplace⟩
    | none =>
      have hreadOnly := place?_of_resolve hv hplace
      obtain ⟨ss, hss⟩ := hreadOnly.exists_segments hv
      obtain ⟨hne, hwildcard⟩ := hsegments ss hss
      rcases hreadOnly.segments ss hss with hnil | hsome
      · exact absurd hnil hne
      · cases hwildcard.symm.trans hsome

/-- An item counted from the back, below a field that competes with a literal key. -/
theorem resolve_update_of_item :
    let root := Value.ofFields
      [("a.b", .int 0), ("a", .ofFields [("b", .ofItems [.int 1, .int 2])])]
    let root' := Value.ofFields
      [("a.b", .int 0), ("a", .ofFields [("b", .ofItems [.int 1, .int 9])])]
    (root.marks.Nodup ∧ update (.str "$.a.b[-1]") root (.int 9) = .ok (true, root') ∧
      ¬ ReadsElsewhere "$.a.b[-1]" root ∧ (∃ v, resolve "$.a.b[-1]" root = .ok (some v)) ∧
      ∀ ss, segments "$.a.b[-1]" = .ok (some ss) → ss ≠ [] ∧ Segment.hasWildcard ss = false) ∧
    resolve "$.a.b[-1]" root' = .ok (some (.int 9)) ∧
      ∃ root'', update (.str "$.a.b[-1]") root (.int 9) = .ok (true, root'') := by
  intro root root'
  have honce : root.marks.Nodup := List.nodup_nil
  have hupdate : update (.str "$.a.b[-1]") root (.int 9) = .ok (true, root') := by rfl
  have hown : ¬ ReadsElsewhere "$.a.b[-1]" root := fun h => absurd h.2 (by decide)
  have hread : ∃ v, resolve "$.a.b[-1]" root = .ok (some v) := ⟨.int 2, by rfl⟩
  have hss : segments "$.a.b[-1]" = .ok (some [.key "a", .key "b", .index (-1)]) := by rfl
  have hsegments : ∀ ss, segments "$.a.b[-1]" = .ok (some ss) →
      ss ≠ [] ∧ Segment.hasWildcard ss = false := fun ss h => by
    obtain rfl := Option.some.inj (Except.ok.inj (hss.symm.trans h))
    exact ⟨List.cons_ne_nil _ _, by decide⟩
  obtain ⟨hback, hwritten⟩ := resolve_update "$.a.b[-1]" honce (.int 9)
  exact ⟨⟨honce, hupdate, hown, hread, hsegments⟩, (hback root' hupdate).1 hown,
    hwritten hread hsegments⟩

/-- A path that starts with a dollar sign is written to the field of its name, and read from another
one. -/
theorem resolve_update_misses :
    let root := Value.ofFields [("$.a", .int 1), ("a", .int 2)]
    root.marks.Nodup ∧ (∃ root', update (.str "$.a") root (.int 9) = .ok (true, root')) ∧
    ¬ ∀ root', update (.str "$.a") root (.int 9) = .ok (true, root') →
      resolve "$.a" root' = .ok (some (.int 9)) := by
  intro root
  have hupdate : update (.str "$.a") root (.int 9) =
      .ok (true, Value.ofFields [("$.a", .int 9), ("a", .int 2)]) := by rfl
  have hread : resolve "$.a" (Value.ofFields [("$.a", .int 9), ("a", .int 2)]) =
      .ok (some (.int 2)) := by rfl
  refine ⟨List.nodup_nil, ⟨_, hupdate⟩, fun hall => ?_⟩
  cases hread.symm.trans (hall _ hupdate)

end Path

end Verdict
