import Verdict.Proofs.Path.Reading

/-!
# Proofs/Path/Location — the place that a path leads to

    path ──▸ location?     the root itself, where there are no segments
        └──▸ place?        the same, where it is written to: below the root

A path without a wildcard leads to one place (`Path.exists_location?_of_resolve`).  What is at a place
stays when another one, apart from it, is filled (`Value.at?_setAt_of_apart`).
-/

namespace Verdict

namespace Path

/-- Where a path leads: to the field it names literally, else to where its segments lead, and with no
segments to the root itself. -/
def location? (path : String) (root : Value) : Option Place :=
  if root.hasField path then some [.field path]
  else
    match segments path with
    | .ok (some ss) => Segment.place? ss root
    | _ => none

variable {path : String} {root root' v : Value} {s : Place}

/-- A path is written to its location, unless that is the root itself. -/
theorem place?_eq_location? (path : String) (root : Value) :
    place? path root = (location? path root).filter (· ≠ []) := by
  rw [place?, location?]
  split
  · rfl
  · rcases segments path with f | (_ | (_ | ⟨x, ss⟩))
    · rfl
    · rfl
    · rfl
    · dsimp only
      cases hplace : Segment.place? (x :: ss) root with
      | none => rfl
      | some s =>
        obtain ⟨slot, inner, rest, -, -, -, rfl⟩ := Segment.place?_cons hplace
        rfl

theorem location?_of_place? (h : place? path root = some s) : location? path root = some s := by
  rw [place?_eq_location?] at h
  exact (Option.filter_eq_some_iff.mp h).1

/-- A path that leads somewhere, though nothing can be written to it, is a path of segments. -/
theorem IsReadOnly.exists_segments (h : IsReadOnly path root)
    (hv : resolve path root = .ok (some v)) : ∃ ss, Path.segments path = .ok (some ss) := by
  rw [resolve, literal?_eq_none h.field] at hv
  dsimp only at hv
  split at hv
  · cases hv
  · cases hv
  · next ss hss => exact ⟨ss, hss⟩

/-- **A path without a wildcard that leads somewhere has a location.** -/
theorem exists_location?_of_resolve (h : resolve path root = .ok (some v))
    (hwildcard : ∀ ss, segments path = .ok (some ss) → Segment.hasWildcard ss = false) :
    ∃ s, location? path root = some s := by
  cases hplace : place? path root with
  | some s => exact ⟨s, location?_of_place? hplace⟩
  | none =>
    have hreadOnly := place?_of_resolve h hplace
    obtain ⟨ss, hss⟩ := hreadOnly.exists_segments h
    rcases hreadOnly.segments ss hss with rfl | hsome
    · refine ⟨[], ?_⟩
      rw [location?, if_neg (by simp [hreadOnly.field]), hss]
      rfl
    · exact absurd hsome (by simp [hwildcard ss hss])

theorem location?_congr (h : root.unmarked = root'.unmarked) (path : String) :
    location? path root = location? path root' := by
  have hfield : root.hasField path = root'.hasField path := by
    rw [← Value.remarks_unmarked.hasField, h, Value.remarks_unmarked.hasField]
  have hsegments : ∀ ss, Segment.place? ss root = Segment.place? ss root' := fun ss => by
    rw [← Segment.place?_remark Value.remarks_unmarked, h,
      Segment.place?_remark Value.remarks_unmarked]
  simp only [location?, hfield, hsegments]

end Path

namespace Value

/-- What is at a place apart from a filled one. -/
theorem at?_setAt_of_apart {s t : Place} {root new : Value} (h : s.Apart t) :
    at? s (setAt new t root) = at? s root := by
  induction t generalizing s root with
  | nil => exact absurd List.nil_prefix h.2
  | cons y t ih =>
    obtain ⟨x, s, _, _, rfl, ⟨⟩, hne | ⟨rfl, hrest⟩⟩ := h.cases
    · cases hy : root.inSlot? y with
      | none => rw [setAt_cons_of_none hy]
      | some inner => rw [setAt_cons_of_some hy, at?, at?, inSlot?_fill_other hne]
    · cases hx : root.inSlot? x with
      | none => rw [setAt_cons_of_none hx]
      | some inner =>
        rw [setAt_cons_of_some hx, at?_cons (inSlot?_fill_self hx), at?_cons hx, ih hrest]

end Value

end Verdict
