import Verdict.Proofs.Operator.BuiltIn
import Verdict.Proofs.Value.Equivalence
import Verdict.Proofs.Value.Order

/-!
# Proofs/Operator/Collection — lists that hold items

    xs ∋ x = y ∈ ys                  some item in common: from both sides
    ∀ y ∈ ys, ∃ x ∈ xs, x = y        every item of the other: reflexive, transitive

An item is held when it equals one, so what lists hold in common inherits the laws of equality:
`Value.equal_isEquivalence`.
-/

namespace Verdict

namespace Value

variable {u v x y z : Value} {xs ys : List Value}

theorem contains_iff : contains xs v = true ↔ ∃ x ∈ xs, x.equal v = true := List.any_eq_true

theorem holdsAny_iff : holdsAny x y = true ↔ ∃ mark xs mark' ys, x = .list mark xs ∧
    y = .list mark' ys ∧ ∃ u ∈ xs, ∃ v ∈ ys, v.equal u = true := by
  cases x with
  | list mark xs =>
    cases y with
    | list mark' ys =>
      simp only [holdsAny, List.any_eq_true, contains_iff]
      exact ⟨fun h => ⟨_, _, _, _, rfl, rfl, h⟩, fun ⟨_, _, _, _, hx, hy, h⟩ => by
        cases hx; cases hy; exact h⟩
    | _ => simp [holdsAny]
  | _ => simp [holdsAny]

theorem holdsAll_iff : holdsAll x y = true ↔ ∃ mark xs mark' ys, x = .list mark xs ∧
    y = .list mark' ys ∧ ∀ v ∈ ys, ∃ u ∈ xs, u.equal v = true := by
  cases x with
  | list mark xs =>
    cases y with
    | list mark' ys =>
      simp only [holdsAll, List.all_eq_true, contains_iff]
      exact ⟨fun h => ⟨_, _, _, _, rfl, rfl, h⟩, fun ⟨_, _, _, _, hx, hy, h⟩ => by
        cases hx; cases hy; exact h⟩
    | _ => simp [holdsAll]
  | _ => simp [holdsAll]

/-- What two lists have in common is also what the second has with the first. -/
theorem holdsAny_symm (hx : x.NamesOnce) (h : holdsAny x y = true) : holdsAny y x = true := by
  obtain ⟨mark, xs, mark', ys, rfl, rfl, u, hu, v, hv, huv⟩ := holdsAny_iff.mp h
  have hu' : u.NamesOnce := namesOnce_list.mp hx u hu
  exact holdsAny_iff.mpr ⟨_, _, _, _, rfl, rfl, v, hv, u, hu, equal_symm hu' huv⟩

/-- A list holds each of its own items. -/
theorem holdsAll_self {mark : Mark} (hx : (list mark xs).NamesOnce)
    (hfree : (list mark xs).IsNanFree) : holdsAll (.list mark xs) (.list mark xs) = true := by
  refine holdsAll_iff.mpr ⟨_, _, _, _, rfl, rfl, fun v hv => ⟨v, hv, ?_⟩⟩
  exact equal_self (namesOnce_list.mp hx v hv) (isNanFree_list.mp hfree v hv)

theorem holdsAll_trans (h : holdsAll x y = true) (h' : holdsAll y z = true) :
    holdsAll x z = true := by
  obtain ⟨_, xs, _, ys, rfl, rfl, hxs⟩ := holdsAll_iff.mp h
  obtain ⟨_, _, _, zs, heq, rfl, hys⟩ := holdsAll_iff.mp h'
  cases heq
  refine holdsAll_iff.mpr ⟨_, _, _, _, rfl, rfl, fun w hw => ?_⟩
  obtain ⟨v, hv, hvw⟩ := hys w hw
  obtain ⟨u, hu, huv⟩ := hxs v hv
  exact ⟨u, hu, equal_trans huv hvw⟩

/-- **Equality is an equivalence, `nan` apart**, on values that name fields once: symmetric,
transitive, and reflexive where no `nan` occurs; numbers are equal by their exact magnitudes.  So
`contains-any` holds from both sides, and `contains-all` is transitive, and reflexive on lists
without `nan`. -/
theorem equal_isEquivalence (now : DateTime) :
    ((Registry.builtIn now).DecidesBy "equals" equal ∧
      (∀ (x y : Value) (a b : Int), x.scaled? = some a → y.scaled? = some b →
        x.equal y = decide (a = b)) ∧
      (∀ x y : Value, x.NamesOnce → y.NamesOnce → x.equal y = y.equal x) ∧
      (∀ x y z : Value, x.equal y = true → y.equal z = true → x.equal z = true) ∧
      ∀ x : Value, x.NamesOnce → x.IsNanFree → x.equal x = true) ∧
    ((Registry.builtIn now).DecidesBy "contains-any" holdsAny ∧
      ∀ x y : Value, x.NamesOnce → y.NamesOnce → holdsAny x y = holdsAny y x) ∧
    (Registry.builtIn now).DecidesBy "contains-all" holdsAll ∧
      (∀ mark xs, (list mark xs).NamesOnce → (list mark xs).IsNanFree →
        holdsAll (.list mark xs) (.list mark xs) = true) ∧
      ∀ x y z : Value, holdsAll x y = true → holdsAll y z = true → holdsAll x z = true := by
  have hequals : (Registry.builtIn now).DecidesBy "equals" equal :=
    ⟨_, Operator.find?_equals now, rfl⟩
  have hcollection : ∀ {name holds},
      ⟨name, .array, [.array], .ofRelation holds⟩ ∈ Operator.collections →
        (Registry.builtIn now).DecidesBy name holds := fun h =>
    Registry.decidesBy_builtIn (Operator.mem_builtIns_of_collections now h)
  have hany : ∀ x y : Value, x.NamesOnce → y.NamesOnce → holdsAny x y = holdsAny y x :=
    fun _ _ hx hy => Bool.eq_iff_iff.mpr ⟨holdsAny_symm hx, holdsAny_symm hy⟩
  exact ⟨⟨hequals, fun _ _ _ _ => equal_of_scaled?, fun _ _ => equal_comm, fun _ _ _ => equal_trans,
      fun _ => equal_self⟩,
    ⟨hcollection (by simp [Operator.collections]), hany⟩,
    hcollection (by simp [Operator.collections]), fun _ _ => holdsAll_self,
    fun _ _ _ => holdsAll_trans⟩

/-- An integer between two doubles, two objects with their fields in another order, and lists of
them. -/
theorem equal_isEquivalence_of_reordered :
    let x : Value := .ofFields [("a", .ofItems [.int 1, .null]), ("b", .int 9007199254740993)]
    let y : Value :=
      .ofFields [("b", .int 9007199254740993), ("a", .ofItems [.float (.ofInt 1), .null])]
    let xs : Value := .ofItems [x, .str "c"]
    let ys : Value := .ofItems [y]
    let zs : Value := .ofItems [x, y]
    let double : Binary64 := .ofInt 9007199254740993
    ((Value.int 9007199254740993).scaled? = some (Binary64.scaleInt 9007199254740993) ∧
      (Value.float double).scaled? = some (Binary64.scaleInt 9007199254740992) ∧
      equal (.int 9007199254740993) (.float double) = false) ∧
    (x.NamesOnce ∧ y.NamesOnce ∧ x.IsNanFree ∧ x.equal y = true ∧ y.equal x = true) ∧
    (x.equal y = y.equal x ∧ x.equal x = true ∧ y.equal y = true) ∧
    (xs.NamesOnce ∧ ys.NamesOnce ∧ xs.IsNanFree ∧ holdsAll xs ys = true ∧ holdsAll ys zs = true) ∧
    holdsAny xs ys = holdsAny ys xs ∧ holdsAll xs xs = true ∧ holdsAll xs zs = true := by
  intro x y xs ys zs double
  have hdouble : (Value.float double).scaled? = some (Binary64.scaleInt 9007199254740992) := by
    decide +kernel
  have hscalar : ∀ v : Value, v.identity? ≠ none → v.NamesOnce ∧ v.IsNanFree := fun v hv =>
    have hscalar := isScalar_of_identity? hv
    ⟨namesOnce_of_isScalar hscalar, (isNanFree_iff_of_isScalar hscalar).mpr hv⟩
  have hint (i : Int) := hscalar (.int i) nofun
  have hone := hscalar (.float (.ofInt 1)) (by decide +kernel)
  have htext := hscalar (.str "c") nofun
  have hnull := hscalar .null nofun
  have hx : x.NamesOnce ∧ x.IsNanFree := by
    simp [x, ofFields, ofItems, namesOnce_object, namesOnce_list, isNanFree_object, isNanFree_list,
      hint, hnull]
  have hy : y.NamesOnce := by
    simp [y, ofFields, ofItems, namesOnce_object, namesOnce_list, hint, hone, hnull]
  have hxs : xs.NamesOnce ∧ xs.IsNanFree := by
    simp [xs, ofItems, namesOnce_list, isNanFree_list, hx, htext]
  have hys : ys.NamesOnce := by simp [ys, ofItems, namesOnce_list, hy]
  have hxy : x.equal y = true := by decide +kernel
  have hyx : y.equal x = true := by decide +kernel
  have hxsys : holdsAll xs ys = true := by decide +kernel
  have hyszs : holdsAll ys zs = true := by decide +kernel
  obtain ⟨⟨-, hexact, hsymm, htrans, hrefl⟩, ⟨-, hany⟩, -, hall, halltrans⟩ :=
    equal_isEquivalence default
  have hapart : equal (.int 9007199254740993) (.float double) = false :=
    (hexact _ _ _ _ rfl hdouble).trans (by decide +kernel)
  exact ⟨⟨rfl, hdouble, hapart⟩, ⟨hx.1, hy, hx.2, hxy, hyx⟩,
    ⟨hsymm x y hx.1 hy, hrefl x hx.1 hx.2, htrans y x y hyx hxy⟩,
    ⟨hxs.1, hys, hxs.2, hxsys, hyszs⟩,
    hany xs ys hxs.1 hys, hall none _ hxs.1 hxs.2, halltrans xs ys zs hxsys hyszs⟩

end Value

end Verdict
