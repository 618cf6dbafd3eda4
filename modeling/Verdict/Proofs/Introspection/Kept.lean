import Verdict.Proofs.Introspection.Contribution
import Verdict.Proofs.Introspection.Merge
import Verdict.Proofs.Introspection.OneRange

/-!
# Proofs/Introspection/Kept — a range only grows

    a₁, …, aₙ   ──fork──▸    a₁, …, aₙ, a
    a₁, …, aₙ   ──merge──▸   a₁, …, aₙ'            aₙ grows to aₙ'

An alternative **grows** to another that has its fields where they were, each with all its entries
up to equality, and possibly more fields behind them.  Attaching adds an alternative or lets the
last one grow (`Growth.isAttached_attach`).  Exploring attaches one contribution after another
(`Exploration.attaches_exploreRoots`), so along an introspection no alternative loses what it once
had.
-/

namespace Verdict

/-! ## Growing alternatives -/

namespace Alternative

/-- All fields stay where they are and keep their entries, up to equality; new ones stand behind. -/
inductive GrowsTo : Alternative → Alternative → Prop
  | nil (b : Alternative) : GrowsTo [] b
  | cons {field v w : Value} {a b : Alternative} :
      w.HasEntries v → GrowsTo a b → GrowsTo ((field, v) :: a) ((field, w) :: b)

variable {a b : Alternative} {field v known : Value}

theorem GrowsTo.append : ∀ a b : Alternative, a.GrowsTo (a ++ b)
  | [], b => .nil b
  | (_, v) :: rest, b => .cons (.refl v) (GrowsTo.append rest b)

theorem GrowsTo.refl (a : Alternative) : a.GrowsTo a := by
  have h := GrowsTo.append a []
  rwa [List.append_nil] at h

theorem GrowsTo.trans {c : Alternative} (h : a.GrowsTo b) (h' : b.GrowsTo c) : a.GrowsTo c := by
  induction h generalizing c with
  | nil => exact .nil c
  | cons hentries _ ih =>
    cases h' with
    | cons hentries' hrest => exact .cons (hentries'.trans hentries) (ih hrest)

/-- A requirement that keeps its entries is put in its place. -/
theorem GrowsTo.put {w : Value} (hfind : a.find? field = some known) (hw : w.HasEntries known) :
    a.GrowsTo (a.put field w) := by
  induction a with
  | nil => cases hfind
  | cons e rest ih =>
    obtain ⟨f, v⟩ := e
    rw [find?] at hfind
    rw [Alternative.put]
    split
    · next hf =>
      rw [if_pos hf] at hfind
      cases hfind
      exact .cons hw (.refl rest)
    · next hf =>
      rw [if_neg hf] at hfind
      exact .cons (.refl v) (ih hfind)

theorem GrowsTo.require (a : Alternative) (field v : Value) : a.GrowsTo (a.require field v) := by
  unfold Alternative.require
  split
  · next known hfind => exact .put hfind (Value.hasEntries_dedupFlatten_left known v)
  · exact .append a _

/-- **Merging lets an alternative grow.** -/
theorem GrowsTo.mergeInto (a es : Alternative) : a.GrowsTo (a.mergeInto es) := by
  induction es generalizing a with
  | nil => exact .refl a
  | cons e rest ih => exact (GrowsTo.require a e.1 e.2).trans (ih (a.require e.1 e.2))

end Alternative

/-! ## Growing ranges -/

namespace Growth

variable {g g₁ g₂ : Growth} {b : Branch} {parent : Option Branch} {depth : Nat}

/-- What attaching makes of a range: one step more and at most one alternative more.  A fork leaves
all alternatives as they are; else all but the last stay, and the last one grows. -/
structure IsAttached (b : Branch) (parent : Option Branch) (depth : Nat) (g g' : Growth) :
    Prop where
  step : ∃ changes, g'.steps = ⟨parent, b, depth, changes⟩ :: g.steps
  length : g'.alternatives.length ≤ g.alternatives.length + 1
  before : ∀ i, i + 1 < g.alternatives.length → g'.alternatives[i]? = g.alternatives[i]?
  fork : isFork b parent = true → ∃ a, g'.alternatives = g.alternatives ++ [a]
  merge : isFork b parent = false →
    ∃ a, g'.alternatives = g.alternatives.dropLast ++ [a] ∧ g.last.GrowsTo a

/-- **Attaching adds an alternative or lets the last one grow.** -/
theorem isAttached_attach (g : Growth) (b : Branch) (parent : Option Branch) (depth : Nat)
    (a : Alternative) : IsAttached b parent depth g (g.attach b parent depth a) := by
  have hstep : (g.attach b parent depth a).steps =
      Contribution.step ⟨b, parent, depth, a⟩ :: g.steps :=
    steps_contribute g ⟨b, parent, depth, a⟩
  cases hfork : isFork b parent with
  | true =>
    obtain ⟨a', ha'⟩ : ∃ a', (g.attach b parent depth a).alternatives = g.alternatives ++ [a'] :=
      ⟨_, congrArg alternatives (contribute_of_isFork (c := ⟨b, parent, depth, a⟩) hfork g)⟩
    refine ⟨⟨_, hstep⟩, ?_, fun i hi => ?_, fun _ => ⟨a', ha'⟩, fun h => ?_⟩
    · exact Nat.le_of_eq (by rw [ha', List.length_append, List.length_singleton])
    · rw [ha', List.getElem?_append_left (Nat.lt_of_succ_lt hi)]
    · rw [hfork] at h
      cases h
  | false =>
    have hlast : (g.attach b parent depth a).alternatives =
        g.alternatives.dropLast ++ [g.last.mergeInto a] := by
      rw [attach_of_not_isFork hfork, replaceLast]
    refine ⟨⟨_, hstep⟩, ?_, fun i hi => ?_, fun h => ?_, fun _ => ⟨_, hlast, .mergeInto g.last a⟩⟩
    · rw [hlast, List.length_append, List.length_dropLast, List.length_singleton]
      omega
    · rw [hlast, List.getElem?_append_left (by rw [List.length_dropLast]; omega),
        List.getElem?_dropLast, if_pos (by omega)]
    · rw [hfork] at h
      cases h

/-- Each alternative stays at its place and grows, and all steps are remembered. -/
structure GrowsTo (g g' : Growth) : Prop where
  alternatives : ∀ (i : Nat) (a : Alternative), g.alternatives[i]? = some a →
    ∃ b, g'.alternatives[i]? = some b ∧ a.GrowsTo b
  steps : ∃ later, g'.steps = later ++ g.steps

theorem GrowsTo.refl (g : Growth) : g.GrowsTo g :=
  ⟨fun _ a ha => ⟨a, ha, .refl a⟩, [], rfl⟩

theorem GrowsTo.trans (h : g.GrowsTo g₁) (h' : g₁.GrowsTo g₂) : g.GrowsTo g₂ := by
  refine ⟨fun i a ha => ?_, ?_⟩
  · obtain ⟨b, hb, hab⟩ := h.alternatives i a ha
    obtain ⟨c, hc, hbc⟩ := h'.alternatives i b hb
    exact ⟨c, hc, hab.trans hbc⟩
  · obtain ⟨later, hlater⟩ := h.steps
    obtain ⟨later', hlater'⟩ := h'.steps
    exact ⟨later' ++ later, by rw [hlater', hlater, List.append_assoc]⟩

/-- **What attaching makes of a range has grown from it.** -/
theorem IsAttached.growsTo (h : IsAttached b parent depth g g₁) : g.GrowsTo g₁ := by
  refine ⟨fun i a ha => ?_, ?_⟩
  · have hlt : i < g.alternatives.length := (List.getElem?_eq_some_iff.mp ha).1
    -- Only the last alternative can be another one afterwards.
    by_cases hbefore : i + 1 < g.alternatives.length
    · exact ⟨a, (h.before i hbefore).trans ha, .refl a⟩
    · cases hfork : isFork b parent with
      | true =>
        obtain ⟨a', ha'⟩ := h.fork hfork
        exact ⟨a, by rw [ha', List.getElem?_append_left hlt, ha], .refl a⟩
      | false =>
        obtain ⟨a', ha', hgrows⟩ := h.merge hfork
        have hi : i = g.alternatives.length - 1 := by omega
        have hlast : g.last = a := by
          rw [last, List.getLast?_eq_getElem?, ← hi, ha]
          rfl
        refine ⟨a', ?_, hlast ▸ hgrows⟩
        rw [ha', List.getElem?_append_right (by rw [List.length_dropLast]; omega),
          List.length_dropLast, hi, Nat.sub_self]
        rfl
  · obtain ⟨changes, hstep⟩ := h.step
    exact ⟨[⟨parent, b, depth, changes⟩], hstep⟩

theorem growsTo_contribute (g : Growth) (c : Contribution) : g.GrowsTo (g.contribute c) :=
  (isAttached_attach g c.branch c.parent c.depth c.alternative).growsTo

/-- **A range grows with one contribution after another.** -/
theorem growsTo_foldl_contribute (cs : List Contribution) (g : Growth) :
    g.GrowsTo (cs.foldl contribute g) := by
  induction cs generalizing g with
  | nil => exact .refl g
  | cons c rest ih => exact (growsTo_contribute g c).trans (ih (g.contribute c))

/-- With more contributions, a range has grown from what it was with fewer. -/
theorem growsTo_take (cs : List Contribution) (g : Growth) {m n : Nat} (h : m ≤ n) :
    GrowsTo ((cs.take m).foldl contribute g) ((cs.take n).foldl contribute g) := by
  have hsplit : cs.take n = cs.take m ++ (cs.take n).drop m := by
    have htake : (cs.take n).take m = cs.take m := by rw [List.take_take, Nat.min_eq_left h]
    rw [← htake, List.take_append_drop]
  rw [hsplit, List.foldl_append]
  exact growsTo_foldl_contribute _ _

end Growth

/-! ## Exploring is attaching -/

namespace Exploration

/-- What a condition attaches of the alternatives of its fields: all together under AND, else one
after another. -/
def ofFields (b : Branch) (parent : Option Branch) (depth : Nat) (byField : ByField) :
    List Contribution :=
  (if b = .and then [Alternative.merge (byField.map Prod.snd)] else byField.map Prod.snd).map
    fun a => ⟨b, parent, depth, a⟩

mutual

/-- What a condition and those below it attach, one after another, and the findings. -/
def contributions (r : Registry) (parent : Option Branch) (depth : Nat) (inNone : Bool) :
    Node → Findings → Except Fault (List Contribution × Findings)
  | .condition b nodes _, f => do
    let negated := inNone || b = .none
    let (byField, f) ← collect r b negated nodes [] (f.recordCondition depth)
    let (below, f) ← contributionsOf r (some b) (depth + 1) negated nodes f
    .ok (ofFields b parent depth byField ++ below, f)
  | .constraint _, f => .ok ([], f)
  | .invalid _, f => .ok ([], f)

/-- What the conditions among nodes attach. -/
def contributionsOf (r : Registry) (parent : Option Branch) (depth : Nat) (inNone : Bool) :
    List Node → Findings → Except Fault (List Contribution × Findings)
  | [], f => .ok ([], f)
  | n :: rest, f => do
    let (cs, f) ← contributions r parent depth inNone n f
    let (later, f) ← contributionsOf r parent depth inNone rest f
    .ok (cs ++ later, f)

end

variable {r : Registry} {parent : Option Branch} {depth : Nat}

/-- `Attaches e e' x`: a computation of contributions and findings leads from one exploration to
another. -/
def Attaches (e e' : Exploration) (x : Except Fault (List Contribution × Findings)) : Prop :=
  ∃ cs, x = .ok (cs, e'.findings) ∧ e'.growth = cs.foldl Growth.contribute e.growth

theorem attachAll_eq_foldl {b : Branch} : ∀ (as : List Alternative) {g g' : Growth},
    attachAll b parent depth as g = .ok g' →
      g' = (as.map fun a => ⟨b, parent, depth, a⟩).foldl Growth.contribute g
  | [], _, _, h => by
    cases h
    rfl
  | a :: rest, g, g', h => by
    obtain ⟨g₁, hattach, h⟩ := Except.bind_eq_ok_iff.mp h
    obtain rfl := attach_eq_of_ok hattach
    exact attachAll_eq_foldl rest h

mutual

/-- **Exploring a node is attaching what it contributes**, one contribution after another. -/
theorem attaches_explore : ∀ {n : Node} {parent : Option Branch} {depth : Nat} {inNone : Bool}
    {e e' : Exploration}, explore r parent depth inNone n e = .ok e' →
      Attaches e e' (contributions r parent depth inNone n e.findings)
  | .condition b nodes _, parent, depth, inNone, e, e', h => by
    rw [explore] at h
    obtain ⟨e₁, hpopulate, h⟩ := Except.bind_eq_ok_iff.mp h
    obtain ⟨⟨byField, f⟩, hcollect, hpopulate⟩ := Except.bind_eq_ok_iff.mp hpopulate
    obtain ⟨g, hattach, hpopulate⟩ := Except.bind_eq_ok_iff.mp hpopulate
    cases hpopulate
    obtain ⟨below, hbelow, hgrowth⟩ := attaches_exploreNodes h
    refine ⟨ofFields b parent depth byField ++ below, ?_, ?_⟩
    · rw [contributions]
      exact Except.bind_eq_ok_iff.mpr ⟨_, hcollect, Except.bind_eq_ok_iff.mpr ⟨_, hbelow, rfl⟩⟩
    · rw [hgrowth, List.foldl_append, attachAll_eq_foldl _ hattach, ofFields]
  | .constraint _, _, _, _, e, e', h => by
    rw [explore] at h
    cases h
    exact ⟨[], by rw [contributions], rfl⟩
  | .invalid _, _, _, _, e, e', h => by
    rw [explore] at h
    cases h
    exact ⟨[], by rw [contributions], rfl⟩

theorem attaches_exploreNodes : ∀ {nodes : List Node} {parent : Branch} {depth : Nat}
    {inNone : Bool} {e e' : Exploration}, exploreNodes r parent depth inNone nodes e = .ok e' →
      Attaches e e' (contributionsOf r (some parent) depth inNone nodes e.findings)
  | [], _, _, _, e, e', h => by
    rw [exploreNodes] at h
    cases h
    exact ⟨[], by rw [contributionsOf], rfl⟩
  | n :: rest, parent, depth, inNone, e, e', h => by
    rw [exploreNodes] at h
    obtain ⟨e₁, hn, h⟩ := Except.bind_eq_ok_iff.mp h
    obtain ⟨cs, hcs, hgrowth⟩ := attaches_explore hn
    obtain ⟨later, hlater, hgrowth'⟩ := attaches_exploreNodes h
    refine ⟨cs ++ later, ?_, by rw [hgrowth', hgrowth, List.foldl_append]⟩
    rw [contributionsOf]
    exact Except.bind_eq_ok_iff.mpr ⟨_, hcs, Except.bind_eq_ok_iff.mpr ⟨_, hlater, rfl⟩⟩

end

/-- **Exploring roots is attaching what they contribute.** -/
theorem attaches_exploreRoots : ∀ {roots : List Node} {e e' : Exploration},
    exploreRoots r roots e = .ok e' →
      Attaches e e' (contributionsOf r none 0 false roots e.findings)
  | [], e, e', h => by
    cases h
    exact ⟨[], by rw [contributionsOf], rfl⟩
  | n :: rest, e, e', h => by
    obtain ⟨e₁, hn, h⟩ := Except.bind_eq_ok_iff.mp h
    obtain ⟨cs, hcs, hgrowth⟩ := attaches_explore hn
    obtain ⟨later, hlater, hgrowth'⟩ := attaches_exploreRoots h
    refine ⟨cs ++ later, ?_, by rw [hgrowth', hgrowth, List.foldl_append]⟩
    rw [contributionsOf]
    exact Except.bind_eq_ok_iff.mpr ⟨_, hcs, Except.bind_eq_ok_iff.mpr ⟨_, hlater, rfl⟩⟩

end Exploration

namespace RuleSource

/-- What is introspected is a granular rule. -/
theorem exists_rule_of_introspect {r : Registry} {s : RuleSource} {i : Introspection}
    (h : s.introspect r = .ok i) : ∃ rule, s.rule? = some rule ∧ rule.isGranular = true := by
  obtain ⟨rule, hread, h⟩ := Except.bind_eq_ok_iff.mp h
  have hrule : s.rule? = some rule := by
    unfold RuleSource.read at hread
    cases hs : s.rule? with
    | none =>
      rw [hs] at hread
      cases hread
    | some rule' =>
      rw [hs] at hread
      exact congrArg some (Except.ok.inj hread)
  refine ⟨rule, hrule, ?_⟩
  by_contra hgranular
  rw [if_neg hgranular] at h
  cases h

/-- **A range only grows.**  Attaching an alternative takes one step and adds at most one
alternative: all others but the last stay, a fork leaves the last one, too, and merging lets it grow.
So each range of an introspection, which is what its roots contribute, attached one after another,
has at any time grown from what it was at any time before. -/
theorem introspect_only_grows (r : Registry) :
    (∀ g b parent depth a, Growth.IsAttached b parent depth g (g.attach b parent depth a)) ∧
    ∀ (s : RuleSource) (i : Introspection), s.introspect r = .ok i →
      ∃ rule, s.rule? = some rule ∧ ∀ range ∈ i.ranges, ∃ steps f cs f',
        Exploration.contributionsOf r none 0 false
          (Introspection.rootsOf rule.conditions range.outcome) f = .ok (cs, f') ∧
        range.alternatives = (cs.foldl Growth.contribute ⟨[], steps⟩).alternatives ∧
        ∀ m n, m ≤ n → Growth.GrowsTo ((cs.take m).foldl Growth.contribute ⟨[], steps⟩)
          ((cs.take n).foldl Growth.contribute ⟨[], steps⟩) := by
  refine ⟨Growth.isAttached_attach, fun s i hi => ?_⟩
  obtain ⟨rule, hread, hgranular⟩ := exists_rule_of_introspect hi
  rcases introspect_ranges (r := r) hread hgranular with ⟨i', hi', _, hranges⟩ | ⟨⟨f, hf⟩, _⟩
  · cases hi.symm.trans hi'
    refine ⟨rule, hread, fun range hrange => ?_⟩
    obtain ⟨⟨steps, f, e, hexplore, halternatives⟩, _⟩ := hranges range hrange _ rfl
    obtain ⟨cs, hcs, hgrowth⟩ := Exploration.attaches_exploreRoots hexplore
    exact ⟨steps, f, cs, e.findings, hcs, by rw [halternatives, hgrowth],
      fun _ _ h => Growth.growsTo_take cs ⟨[], steps⟩ h⟩
  · cases hi.symm.trans hf

/-- An alternative that a condition is merged into, and a fork that starts from a copy of it. -/
theorem introspect_only_grows_of_fork :
    let test (field : String) (i : Int) : Node :=
      .constraint ⟨.str field, .str "equals", some (.int i), .null⟩
    let rule : Rule := ⟨[.condition .and [test "a" 1,
      .condition .or [test "b" 3, .condition .and [test "c" 4] none] none]
        (some ⟨.place [0], .str "yes", .null⟩)], none⟩
    ∃ i, (RuleSource.rule rule).introspect .empty = .ok i ∧
      i.ranges.map CriteriaRange.alternatives =
        [[[(.str "a", .int 1), (.str "b", .int 3)], [(.str "a", .int 1), (.str "c", .int 4)]]] ∧
      ∀ range ∈ i.ranges, ∃ (steps : List Step) (cs : List Contribution),
        range.alternatives = (cs.foldl Growth.contribute ⟨[], steps⟩).alternatives ∧
        Growth.GrowsTo ((cs.take 2).foldl Growth.contribute ⟨[], steps⟩)
          ((cs.take 3).foldl Growth.contribute ⟨[], steps⟩) := by
  intro test rule
  refine ⟨_, rfl, rfl, fun range hrange => ?_⟩
  obtain ⟨_, _, hranges⟩ := (introspect_only_grows .empty).2 (.rule rule) _ rfl
  obtain ⟨steps, _, cs, _, _, halternatives, hgrows⟩ := hranges range hrange
  exact ⟨steps, cs, halternatives, hgrows 2 3 (by decide)⟩

end RuleSource

end Verdict
