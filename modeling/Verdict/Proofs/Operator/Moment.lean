import Verdict.Proofs.Calendar.Clock
import Verdict.Proofs.Operator.BuiltIn

/-!
# Proofs/Operator/Moment — the comparisons of moments and of times of the day as orders

    before | equals | after      just one of them when both sides are read, none otherwise
    …-or-equals                  the one or the other
    between                      at least the start and at most the end
    …-now                        the present moment for the constraint's value

Both families decide by the positions of their sides on one line (`Family.DecidesByPositions`), and
whatever does is an order of the values that have a position (`Family.DecidesByPositions.isOrder`):
`families_areOrders`.
-/

namespace Verdict

variable {r : Registry} {name : String} {holds : Value → Value → Bool}

/-- The operator of a name holds of a field's value and a constraint's. -/
def Registry.Holds (r : Registry) (name : String) (c v : Value) : Prop :=
  ∃ o, r.find? (.str name) = some o ∧ o.test c v = .ok true

theorem Registry.DecidesBy.holds_iff (h : r.DecidesBy name holds) (c v : Value) :
    r.Holds name c v ↔ holds c v = true := by
  obtain ⟨o, ho, htest⟩ := h
  refine ⟨fun ⟨o', ho', hpassed⟩ => ?_, fun hpassed => ⟨o, ho, ?_⟩⟩
  · cases ho.symm.trans ho'
    rw [htest] at hpassed
    exact Except.ok.inj hpassed
  · rw [htest]
    exact congrArg Except.ok hpassed

/-- Positions compare when both are there and compare. -/
theorem Value.positions_iff {compare : Int → Int → Bool} {a b : Option Int} :
    positions compare a b = true ↔ ∃ i j, a = some i ∧ b = some j ∧ compare i j = true := by
  cases a <;> cases b <;> simp [positions]

theorem Registry.DecidesBy.holds_iff_positions {position? : Value → Option Int}
    {compare : Int → Int → Bool}
    (h : r.DecidesBy name fun c v => Value.positions compare (position? c) (position? v))
    (c v : Value) : r.Holds name c v ↔
      ∃ i j, position? c = some i ∧ position? v = some j ∧ compare i j = true :=
  (h.holds_iff c v).trans Value.positions_iff

namespace Operator

open Value

/-! ## Families -/

/-- The names of the operators that compare values of one kind. -/
structure Family where
  before : String
  beforeOrEquals : String
  equals : String
  afterOrEquals : String
  after : String
  between : String

namespace Family

/-- The comparisons of moments. -/
def moments : Family :=
  ⟨"date-before", "date-before-or-equals", "date-equals", "date-after-or-equals", "date-after",
    "date-between"⟩

/-- The comparisons of times of the day. -/
def clockTimes : Family :=
  ⟨"time-before", "time-before-or-equals", "time-equals", "time-after-or-equals", "time-after",
    "time-between"⟩

/-- All names of a family. -/
def names (F : Family) : List String :=
  [F.before, F.beforeOrEquals, F.equals, F.afterOrEquals, F.after, F.between]

/-- A family that compares the positions of its sides. -/
structure DecidesByPositions (F : Family) (r : Registry) (position? : Value → Option Int) :
    Prop where
  before : r.DecidesBy F.before fun c v => positions isBefore (position? c) (position? v)
  beforeOrEquals :
    r.DecidesBy F.beforeOrEquals fun c v => positions isNotAfter (position? c) (position? v)
  equals : r.DecidesBy F.equals fun c v => positions isAt (position? c) (position? v)
  afterOrEquals :
    r.DecidesBy F.afterOrEquals fun c v => positions isNotBefore (position? c) (position? v)
  after : r.DecidesBy F.after fun c v => positions isAfter (position? c) (position? v)
  between : r.DecidesBy F.between (isWithin position?)

/-- A family that orders the values that are read, as what is read from them is ordered. -/
structure IsOrder {α : Type} (F : Family) (r : Registry) (read? : Value → Option α)
    (less same : α → α → Prop) : Prop where
  /-- Every operator decides on all values. -/
  decides : ∀ name ∈ F.names, ∀ c v, ∃ o passed, r.find? (.str name) = some o ∧
    o.test c v = .ok passed
  /-- No two of before, equals and after hold together. -/
  apart : ∀ c v, ¬ (r.Holds F.before c v ∧ r.Holds F.equals c v) ∧
    ¬ (r.Holds F.equals c v ∧ r.Holds F.after c v) ∧
    ¬ (r.Holds F.before c v ∧ r.Holds F.after c v)
  /-- One of before, equals and after holds just of two sides that are read. -/
  compares : ∀ c v, r.Holds F.before c v ∨ r.Holds F.equals c v ∨ r.Holds F.after c v ↔
    (read? c).isSome = true ∧ (read? v).isSome = true
  /-- Which one holds is told by what is read. -/
  reads : ∀ c v s t, read? c = some s → read? v = some t →
    (r.Holds F.before c v ↔ less s t) ∧ (r.Holds F.equals c v ↔ same s t) ∧
    (r.Holds F.after c v ↔ less t s)
  afterOrEquals : ∀ c v, r.Holds F.afterOrEquals c v ↔
    r.Holds F.after c v ∨ r.Holds F.equals c v
  beforeOrEquals : ∀ c v, r.Holds F.beforeOrEquals c v ↔
    r.Holds F.before c v ∨ r.Holds F.equals c v
  trans : ∀ c v w, r.Holds F.after c v → r.Holds F.after v w → r.Holds F.after c w
  between : ∀ c mark start finish, r.Holds F.between c (.list mark [start, finish]) ↔
    r.Holds F.afterOrEquals c start ∧ r.Holds F.beforeOrEquals c finish

variable {F : Family} {position? : Value → Option Int}

/-- A family decides on all values. -/
theorem DecidesByPositions.decides (h : F.DecidesByPositions r position?) :
    ∀ name ∈ F.names, ∀ c v, ∃ o passed, r.find? (.str name) = some o ∧
      o.test c v = .ok passed := by
  have decided : ∀ {name holds}, r.DecidesBy name holds → ∀ c v, ∃ o passed,
      r.find? (.str name) = some o ∧ o.test c v = .ok passed := fun ⟨o, ho, htest⟩ c v =>
    ⟨o, _, ho, by rw [htest]; rfl⟩
  simp only [names, List.forall_mem_cons]
  exact ⟨decided h.before, decided h.beforeOrEquals, decided h.equals, decided h.afterOrEquals,
    decided h.after, decided h.between, List.forall_mem_nil _⟩

/-- **A family that compares positions is an order of the values that have one.** -/
theorem DecidesByPositions.isOrder {α : Type} {read? : Value → Option α} {place : α → Int}
    {less same : α → α → Prop} (h : F.DecidesByPositions r fun v => (read? v).map place)
    (hplace : ∀ c v s t, read? c = some s → read? v = some t →
      (place s < place t ↔ less s t) ∧ (place s = place t ↔ same s t)) :
    F.IsOrder r read? less same := by
  have hbefore := h.before.holds_iff_positions
  have hbeforeOrEquals := h.beforeOrEquals.holds_iff_positions
  have hequals := h.equals.holds_iff_positions
  have hafterOrEquals := h.afterOrEquals.holds_iff_positions
  have hafter := h.after.holds_iff_positions
  simp only [isBefore, isNotAfter, isAt, isNotBefore, isAfter, decide_eq_true_eq]
    at hbefore hbeforeOrEquals hequals hafterOrEquals hafter
  -- Every law is one of integers once the values are replaced by their positions.
  constructor
  case decides => exact h.decides
  case apart =>
    intro c v
    simp only [hbefore, hequals, hafter]
    cases read? c <;> cases read? v <;> simp
    omega
  case compares =>
    intro c v
    simp only [hbefore, hequals, hafter]
    cases read? c <;> cases read? v <;> simp
    omega
  case reads =>
    intro c v s t hs ht
    rw [← (hplace c v s t hs ht).1, ← (hplace c v s t hs ht).2, ← (hplace v c t s ht hs).1]
    simp [hbefore, hequals, hafter, hs, ht, eq_comm]
  case afterOrEquals =>
    intro c v
    simp only [hafterOrEquals, hequals, hafter]
    cases read? c <;> cases read? v <;> simp
    omega
  case beforeOrEquals =>
    intro c v
    simp only [hbeforeOrEquals, hequals, hbefore]
    cases read? c <;> cases read? v <;> simp
    omega
  case trans =>
    intro c v w
    simp only [hafter]
    cases read? c <;> cases read? v <;> cases read? w <;> simp
    omega
  case between =>
    intro c mark start finish
    have hwithin : isWithin (fun v => (read? v).map place) c (.list mark [start, finish]) =
        (positions isNotAfter ((read? start).map place) ((read? c).map place) &&
          positions isNotAfter ((read? c).map place) ((read? finish).map place)) := rfl
    simp only [h.between.holds_iff, hwithin, Bool.and_eq_true, positions_iff, isNotAfter,
      decide_eq_true_eq, hafterOrEquals, hbeforeOrEquals]
    cases read? c <;> cases read? start <;> simp

end Family

/-! ## The built-in families -/

variable (now : DateTime)

/-- The operator at a place of the list decides by the relation given there. -/
theorem decidesBy_of_times (i : Nat) {o : Operator} (h : (times now)[i]? = some o)
    (hname : o.name = name) (htest : o.test = .ofRelation holds) :
    (Registry.builtIn now).DecidesBy name holds := by
  have hmem : o ∈ builtIns now := mem_builtIns_of_times now (List.mem_of_getElem? h)
  exact ⟨o, hname ▸ Registry.find?_builtIn hmem, htest⟩

theorem moments_decidesByPositions :
    Family.moments.DecidesByPositions (.builtIn now) instant? where
  before := decidesBy_of_times now 4 rfl rfl rfl
  beforeOrEquals := decidesBy_of_times now 5 rfl rfl rfl
  equals := decidesBy_of_times now 6 rfl rfl rfl
  afterOrEquals := decidesBy_of_times now 3 rfl rfl rfl
  after := decidesBy_of_times now 2 rfl rfl rfl
  between := decidesBy_of_times now 8 rfl rfl rfl

theorem clockTimes_decidesByPositions :
    Family.clockTimes.DecidesByPositions (.builtIn now) dayMillis? where
  before := decidesBy_of_times now 18 rfl rfl rfl
  beforeOrEquals := decidesBy_of_times now 19 rfl rfl rfl
  equals := decidesBy_of_times now 20 rfl rfl rfl
  afterOrEquals := decidesBy_of_times now 17 rfl rfl rfl
  after := decidesBy_of_times now 16 rfl rfl rfl
  between := decidesBy_of_times now 22 rfl rfl rfl

/-- What is read as a time of the day is less than a day. -/
theorem millis_lt_of_clockTime? {v : Value} {t : ClockTime} (h : v.clockTime? = some t) :
    t.millis < 86400000 := by
  unfold clockTime? at h
  split at h
  · exact ClockTime.millis_lt_of_ofChars? h
  · cases h

/-- **The comparisons of moments are an order, in which moments are where their instants are.** -/
theorem moments_isOrder : Family.moments.IsOrder (.builtIn now) moment?
    (fun s t => s.instant < t.instant) (fun s t => s.instant = t.instant) :=
  Family.DecidesByPositions.isOrder (moments_decidesByPositions now)
    fun _ _ _ _ _ _ => ⟨Iff.rfl, Iff.rfl⟩

/-- **The comparisons of times of the day are an order, in which they are where their seconds
are.** -/
theorem clockTimes_isOrder : Family.clockTimes.IsOrder (.builtIn now) clockTime?
    (fun s t => s.seconds.less t.seconds = true) (fun s t => s.seconds.equal t.seconds = true) := by
  refine Family.DecidesByPositions.isOrder (clockTimes_decidesByPositions now)
    fun c v s t hc hv => ?_
  obtain ⟨hless, hequal⟩ :=
    ClockTime.compare_seconds (millis_lt_of_clockTime? hc) (millis_lt_of_clockTime? hv)
  rw [hless, hequal, decide_eq_true_eq, decide_eq_true_eq]
  exact ⟨Int.ofNat_lt, Int.natCast_inj⟩

/-! ## The present moment -/

/-- The operators that compare with the present moment, each with the one that compares with a
moment given. -/
def presentOperators : List (String × String) := [
  ("date-after-now", "date-after"),
  ("date-after-now-or-equals", "date-after-or-equals"),
  ("date-before-now", "date-before"),
  ("date-before-now-or-equals", "date-before-or-equals")]

/-- An operator that decides as another one does against the present moment. -/
def AppliesToNow (name name' : String) : Prop :=
  ∃ o o', (Registry.builtIn now).find? (.str name) = some o ∧
    (Registry.builtIn now).find? (.str name') = some o' ∧
    ∀ c v, o.test c v = o'.test c (.dateTime now)

theorem appliesToNow_of_decidesBy {name' : String} {compare : Int → Int → Bool}
    (h : (Registry.builtIn now).DecidesBy name fun c _ => withNow now compare c)
    (h' : (Registry.builtIn now).DecidesBy name' (Value.moments compare)) :
    AppliesToNow now name name' := by
  obtain ⟨o, ho, htest⟩ := h
  obtain ⟨o', ho', htest'⟩ := h'
  refine ⟨o, o', ho, ho', fun c v => ?_⟩
  rw [htest, htest']
  -- a value that gives the present moment is read as its instant
  rfl

theorem appliesToNow_of_mem_presentOperators :
    ∀ p ∈ presentOperators, AppliesToNow now p.1 p.2 := by
  have h := moments_decidesByPositions now
  simp only [presentOperators, List.forall_mem_cons]
  exact ⟨appliesToNow_of_decidesBy now (decidesBy_of_times now 10 rfl rfl rfl) h.after,
    appliesToNow_of_decidesBy now (decidesBy_of_times now 11 rfl rfl rfl) h.afterOrEquals,
    appliesToNow_of_decidesBy now (decidesBy_of_times now 12 rfl rfl rfl) h.before,
    appliesToNow_of_decidesBy now (decidesBy_of_times now 13 rfl rfl rfl) h.beforeOrEquals,
    List.forall_mem_nil _⟩

end Operator

end Verdict
