/-!
# Entries — ordered entries with keys

A list of keyed entries that remembers the order in which its keys were first put.  `put` replaces
in place, so the order of the keys does not change when a key is put again; `without` removes.

* `find?_put_self`, `find?_put_other` — what `put` does to look-ups.
* `find?_without_self`, `find?_without_other` — what `without` does to them.
-/

namespace Verdict.Entries

variable {κ α : Type} [DecidableEq κ]

/-- The first entry of a key. -/
def find? (key : κ) : List (κ × α) → Option α
  | [] => none
  | (k, a) :: rest => if k = key then some a else find? key rest

/-- Set the entry of a key: in place when there is one, else at the end. -/
def put (key : κ) (a : α) : List (κ × α) → List (κ × α)
  | [] => [(key, a)]
  | (k, b) :: rest => if k = key then (k, a) :: rest else (k, b) :: put key a rest

/-- The entries of all other keys. -/
def without (key : κ) (entries : List (κ × α)) : List (κ × α) := entries.filter fun e => e.1 ≠ key

/-- Whether there is an entry of a key. -/
def has (key : κ) (entries : List (κ × α)) : Bool := (find? key entries).isSome

/-- Entries put one after another. -/
def ofList (entries : List (κ × α)) : List (κ × α) :=
  entries.foldl (fun put' e => put e.1 e.2 put') []

@[simp] theorem find?_nil (key : κ) : find? key ([] : List (κ × α)) = none := rfl

theorem find?_cons (key k : κ) (a : α) (rest : List (κ × α)) :
    find? key ((k, a) :: rest) = if k = key then some a else find? key rest := rfl

@[simp] theorem find?_put_self (key : κ) (a : α) (entries : List (κ × α)) :
    find? key (put key a entries) = some a := by
  induction entries with
  | nil => simp [put, find?]
  | cons e rest ih =>
    obtain ⟨k, b⟩ := e
    by_cases h : k = key <;> simp [put, find?, h, ih]

theorem find?_put_other {key other : κ} (h : other ≠ key) (a : α) (entries : List (κ × α)) :
    find? other (put key a entries) = find? other entries := by
  induction entries with
  | nil => simp [put, find?, Ne.symm h]
  | cons e rest ih =>
    obtain ⟨k, b⟩ := e
    by_cases hk : k = key
    · subst hk; simp [put, find?, Ne.symm h]
    · simp [put, find?, hk, ih]

@[simp] theorem find?_without_self (key : κ) (entries : List (κ × α)) :
    find? key (without key entries) = none := by
  induction entries with
  | nil => rfl
  | cons e rest ih =>
    obtain ⟨k, b⟩ := e
    by_cases h : k = key
    · simpa [without, h] using ih
    · simpa [without, h, find?_cons] using ih

theorem find?_without_other {key other : κ} (h : other ≠ key) (entries : List (κ × α)) :
    find? other (without key entries) = find? other entries := by
  induction entries with
  | nil => rfl
  | cons e rest ih =>
    obtain ⟨k, b⟩ := e
    by_cases hk : k = key
    · subst hk; simpa [without, find?_cons, Ne.symm h] using ih
    · by_cases ho : k = other
      · simp [without, find?_cons, ho, h]
      · simpa [without, hk, find?_cons, ho] using ih

theorem mem_of_find? {key : κ} {entries : List (κ × α)} {a : α}
    (h : find? key entries = some a) : (key, a) ∈ entries := by
  induction entries with
  | nil => simp at h
  | cons e rest ih =>
    obtain ⟨k, b⟩ := e
    rw [find?_cons] at h
    split at h
    · next hk => cases h; simp [hk]
    · exact List.mem_cons_of_mem _ (ih h)

end Verdict.Entries
