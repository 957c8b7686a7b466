/-!
Tables that keep their keys in the order of first entry. Entering a value for a key that is there
replaces the value in its place.
-/

namespace EventProcessing

abbrev Table (κ α : Type) := List (κ × α)

namespace Table

variable {κ α : Type} [DecidableEq κ]

def get? : Table κ α → κ → Option α
  | [], _ => none
  | (k, a) :: rest, key => if k = key then some a else get? rest key

def put : Table κ α → κ → α → Table κ α
  | [], key, value => [(key, value)]
  | (k, a) :: rest, key, value =>
    if k = key then (k, value) :: rest else (k, a) :: put rest key value

def keys (table : Table κ α) : List κ := table.map Prod.fst

def contains (table : Table κ α) (key : κ) : Bool := (table.get? key).isSome

def remove (table : Table κ α) (key : κ) : Table κ α := table.filter fun entry => entry.1 ≠ key

def push (table : Table κ (List α)) (key : κ) (value : α) : Table κ (List α) :=
  table.put key ((table.get? key).getD [] ++ [value])

@[simp] theorem get?_nil (key : κ) : get? ([] : Table κ α) key = none := rfl

@[simp] theorem get?_put_self (table : Table κ α) (key : κ) (value : α) :
    (table.put key value).get? key = some value := by
  induction table with
  | nil => simp [put, get?]
  | cons entry rest ih =>
    obtain ⟨k, a⟩ := entry
    by_cases h : k = key
    · simp [put, get?, h]
    · simpa [put, get?, h] using ih

theorem get?_put_of_ne (table : Table κ α) {key other : κ} (value : α) (h : other ≠ key) :
    (table.put key value).get? other = table.get? other := by
  induction table with
  | nil => simp [put, get?, Ne.symm h]
  | cons entry rest ih =>
    obtain ⟨k, a⟩ := entry
    by_cases hk : k = key
    · subst hk
      simp [put, get?, Ne.symm h]
    · simp [put, get?, hk, ih]

end Table

end EventProcessing
