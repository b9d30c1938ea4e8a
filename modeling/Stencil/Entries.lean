/-!
# Entries: names with values, in an order that shows

Two orders occur. Variables keep the order in which they were given, so a new name goes to the
end (`put`). Maps inside a value are kept in the order of their keys (`insert`), which for strings
is the order of their code points. In both, a name that is already there keeps its place and takes
the new value.
-/

namespace Stencil

/-- Names with their values, in an order that shows. -/
abbrev Entries (α : Type) := List (String × α)

namespace Entries

variable {α : Type}

/-- The value of a name. -/
def get? (name : String) : Entries α → Option α
  | [] => none
  | (key, value) :: rest => if key = name then some value else get? name rest

/-- Whether a name has a value. -/
def contains (name : String) (entries : Entries α) : Bool := (get? name entries).isSome

/-- The names, in order. -/
def names (entries : Entries α) : List String := entries.map Prod.fst

/-- Gives a name a value: in its place if it has one already, at the end if not. -/
def put (name : String) (value : α) : Entries α → Entries α
  | [] => [(name, value)]
  | (key, old) :: rest =>
    if key = name then (key, value) :: rest else (key, old) :: put name value rest

/-- Gives a name a value among entries that are sorted by name. -/
def insert (name : String) (value : α) : Entries α → Entries α
  | [] => [(name, value)]
  | (key, old) :: rest =>
    if name < key then (name, value) :: (key, old) :: rest
    else if key = name then (key, value) :: rest
    else (key, old) :: insert name value rest

/-- Sorts by name; of several entries with one name the last counts. -/
def sorted (entries : Entries α) : Entries α :=
  entries.foldl (fun acc entry => insert entry.1 entry.2 acc) []

/-- Drops repeated names: the place of the first, the value of the last. -/
def distinct (entries : Entries α) : Entries α :=
  entries.foldl (fun acc entry => put entry.1 entry.2 acc) []

@[simp] theorem get?_nil (name : String) : get? name ([] : Entries α) = none := rfl

/-- Looking a name up finds an entry with it. -/
theorem mem_of_get? {name : String} {value : α} {entries : Entries α} (h : get? name entries = some value) :
    (name, value) ∈ entries := by
  induction entries with
  | nil => exact absurd h (by simp)
  | cons entry rest ih =>
      obtain ⟨key, old⟩ := entry
      rw [get?] at h
      split at h
      · rename_i hkey
        obtain rfl : old = value := Option.some.inj h
        exact hkey ▸ List.mem_cons_self
      · exact List.mem_cons_of_mem _ (ih h)

theorem get?_put_self (name : String) (value : α) (entries : Entries α) :
    get? name (put name value entries) = some value := by
  induction entries with
  | nil => simp [put, get?]
  | cons entry rest ih =>
      obtain ⟨key, old⟩ := entry
      by_cases h : key = name
      · simp [put, get?, h]
      · simp [put, get?, h, ih]

theorem get?_put_of_ne {name other : String} (h : other ≠ name) (value : α) (entries : Entries α) :
    get? other (put name value entries) = get? other entries := by
  induction entries with
  | nil => simp [put, get?, Ne.symm h]
  | cons entry rest ih =>
      obtain ⟨key, old⟩ := entry
      by_cases hk : key = name
      · subst hk
        simp [put, get?, Ne.symm h]
      · simp [put, get?, hk, ih]

end Entries

end Stencil
