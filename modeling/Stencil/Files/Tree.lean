import Stencil.Files.Entry

/-!
# Directory trees

A tree is the list of its places with what is there, in the order of a walk: names are compared one by one,
so that a directory comes right before what is inside it, and everything inside it before what comes after.
The root itself is not in the list. It is always there, and always a directory.

Putting something at a place changes nothing elsewhere; erasing a place takes away what is inside it, too,
and changes nothing elsewhere.
-/

namespace Stencil.Files

/-- The places of a tree with what is there, in order. -/
abbrev Tree := List (Place × Entry)

/-- Whether a place is at or inside another. -/
def Place.isWithin (place outer : Place) : Bool := outer.isPrefixOf place

/-- Whether a place is inside another. -/
def Place.isInside (place outer : Place) : Bool := place.isWithin outer && place ≠ outer

namespace Tree

/-- What is in the list at a place. -/
def find? (place : Place) : Tree → Option Entry
  | [] => none
  | (p, e) :: rest => if p = place then some e else find? place rest

/-- What is at a place. -/
def at? (tree : Tree) (place : Place) : Option Entry :=
  match place with
  | [] => some .directory
  | place => tree.find? place

/-- Puts something at a place. -/
def put (place : Place) (entry : Entry) : Tree → Tree
  | [] => [(place, entry)]
  | (p, e) :: rest =>
    if p = place then (place, entry) :: rest
    else if place < p then (place, entry) :: (p, e) :: rest
    else (p, e) :: put place entry rest

/-- Takes away what is at a place and inside it. -/
def erase (place : Place) (tree : Tree) : Tree := tree.filter fun (p, _) => !p.isWithin place

/-- Takes away what is inside a place. -/
def eraseInside (place : Place) (tree : Tree) : Tree := tree.filter fun (p, _) => !p.isInside place

/-- How many names lead to the deepest place. -/
def depth : Tree → Nat
  | [] => 0
  | (p, _) :: rest => max p.length (depth rest)

/-- What is inside a place, with the names that lead there from it. -/
def inside (tree : Tree) (place : Place) : List (Place × Entry) :=
  tree.filterMap fun (p, e) => if p.isInside place then some (p.drop place.length, e) else none

theorem find?_put_self (place : Place) (entry : Entry) (tree : Tree) :
    (tree.put place entry).find? place = some entry := by
  induction tree with
  | nil => simp [put, find?]
  | cons head rest ih =>
      obtain ⟨p, e⟩ := head
      unfold put
      split
      · simp [find?]
      · split
        · simp [find?]
        · rename_i h _
          simp [find?, h, ih]

theorem find?_put_of_ne {place other : Place} (h : other ≠ place) (entry : Entry) (tree : Tree) :
    (tree.put place entry).find? other = tree.find? other := by
  induction tree with
  | nil => simp [put, find?, Ne.symm h]
  | cons head rest ih =>
      obtain ⟨p, e⟩ := head
      unfold put
      split
      · rename_i hp
        subst hp
        simp [find?, Ne.symm h]
      · split
        · simp [find?, Ne.symm h]
        · simp [find?, ih]

theorem find?_filter (keep : Place → Bool) (place : Place) (tree : Tree) :
    find? place (tree.filter fun (p, _) => keep p) =
      if keep place then tree.find? place else none := by
  induction tree with
  | nil => simp [find?]
  | cons head rest ih =>
      obtain ⟨p, e⟩ := head
      by_cases hp : p = place
      · subst hp
        by_cases hk : keep p
        · simp [find?, hk]
        · simp [hk, ih]
      · by_cases hk : keep p <;> simp [find?, hk, hp, ih]

theorem find?_erase (place other : Place) (tree : Tree) :
    (tree.erase place).find? other = if other.isWithin place then none else tree.find? other := by
  unfold erase
  rw [find?_filter (fun p => !p.isWithin place)]
  by_cases h : other.isWithin place <;> simp [h]

theorem find?_eraseInside (place other : Place) (tree : Tree) :
    (tree.eraseInside place).find? other =
      if other.isInside place then none else tree.find? other := by
  unfold eraseInside
  rw [find?_filter (fun p => !p.isInside place)]
  by_cases h : other.isInside place <;> simp [h]

end Tree

end Stencil.Files
