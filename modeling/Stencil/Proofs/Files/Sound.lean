import Mathlib.Data.List.Sort
import Stencil.Checkout
import Stencil.Proofs.Path.Text

/-!
# Sound disks

A disk is a list of places, and not every list is one that a file system could hold. The sound ones
are: names are in order, they can be written, and around everything there is a directory. A repository
on a sound disk keeps snapshots that can be checked out.

Theorems on what a program does to a disk are about sound disks. What matters of one is asked with
`at?` (`Sound.storable`, `Sound.outer`, `Sound.mem_tree`), and it stays sound when something is put
into a directory (`Sound.put`) or taken away with all that is inside (`Sound.erase`).
-/

namespace Stencil.Files

/-! ## Places within places -/

namespace Place

theorem isWithin_iff {place outer : Place} : place.isWithin outer = true ↔ outer <+: place := by
  simp [isWithin]

theorem isWithin_append (place names : Place) : (place ++ names : Place).isWithin place = true :=
  isWithin_iff.mpr (List.prefix_append place names)

theorem isWithin_self (place : Place) : place.isWithin place = true :=
  isWithin_iff.mpr List.prefix_rfl

theorem isWithin_trans {inner place outer : Place} (h : inner.isWithin place = true)
    (h' : place.isWithin outer = true) : inner.isWithin outer = true :=
  isWithin_iff.mpr ((isWithin_iff.mp h').trans (isWithin_iff.mp h))

theorem exists_of_isWithin {place outer : Place} (h : place.isWithin outer = true) :
    ∃ names, place = outer ++ names := by
  obtain ⟨names, hnames⟩ := isWithin_iff.mp h
  exact ⟨names, hnames.symm⟩

theorem isInside_iff {place outer : Place} :
    place.isInside outer = true ↔ ∃ names, names ≠ [] ∧ place = outer ++ names := by
  unfold isInside
  constructor
  · intro h
    simp only [Bool.and_eq_true, decide_eq_true_eq] at h
    obtain ⟨names, rfl⟩ := exists_of_isWithin h.1
    exact ⟨names, fun he => h.2 (by simp [he]), rfl⟩
  · rintro ⟨names, hne, rfl⟩
    simp [isWithin_append, hne]

theorem isInside_append (place : Place) {names : Place} (hne : names ≠ []) :
    (place ++ names : Place).isInside place = true :=
  isInside_iff.mpr ⟨names, hne, rfl⟩

/-- What is around something that is not inside is not inside either. -/
theorem not_isInside_outer {place outer : Place} {s : String}
    (h : (place ++ [s] : Place).isInside outer = false) : place.isInside outer = false := by
  rw [Bool.eq_false_iff] at h ⊢
  intro hplace
  obtain ⟨names, hnames, rfl⟩ := isInside_iff.mp hplace
  exact h (isInside_iff.mpr ⟨names ++ [s], by simp, by simp⟩)

end Place

/-! ## Trees by their places -/

namespace Tree

@[simp] theorem at?_root (tree : Tree) : tree.at? [] = some .directory := rfl

theorem at?_eq_find? (tree : Tree) {place : Place} (h : place ≠ []) :
    tree.at? place = tree.find? place := by
  cases place with
  | nil => exact absurd rfl h
  | cons s rest => rfl

theorem at?_put_self (tree : Tree) {place : Place} (entry : Entry) (h : place ≠ []) :
    (tree.put place entry).at? place = some entry := by
  rw [at?_eq_find? _ h, find?_put_self]

theorem at?_put_of_ne (tree : Tree) {place other : Place} (entry : Entry) (h : other ≠ place) :
    (tree.put place entry).at? other = tree.at? other := by
  by_cases hother : other = []
  · rw [hother, at?_root, at?_root]
  · rw [at?_eq_find? _ hother, at?_eq_find? _ hother, find?_put_of_ne h]

theorem at?_erase (tree : Tree) (place other : Place) :
    (tree.erase place).at? other =
      if other ≠ [] ∧ other.isWithin place = true then none else tree.at? other := by
  by_cases hother : other = []
  · rw [hother, at?_root, at?_root, if_neg (fun h => h.1 rfl)]
  · rw [at?_eq_find? _ hother, at?_eq_find? _ hother, find?_erase]
    simp [hother]

theorem at?_eraseInside (tree : Tree) (place other : Place) :
    (tree.eraseInside place).at? other =
      if other.isInside place = true then none else tree.at? other := by
  by_cases hother : other = []
  · have hnot : Place.isInside [] place = false := by
      cases place <;> rfl
    rw [hother, at?_root, at?_root, hnot]
    simp
  · rw [at?_eq_find? _ hother, at?_eq_find? _ hother, find?_eraseInside]

theorem length_le_depth {tree : Tree} {place : Place} {entry : Entry} (h : (place, entry) ∈ tree) :
    place.length ≤ tree.depth := by
  induction tree with
  | nil => cases h
  | cons found rest ih =>
      rcases List.mem_cons.mp h with rfl | h
      · exact Nat.le_max_left _ _
      · exact Nat.le_trans (ih h) (Nat.le_max_right _ _)

/-- A tree whose places are in order. -/
def Sorted (tree : Tree) : Prop := tree.Pairwise fun a b => a.1 < b.1

instance (tree : Tree) : Decidable tree.Sorted :=
  inferInstanceAs (Decidable (tree.Pairwise fun a b => a.1 < b.1))

theorem lt_of_not_lt {a b : Place} (h : ¬ a < b) (hne : b ≠ a) : b < a :=
  List.not_le.mp fun hle => hne (List.le_antisymm (List.not_lt.mp h) hle)

theorem mem_put {tree : Tree} {place : Place} {entry : Entry} {found : Place × Entry}
    (h : found ∈ tree.put place entry) : found = (place, entry) ∨ found ∈ tree := by
  induction tree with
  | nil => simpa [put] using h
  | cons head rest ih =>
      obtain ⟨p, e⟩ := head
      unfold put at h
      split at h
      · rcases List.mem_cons.mp h with h | h
        · exact Or.inl h
        · exact Or.inr (List.mem_cons_of_mem _ h)
      · split at h
        · rcases List.mem_cons.mp h with h | h
          · exact Or.inl h
          · exact Or.inr h
        · rcases List.mem_cons.mp h with h | h
          · exact Or.inr (h ▸ List.mem_cons_self)
          · rcases ih h with h | h
            · exact Or.inl h
            · exact Or.inr (List.mem_cons_of_mem _ h)

theorem Sorted.put {tree : Tree} (h : tree.Sorted) (place : Place) (entry : Entry) :
    (tree.put place entry).Sorted := by
  induction tree with
  | nil => simp [Tree.put, Sorted]
  | cons head rest ih =>
      obtain ⟨p, e⟩ := head
      obtain ⟨hhead, hrest⟩ := List.pairwise_cons.mp h
      unfold Tree.put
      split
      · rename_i hp
        exact List.pairwise_cons.mpr ⟨hp ▸ hhead, hrest⟩
      · rename_i hne
        split
        · rename_i hlt
          refine List.pairwise_cons.mpr ⟨fun found hfound => ?_, h⟩
          rcases List.mem_cons.mp hfound with rfl | hfound
          · exact hlt
          · exact List.lt_trans hlt (hhead found hfound)
        · rename_i hlt
          refine List.pairwise_cons.mpr ⟨fun found hfound => ?_, ih hrest⟩
          rcases mem_put hfound with rfl | hfound
          · exact lt_of_not_lt hlt hne
          · exact hhead found hfound

/-- Every place of a sorted tree is there once. -/
theorem Sorted.mem_iff {tree : Tree} (h : tree.Sorted) {place : Place} {entry : Entry} :
    (place, entry) ∈ tree ↔ tree.find? place = some entry := by
  induction tree with
  | nil => simp [find?]
  | cons head rest ih =>
      obtain ⟨p, e⟩ := head
      obtain ⟨hhead, hrest⟩ := List.pairwise_cons.mp h
      rw [List.mem_cons, ih hrest, find?]
      by_cases hp : p = place
      · subst hp
        have hnone : Tree.find? p rest ≠ some entry := by
          intro hsome
          exact List.lt_irrefl p (hhead _ ((ih hrest).mpr hsome))
        simp [hnone, eq_comm]
      · simp [hp, Ne.symm hp]

end Tree

/-! ## What a file system could hold -/

/-- A name that something can be put under. -/
structure IsStorable (s : String) : Prop extends IsName s where
  size_le : s.utf8ByteSize ≤ maxNameSize
  noNull : '\x00' ∉ s.toList

instance (s : String) : Decidable (IsStorable s) :=
  decidable_of_iff (IsName s ∧ s.utf8ByteSize ≤ maxNameSize ∧ '\x00' ∉ s.toList)
    ⟨fun h => ⟨h.1, h.2.1, h.2.2⟩, fun h => ⟨h.toIsName, h.size_le, h.noNull⟩⟩

/-- What a snapshot keeps at one place: it can be put there, and it is not in the
repository's own directory. -/
def Snapshot.Keeps (found : Place × Item) : Prop :=
  found.1 ≠ [] ∧ (∀ s ∈ found.1, IsStorable s) ∧ storeName ∉ found.1 ∧
    match found.2 with
    | .file _ _ => True
    | .link target => '\x00' ∉ target.toList

instance (found : Place × Item) : Decidable (Snapshot.Keeps found) := by
  obtain ⟨names, item⟩ := found
  cases item <;> exact inferInstanceAs (Decidable (_ ∧ _))

/-- A snapshot that can be checked out: nothing in it lies inside of something else. -/
structure Snapshot.Sound (snapshot : Snapshot) : Prop where
  kept : ∀ found ∈ snapshot, Snapshot.Keeps found
  apart : snapshot.Pairwise fun a b => ¬ a.1 <+: b.1 ∧ ¬ b.1 <+: a.1

instance (snapshot : Snapshot) : Decidable snapshot.Sound :=
  decidable_of_iff ((∀ found ∈ snapshot, Snapshot.Keeps found) ∧
      snapshot.Pairwise fun a b => ¬ a.1 <+: b.1 ∧ ¬ b.1 <+: a.1)
    ⟨fun h => ⟨h.1, h.2⟩, fun h => ⟨h.1, h.2⟩⟩

/-- A history whose snapshots can be checked out. -/
structure History.Sound (history : History) : Prop where
  branches : ∀ branch ∈ history.branches, Snapshot.Sound branch.2
  tags : ∀ tag ∈ history.tags, Snapshot.Sound tag.2

instance (history : History) : Decidable history.Sound :=
  decidable_of_iff ((∀ branch ∈ history.branches, Snapshot.Sound branch.2) ∧
      ∀ tag ∈ history.tags, Snapshot.Sound tag.2)
    ⟨fun h => ⟨h.1, h.2⟩, fun h => ⟨h.1, h.2⟩⟩

/-- Something that can be at a place. -/
def Entry.Sound : Entry → Prop
  | .file _ _ => True
  | .directory => True
  | .link target => '\x00' ∉ target.toList
  | .history past => past.Sound

instance (entry : Entry) : Decidable entry.Sound :=
  match entry with
  | .file _ _ => inferInstanceAs (Decidable True)
  | .directory => inferInstanceAs (Decidable True)
  | .link target => inferInstanceAs (Decidable ('\x00' ∉ target.toList))
  | .history past => inferInstanceAs (Decidable past.Sound)

/-- Whether there is something at a place in which names can be. -/
def Disk.Holds (disk : Disk) (place : Place) : Prop := (disk.at? place).any Entry.isDirectory = true

instance (disk : Disk) (place : Place) : Decidable (disk.Holds place) :=
  inferInstanceAs (Decidable (_ = true))

/-- **A disk that a file system could hold.** -/
structure Disk.Sound (disk : Disk) : Prop where
  sorted : disk.tree.Sorted
  named : ∀ found ∈ disk.tree, found.1 ≠ [] ∧ ∀ s ∈ found.1, IsStorable s
  around : ∀ found ∈ disk.tree, disk.Holds found.1.dropLast
  entries : ∀ found ∈ disk.tree, found.2.Sound

instance (disk : Disk) : Decidable disk.Sound :=
  decidable_of_iff (disk.tree.Sorted ∧
      (∀ found ∈ disk.tree, found.1 ≠ [] ∧ ∀ s ∈ found.1, IsStorable s) ∧
      (∀ found ∈ disk.tree, disk.Holds found.1.dropLast) ∧
      ∀ found ∈ disk.tree, found.2.Sound)
    ⟨fun h => ⟨h.1, h.2.1, h.2.2.1, h.2.2.2⟩, fun h => ⟨h.sorted, h.named, h.around, h.entries⟩⟩

namespace Disk

@[simp] theorem at?_root (disk : Disk) : disk.at? [] = some .directory := rfl

@[simp] theorem holds_root (disk : Disk) : disk.Holds [] := rfl

theorem holds_iff {disk : Disk} {place : Place} :
    disk.Holds place ↔ ∃ entry, disk.at? place = some entry ∧ entry.isDirectory = true := by
  rw [Holds]
  cases disk.at? place with
  | none => simp
  | some entry => simp

theorem Holds.of_at? {disk : Disk} {place : Place} {entry : Entry} (hat : disk.at? place = some entry)
    (hdir : entry.isDirectory = true) : disk.Holds place :=
  holds_iff.mpr ⟨entry, hat, hdir⟩

@[simp] theorem put_directory (disk : Disk) (place : Place) (entry : Entry) :
    (disk.put place entry).directory = disk.directory := rfl

@[simp] theorem erase_directory (disk : Disk) (place : Place) :
    (disk.erase place).directory = disk.directory := rfl

@[simp] theorem eraseInside_directory (disk : Disk) (place : Place) :
    (disk.eraseInside place).directory = disk.directory := rfl

theorem at?_put_self (disk : Disk) {place : Place} (entry : Entry) (h : place ≠ []) :
    (disk.put place entry).at? place = some entry :=
  Tree.at?_put_self disk.tree entry h

theorem at?_put_of_ne (disk : Disk) {place other : Place} (entry : Entry) (h : other ≠ place) :
    (disk.put place entry).at? other = disk.at? other :=
  Tree.at?_put_of_ne disk.tree entry h

theorem at?_erase (disk : Disk) (place other : Place) :
    (disk.erase place).at? other =
      if other ≠ [] ∧ other.isWithin place = true then none else disk.at? other :=
  Tree.at?_erase disk.tree place other

/-- Nothing is left where something was taken away, unless that was the root. -/
theorem at?_erase_within (disk : Disk) {place inner : Place} (hne : place ≠ []) (hin : inner.isWithin place = true) :
    (disk.erase place).at? inner = none := by
  have hinner : inner ≠ [] := by
    rintro rfl
    exact hne (List.prefix_nil.mp (Place.isWithin_iff.mp hin))
  rw [at?_erase, if_pos ⟨hinner, hin⟩]

theorem at?_eraseInside (disk : Disk) (place other : Place) :
    (disk.eraseInside place).at? other =
      if other.isInside place = true then none else disk.at? other :=
  Tree.at?_eraseInside disk.tree place other

/-! ## Asking a sound disk -/

namespace Sound

variable {disk : Disk}

/-- What is listed at a place is what is there. -/
theorem mem_tree (h : disk.Sound) {place : Place} {entry : Entry} (hne : place ≠ []) :
    (place, entry) ∈ disk.tree ↔ disk.at? place = some entry := by
  rw [h.sorted.mem_iff, at?, Tree.at?_eq_find? _ hne]

/-- **Sound disks with the same at each place are the same.** -/
theorem eq_of_at? {other : Disk} (h : disk.Sound) (h' : other.Sound) (hdirectory : other.directory = disk.directory)
    (hat : ∀ place, other.at? place = disk.at? place) : other = disk := by
  have htree : other.tree = disk.tree := by
    have : Std.Irrefl fun a b : Place × Entry => a.1 < b.1 := ⟨fun a => List.lt_irrefl a.1⟩
    refine h'.sorted.eq_of_mem_iff h.sorted fun found => ?_
    obtain ⟨place, entry⟩ := found
    by_cases hne : place = []
    · exact ⟨fun hmem => absurd hne (h'.named _ hmem).1, fun hmem => absurd hne (h.named _ hmem).1⟩
    · rw [h'.mem_tree hne, h.mem_tree hne, hat]
  cases disk
  cases other
  simp_all

/-- What is listed inside of a place is what is there. -/
theorem mem_inside (h : disk.Sound) {place names : Place} {entry : Entry} :
    (names, entry) ∈ disk.tree.inside place ↔ names ≠ [] ∧
      disk.at? (place ++ names) = some entry := by
  constructor
  · intro hinside
    obtain ⟨⟨there, entry'⟩, hmem, hfound⟩ := List.mem_filterMap.mp hinside
    simp only at hfound
    split at hfound
    · rename_i hin
      obtain ⟨names', hne, rfl⟩ := Place.isInside_iff.mp hin
      rw [List.drop_left, Option.some.injEq, Prod.mk.injEq] at hfound
      obtain ⟨rfl, rfl⟩ := hfound
      exact ⟨hne, (h.mem_tree (by simp [hne])).mp hmem⟩
    · exact absurd hfound (by simp)
  · rintro ⟨hne, hat⟩
    refine List.mem_filterMap.mpr ⟨(place ++ names, entry), (h.mem_tree (by simp [hne])).mpr hat, ?_⟩
    simp only
    rw [if_pos (Place.isInside_append _ hne), List.drop_left]

theorem storable (h : disk.Sound) {place : Place} {entry : Entry}
    (hat : disk.at? place = some entry) :
    ∀ s ∈ place, IsStorable s := by
  by_cases hne : place = []
  · simp [hne]
  · exact (h.named _ ((h.mem_tree hne).mpr hat)).2

theorem isName (h : disk.Sound) {place : Place} {entry : Entry} (hat : disk.at? place = some entry) :
    ∀ s ∈ place, IsName s :=
  fun s hs => (h.storable hat s hs).toIsName

theorem outer (h : disk.Sound) {place : Place} {s : String} {entry : Entry}
    (hat : disk.at? (place ++ [s]) = some entry) : disk.Holds place := by
  have hmem := (h.mem_tree (by simp)).mpr hat
  simpa using h.around _ hmem

/-- Around whatever there is, names can be. -/
theorem outer_append (h : disk.Sound) {place names : Place} {entry : Entry} (hne : names ≠ [])
    (hat : disk.at? (place ++ names) = some entry) : disk.Holds place := by
  induction names generalizing place with
  | nil => exact absurd rfl hne
  | cons s rest ih =>
      by_cases hrest : rest = []
      · exact h.outer (hrest ▸ hat)
      · have hinner : disk.Holds (place ++ [s]) := ih hrest (by simpa using hat)
        obtain ⟨next, hnext, _⟩ := holds_iff.mp hinner
        exact h.outer hnext

/-- Nothing lies inside of what is not a directory. -/
theorem eq_of_isWithin (h : disk.Sound) {place inner : Place} {entry found : Entry}
    (hat : disk.at? place = some entry)
    (hfile : entry.isDirectory = false) (hinner : disk.at? inner = some found)
    (hin : inner.isWithin place = true) :
    inner = place := by
  obtain ⟨names, rfl⟩ := Place.exists_of_isWithin hin
  by_cases hempty : names = []
  · rw [hempty, List.append_nil]
  · obtain ⟨outer, houter, hdir⟩ := holds_iff.mp (h.outer_append hempty hinner)
    rw [hat, Option.some.injEq] at houter
    rw [← houter, hfile] at hdir
    exact absurd hdir (by simp)

/-- Where no names can be, nothing is inside. -/
theorem at?_append_eq_none (h : disk.Sound) {place names : Place} (hne : names ≠ [])
    (hnot : ¬ disk.Holds place) : disk.at? (place ++ names) = none := by
  cases hin : disk.at? (place ++ names) with
  | none => rfl
  | some entry => exact absurd (h.outer_append hne hin) hnot

/-- Where nothing is, nothing is within. -/
theorem at?_within_eq_none (h : disk.Sound) {place inner : Place} (hat : disk.at? place = none)
    (hin : inner.isWithin place = true) : disk.at? inner = none := by
  obtain ⟨names, rfl⟩ := Place.exists_of_isWithin hin
  by_cases hne : names = []
  · simpa [hne] using hat
  · exact h.at?_append_eq_none hne (by simp [Holds, hat])

/-- What is there does not lie where nothing is. -/
theorem not_isWithin (h : disk.Sound) {place inner : Place} {entry : Entry} (hat : disk.at? inner = some entry)
    (hnone : disk.at? place = none) : inner.isWithin place = false := by
  rw [Bool.eq_false_iff]
  intro hin
  rw [h.at?_within_eq_none hnone hin] at hat
  cases hat

/-- Around what is there, something is there. -/
theorem exists_at? (h : disk.Sound) {place inner : Place} {entry : Entry} (hat : disk.at? inner = some entry)
    (hin : inner.isWithin place = true) : ∃ found, disk.at? place = some found := by
  refine Option.ne_none_iff_exists'.mp fun hnone => ?_
  rw [h.at?_within_eq_none hnone hin] at hat
  cases hat

theorem length_le_depth (h : disk.Sound) {place : Place} {entry : Entry} (hat : disk.at? place = some entry) :
    place.length ≤ disk.tree.depth := by
  by_cases hne : place = []
  · simp [hne]
  · exact Tree.length_le_depth ((h.mem_tree hne).mpr hat)

theorem entry (h : disk.Sound) {place : Place} {entry : Entry} (hat : disk.at? place = some entry) :
    entry.Sound := by
  by_cases hne : place = []
  · subst hne
    rw [at?_root, Option.some.injEq] at hat
    subst hat
    exact trivial
  · exact h.entries _ ((h.mem_tree hne).mpr hat)

/-! ## Sound changes -/

/-- A disk is sound if what can be asked about its places says so. -/
theorem of_at? (hsorted : disk.tree.Sorted) (hroot : disk.tree.find? [] = none)
    (hall : ∀ place s entry, disk.at? (place ++ [s]) = some entry →
      (∀ t ∈ place ++ [s], IsStorable t) ∧ disk.Holds place ∧ entry.Sound) :
    disk.Sound := by
  have hmem : ∀ found ∈ disk.tree, ∃ place s, found.1 = place ++ [s] ∧
      disk.at? (place ++ [s]) = some found.2 := by
    intro found hfound
    have hfind := hsorted.mem_iff.mp hfound
    rcases List.eq_nil_or_concat found.1 with hnil | ⟨place, s, hplace⟩
    · rw [hnil, hroot] at hfind
      exact absurd hfind (by simp)
    · rw [List.concat_eq_append] at hplace
      refine ⟨place, s, hplace, ?_⟩
      rw [at?, Tree.at?_eq_find? _ (by simp), ← hplace, hfind]
  refine ⟨hsorted, fun found hfound => ?_, fun found hfound => ?_, fun found hfound => ?_⟩ <;>
    obtain ⟨place, s, hplace, hat⟩ := hmem found hfound
  · exact ⟨by simp [hplace], hplace ▸ (hall _ _ _ hat).1⟩
  · rw [hplace, List.dropLast_concat]
    exact (hall _ _ _ hat).2.1
  · exact (hall _ _ _ hat).2.2

theorem find?_root (h : disk.Sound) : disk.tree.find? [] = none := by
  cases hfind : disk.tree.find? [] with
  | none => rfl
  | some entry => exact absurd rfl (h.named _ (h.sorted.mem_iff.mpr hfind)).1

/-- Something may be put where names can be, if nothing gets lost that is inside. -/
theorem put (h : disk.Sound) {place : Place} {s : String} {entry : Entry} (houter : disk.Holds place)
    (hs : IsStorable s) (hentry : entry.Sound)
    (hinside : entry.isDirectory = true ∨ ¬ disk.Holds (place ++ [s])) :
    (disk.put (place ++ [s]) entry).Sound := by
  refine of_at? (h.sorted.put _ _) ?_ ?_
  · rw [Disk.put, Tree.find?_put_of_ne (by simp), h.find?_root]
  · intro other t found hat
    by_cases hother : other ++ [t] = place ++ [s]
    · obtain ⟨rfl, hts⟩ := List.append_inj' hother rfl
      rw [hother, at?_put_self _ _ (by simp), Option.some.injEq] at hat
      subst hat
      refine ⟨?_, ?_, hentry⟩
      · intro name hname
        obtain ⟨outer, houter, _⟩ := holds_iff.mp houter
        rw [hother] at hname
        rcases List.mem_append.mp hname with hname | hname
        · exact h.storable houter name hname
        · rwa [List.mem_singleton.mp hname]
      · rwa [Holds, at?_put_of_ne _ _ (by simp)]
    · rw [at?_put_of_ne _ _ hother] at hat
      refine ⟨h.storable hat, ?_, h.entry hat⟩
      by_cases hin : other = place ++ [s]
      · -- What lies inside of the new entry was inside of something before.
        rcases hinside with hdir | hnot
        · rwa [hin, Holds, at?_put_self _ _ (by simp)]
        · rw [hin] at hat
          exact absurd (h.outer hat) hnot
      · rw [Holds, at?_put_of_ne _ _ hin]
        exact h.outer hat

/-- Whatever was put in its place before can be put there again, changed but of its kind. -/
theorem put_file (h : disk.Sound) {place : Place} {content content' : ByteArray}
    {executable executable' : Bool} (hat : disk.at? place = some (.file content executable)) :
    (disk.put place (.file content' executable')).Sound := by
  rcases List.eq_nil_or_concat place with rfl | ⟨front, s, rfl⟩
  · exact absurd hat (by simp)
  · rw [List.concat_eq_append] at hat ⊢
    exact h.put (h.outer hat) (h.storable hat s (by simp)) trivial
      (Or.inr (by simp [Holds, hat, Entry.isDirectory]))

theorem erase (h : disk.Sound) (place : Place) : (disk.erase place).Sound := by
  refine of_at? (List.Pairwise.filter _ h.sorted) ?_ ?_
  · rw [Disk.erase, Tree.find?_erase, h.find?_root, ite_self]
  · intro other t found hat
    rw [at?_erase] at hat
    split at hat
    · exact absurd hat (by simp)
    · rename_i hnot
      refine ⟨h.storable hat, ?_, h.entry hat⟩
      rw [Holds, at?_erase, if_neg]
      · exact h.outer hat
      intro hin
      exact hnot ⟨by simp, Place.isWithin_trans (Place.isWithin_append other [t]) hin.2⟩

theorem eraseInside (h : disk.Sound) (place : Place) : (disk.eraseInside place).Sound := by
  refine of_at? (List.Pairwise.filter _ h.sorted) ?_ ?_
  · rw [Disk.eraseInside, Tree.find?_eraseInside, h.find?_root, ite_self]
  · intro other t found hat
    rw [at?_eraseInside] at hat
    split at hat
    · exact absurd hat (by simp)
    · rename_i hnot
      have hout := @Place.not_isInside_outer other place t (by simpa using hnot)
      refine ⟨h.storable hat, ?_, h.entry hat⟩
      rw [Holds, at?_eraseInside, if_neg (by simp [hout])]
      exact h.outer hat

end Sound

end Disk

end Stencil.Files
