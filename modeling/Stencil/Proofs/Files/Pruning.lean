import Stencil.Files.Prune
import Stencil.Proofs.Files.Around
import Stencil.Proofs.Files.Behind
import Stencil.Proofs.Files.Order
import Stencil.Proofs.Ignore

/-!
# What pruning leaves

Pruning goes through a directory, and while it does so it takes away what is marked or ignored, each by its path.
While things are taken away a path leads to where it led before, or nowhere, so whatever else happens nothing is lost
but what lies at or inside of something unwanted (`prune_left`). For the same reason pruning never fails once its
directory is found (`prune_done`).

That all of it is lost takes more: if the path of the directory leads through something that is inside of the
directory and unwanted, it leads nowhere once that is gone, and whatever is still there by then counts as gone, too.
By a path that leads to the directory in the end everything unwanted is taken away, and what is gone is known from
the names alone: whatever they lead to, if they lead through something unwanted (`prune_eq`).
-/

namespace Stencil.Files

open Disk

variable {disk d new : Disk} {root place names : Place} {set : IgnoreSet} {mark : String}

/-! ## What is unwanted -/

/-- Whether names are those of something that is marked or ignored. -/
def IsUnwantedName (set : IgnoreSet) (mark : String) (names : Place) : Prop :=
  (!mark.isEmpty && names.getLast?.any fun name => name.startsWith mark) = true ∨
    set.ignoresRelative names.slashed = true

theorem Visit.isUnwanted_iff {visit : Visit} :
    visit.isUnwanted set mark = true ↔ IsUnwantedName set mark visit.names :=
  Iff.of_eq (Bool.or_eq_true _ _)

theorem IsUnwantedName.ne_nil (h : IsUnwantedName set mark names) : names ≠ [] := by
  rintro rfl
  rcases h with h | h
  · simp at h
  · cases h

/-- Whether what some names lead to below the base of a set of patterns has a name that starts with a mark, if
that is not empty, or a path that is ignored. -/
def IsUnwantedPath (set : IgnoreSet) (mark : String) (names : Place) : Prop :=
  (mark ≠ "" ∧ ∃ name ∈ names.getLast?, name.startsWith mark = true) ∨
    set.ignores (Path.join set.base ("/".intercalate names)) = true

instance (set : IgnoreSet) (mark : String) (names : Place) : Decidable (IsUnwantedPath set mark names) :=
  inferInstanceAs (Decidable ((mark ≠ "" ∧ ∃ name ∈ names.getLast?, name.startsWith mark = true) ∨
    set.ignores (Path.join set.base ("/".intercalate names)) = true))

theorem isUnwantedName_iff (hbase : set.base ≠ "") (hne : names ≠ []) (h : ∀ s ∈ names, IsName s) :
    IsUnwantedName set mark names ↔ IsUnwantedPath set mark names := by
  unfold IsUnwantedName IsUnwantedPath
  rw [IgnoreSet.ignores_join hbase hne h, Bool.and_eq_true, Option.any_eq_true]
  simp

/-- Whether names lead through something that is marked or ignored. -/
def Prunes (set : IgnoreSet) (mark : String) (names : Place) : Prop :=
  ∃ front, front ≠ [] ∧ front <+: names ∧ IsUnwantedName set mark front

/-- Where nothing is ignored, the patterns do not matter. -/
theorem prunes_congr {set' : IgnoreSet} (h : set.ignoresRelative names.slashed = false)
    (h' : set'.ignoresRelative names.slashed = false) : Prunes set mark names ↔ Prunes set' mark names := by
  have hmarked : ∀ {one other : IgnoreSet}, one.ignoresRelative names.slashed = false →
      Prunes one mark names → Prunes other mark names := by
    rintro one other hone ⟨front, hne, hprefix, hmark | hignored⟩
    · exact ⟨front, hne, hprefix, Or.inl hmark⟩
    · rw [IgnoreSet.ignoresRelative_slashed hignored hprefix] at hone
      cases hone
  exact ⟨hmarked h, hmarked h'⟩

/-- Whether a place lies at or inside of something unwanted that is behind some names. -/
def IsUnwantedAt (set : IgnoreSet) (mark : String) (root names place : Place) : Prop :=
  ∃ more, IsUnwantedName set mark (names ++ more) ∧ place.isWithin (root ++ (names ++ more)) = true

theorem IsUnwantedAt.isWithin (h : IsUnwantedAt set mark root names place) :
    place.isWithin (root ++ names) = true := by
  obtain ⟨more, -, hin⟩ := h
  rw [← List.append_assoc] at hin
  exact Place.isWithin_trans hin (Place.isWithin_append _ _)

/-- What is unwanted lies inside of the directory. -/
theorem IsUnwantedAt.isInside (h : IsUnwantedAt set mark root names place) : place.isInside root = true := by
  obtain ⟨more, hunwanted, hin⟩ := h
  obtain ⟨rest, rfl⟩ := Place.exists_of_isWithin hin
  rw [List.append_assoc]
  exact Place.isInside_append _ fun hnil => hunwanted.ne_nil (List.append_eq_nil_iff.mp hnil).1

/-- What is behind more names is behind fewer. -/
theorem IsUnwantedAt.of_append {more : Place} (h : IsUnwantedAt set mark root (names ++ more) place) :
    IsUnwantedAt set mark root names place := by
  obtain ⟨rest, hunwanted, hin⟩ := h
  rw [List.append_assoc] at hunwanted hin
  exact ⟨more ++ rest, hunwanted, hin⟩

/-- Whether a place lies at or inside of something unwanted below the base of a set of patterns. -/
def Unwanted (set : IgnoreSet) (mark : String) (disk : Disk) (place : Place) : Prop :=
  ∃ root, disk.canonical set.base = .ok root ∧ IsUnwantedAt set mark root [] place

/-! ## Losing some places at most -/

/-- **Whether a disk is what another one is** but for places that may have been emptied. -/
structure LosesOnly (gone : Place → Prop) (old new : Disk) : Prop where
  sound : old.Sound → new.Sound
  directory_eq : new.directory = old.directory
  left : ∀ place, new.at? place = old.at? place ∨ new.at? place = none ∧ gone place

namespace LosesOnly

variable {gone gone' : Place → Prop} {old mid : Disk}

theorem refl (disk : Disk) : LosesOnly gone disk disk := ⟨id, rfl, fun _ => Or.inl rfl⟩

theorem trans (h : LosesOnly gone old mid) (h' : LosesOnly gone mid new) : LosesOnly gone old new := by
  refine ⟨h'.sound ∘ h.sound, h'.directory_eq.trans h.directory_eq, fun place => ?_⟩
  rcases h'.left place with heq | hgone
  · exact heq ▸ h.left place
  · exact Or.inr hgone

theorem mono (h : LosesOnly gone old new) (himp : ∀ place, gone place → gone' place) : LosesOnly gone' old new :=
  ⟨h.sound, h.directory_eq, fun place => (h.left place).imp_right (And.imp_right (himp place))⟩

theorem shrunk (h : LosesOnly gone old new) : Shrunk old new :=
  ⟨h.directory_eq, fun place => (h.left place).imp_right And.left⟩

theorem at?_eq (h : LosesOnly gone old new) (hnot : ¬ gone place) : new.at? place = old.at? place :=
  (h.left place).resolve_right fun hgone => hnot hgone.2

theorem at?_eq_none (h : LosesOnly gone old new) (hnone : old.at? place = none) : new.at? place = none :=
  (h.left place).elim (·.trans hnone) And.left

theorem erase (disk : Disk) (place : Place) :
    LosesOnly (fun inner => inner.isWithin place = true) disk (disk.erase place) := by
  refine ⟨fun hsound => hsound.erase place, rfl, fun other => ?_⟩
  rw [at?_erase]
  split
  · rename_i hin
    exact Or.inr ⟨rfl, hin.2⟩
  · exact Or.inl rfl

theorem eraseInside (disk : Disk) (place : Place) :
    LosesOnly (fun inner => inner.isWithin place = true) disk (disk.eraseInside place) := by
  refine ⟨fun hsound => hsound.eraseInside place, rfl, fun other => ?_⟩
  rw [at?_eraseInside]
  split
  · rename_i hin
    exact Or.inr ⟨rfl, (Bool.and_eq_true_iff.mp hin).1⟩
  · exact Or.inl rfl

/-- What is discarded is lost where its path leads, and nowhere else. -/
theorem discard {path : String} {entry : Entry}
    (hplace : ∀ outer found, d.find false path = .ok (outer, found) → ∀ inner : Place,
      inner.isWithin outer = true → gone inner) : LosesOnly gone d (d.discard path entry).1 := by
  have hremoved : LosesOnly gone d (d.removeDirectory path).1 := by
    rcases removeDirectory_eq d path with heq | ⟨outer, found, hfind, ⟨-, heq⟩ | ⟨-, heq | heq⟩⟩ <;> rw [heq]
    · exact refl d
    · exact (erase d outer).mono (hplace outer found hfind)
    · exact (eraseInside d outer).mono (hplace outer found hfind)
    · exact ((eraseInside d outer).trans (erase _ outer)).mono (hplace outer found hfind)
  unfold Disk.discard
  split
  · split <;> rename_i heq <;> rw [heq] at hremoved <;> exact hremoved
  · split
    · rename_i taken hfile
      obtain ⟨outer, found, hfind, -, rfl⟩ := removeFile_eq hfile
      exact (erase d outer).mono (hplace outer found hfind)
    · exact refl d
    · exact refl d

end LosesOnly

/-! ## Nothing else is lost -/

section Left

variable {enter : Place → Disk → Disk × Except PruneFault Unit} {visit : Visit} {visits : List Visit} {found : Entry}
  (hsound : disk.Sound) (hroot : disk.find true set.base = .ok (root, found)) (hdir : found.isDirectory = true)

include hsound hroot hdir

/-- What is listed of a directory was in it before. -/
theorem at?_of_list_shrunk {outer : Entry} {entries : List (String × Entry)} (hshrunk : Shrunk disk d)
    (hat : disk.at? (root ++ names) = some outer) (houter : outer.isDirectory = true)
    (h : d.list ((Visit.behind root names .directory).path set.base) = .ok entries) :
    ∀ s entry, (s, entry) ∈ entries → disk.at? (root ++ (names ++ [s])) = some entry := by
  intro s entry hmem
  obtain ⟨there, found, hfind, hlisted⟩ := at?_of_list h
  obtain rfl := hshrunk.place_of_find (find_visit_directory hsound hroot hdir hat houter) hfind
  rw [← List.append_assoc]
  exact hshrunk.at?_eq_some (hlisted s entry hmem)

theorem pruneOne_left (hshrunk : Shrunk disk d) (hne : visit.names ≠ [])
    (hat : disk.at? (root ++ visit.names) = some visit.entry)
    (henter : visit.entry.isDirectory = true →
      LosesOnly (IsUnwantedAt set mark root visit.names) d (enter visit.names d).1) :
    LosesOnly (IsUnwantedAt set mark root visit.names) d (pruneOne set mark enter visit d).1 := by
  unfold pruneOne
  split
  · rename_i hunwanted
    refine LosesOnly.discard fun outer entry hfind inner hin => ⟨[], ?_, ?_⟩
    · rw [List.append_nil]
      exact Visit.isUnwanted_iff.mp hunwanted
    · have hsame := hshrunk.place_of_find (find_visit hsound hroot hdir hne hat fun _ => rfl) hfind
      rwa [List.append_nil, ← hsame]
  · split
    · rename_i hinner
      exact henter hinner
    · exact .refl d

theorem pruneEach_left (hshrunk : Shrunk disk d)
    (hvisits : ∀ visit ∈ visits, ∃ s, visit.names = names ++ [s] ∧
      disk.at? (root ++ visit.names) = some visit.entry)
    (henter : ∀ visit ∈ visits, visit.entry.isDirectory = true → ∀ d, Shrunk disk d →
      LosesOnly (IsUnwantedAt set mark root visit.names) d (enter visit.names d).1) :
    LosesOnly (IsUnwantedAt set mark root names) d (pruneEach set mark enter visits d).1 := by
  -- What was met first may be gone when the rest has its turn, so the rest starts from any smaller disk.
  induction visits generalizing d with
  | nil => exact .refl d
  | cons visit rest ih =>
      obtain ⟨s, hnames, hat⟩ := hvisits visit List.mem_cons_self
      have hone := pruneOne_left hsound hroot hdir hshrunk (by simp [hnames]) hat fun hinner =>
        henter visit List.mem_cons_self hinner d hshrunk
      have hfirst : LosesOnly (IsUnwantedAt set mark root names) d (pruneOne set mark enter visit d).1 :=
        hone.mono fun place hgone => .of_append (hnames ▸ hgone)
      rw [pruneEach]
      split
      · rename_i after fault heq
        rwa [heq] at hfirst
      · rename_i after heq
        rw [heq] at hfirst
        exact hfirst.trans (ih (hshrunk.trans hfirst.shrunk)
          (fun other hother => hvisits other (List.mem_cons_of_mem _ hother))
          fun other hother => henter other (List.mem_cons_of_mem _ hother))

theorem pruneInside_left {depth : Nat} {outer : Entry} (hshrunk : Shrunk disk d)
    (hat : disk.at? (root ++ names) = some outer) (houter : outer.isDirectory = true) :
    LosesOnly (IsUnwantedAt set mark root names) d (pruneInside set mark root depth names d).1 := by
  induction depth generalizing names outer d with
  | zero => exact .refl d
  | succ depth ih =>
      rw [pruneInside]
      split
      · exact .refl d
      · exact .refl d
      · rename_i entries hlist
        have hlisted := at?_of_list_shrunk hsound hroot hdir hshrunk hat houter hlist
        refine pruneEach_left hsound hroot hdir hshrunk (fun visit hvisit => ?_)
          fun visit hvisit hinner d' hshrunk' => ?_
        · obtain ⟨⟨s, entry⟩, hmem, rfl⟩ := List.mem_map.mp hvisit
          exact ⟨s, rfl, hlisted s entry hmem⟩
        · obtain ⟨⟨s, entry⟩, hmem, rfl⟩ := List.mem_map.mp hvisit
          exact ih hshrunk' (hlisted s entry hmem) hinner

/-- All that is visited is gone through as far as directories are nested. -/
theorem pruneEach_inside_left {depth : Nat} (hshrunk : Shrunk disk d)
    (hvisits : ∀ visit ∈ visits, ∃ s, visit.names = names ++ [s] ∧ disk.at? (root ++ visit.names) = some visit.entry) :
    LosesOnly (IsUnwantedAt set mark root names) d
      (pruneEach set mark (pruneInside set mark root depth) visits d).1 := by
  refine pruneEach_left hsound hroot hdir hshrunk hvisits fun visit hvisit hinner d hd => ?_
  obtain ⟨s, -, hat⟩ := hvisits visit hvisit
  exact pruneInside_left hsound hroot hdir hd hat hinner

end Left

/-- **Pruning takes away nothing but what is unwanted**, and what is inside of that, however it ends. -/
theorem prune_left (hsound : disk.Sound) (set : IgnoreSet) (mark : String) :
    LosesOnly (Unwanted set mark disk) disk (prune set mark disk).1 := by
  unfold prune
  split
  · exact .refl disk
  · exact .refl disk
  · rename_i root entry hfind
    split
    · rename_i hdir
      have hat : disk.at? (root ++ []) = some entry := by rw [List.append_nil, find_at? hfind]
      exact (pruneInside_left hsound hfind hdir ⟨rfl, fun _ => Or.inl rfl⟩ hat hdir).mono fun place hgone =>
        ⟨root, canonical_eq_ok.mpr ⟨entry, hfind⟩, hgone⟩
    · exact .refl disk

/-- Around the directory everything is as it was. -/
theorem prune_sameAround (hsound : disk.Sound) (set : IgnoreSet) (mark : String)
    (hroot : disk.canonical set.base = .ok root) : SameAround root disk (prune set mark disk).1 := by
  have hleft := prune_left hsound set mark
  refine ⟨hleft.directory_eq, fun place hout => hleft.at?_eq ?_⟩
  rintro ⟨root', hroot', hunwanted⟩
  rw [hroot, Except.ok.injEq] at hroot'
  subst hroot'
  rw [hunwanted.isInside] at hout
  cases hout

/-- A path that finds the directory even if nothing is inside leads there in the end. -/
theorem canonical_prune (hsound : disk.Sound) (mark : String) (hreach : disk.Reaches set.base root) :
    (prune set mark disk).1.canonical set.base = .ok root :=
  (hreach.of_same (prune_sameAround hsound set mark hreach.canonical_eq)).canonical_eq

/-- Where there is no directory nothing is pruned. -/
theorem prune_of_not_directory (set : IgnoreSet) (mark : String)
    (h : ∀ root entry, disk.find true set.base = .ok (root, entry) → entry.isDirectory = false) :
    (prune set mark disk).1 = disk := by
  unfold prune
  split
  · rfl
  · rfl
  · rename_i root entry hfind
    rw [if_neg (by simp [h root entry hfind])]

/-! ## Pruning does not fail -/

section Done

variable {enter : Place → Disk → Disk × Except PruneFault Unit} {visit : Visit} {visits : List Visit} {found : Entry}

/-- What was met can be discarded later on, or is gone by then. -/
theorem discard_done {path : String} {entry : Entry} (hname : Path.EndsInName path) (hshrunk : Shrunk disk d)
    (hfind : disk.find false path = .ok (place, entry)) : (d.discard path entry).2 = .ok () := by
  unfold Disk.discard
  rcases hshrunk.find_or_missing hfind with heq | heq
  · by_cases hdir : entry.isDirectory = true
    · rcases hremove : d.removeDirectory path with ⟨after, result⟩
      have hdone := removeDirectory_done hname heq hdir
      rw [hremove] at hdone
      obtain rfl : result = .ok () := hdone
      rw [if_pos hdir]
    · rw [if_neg hdir, removeFile, heq]
      simp only [hdir]
      rfl
  · by_cases hdir : entry.isDirectory = true
    · rw [if_pos hdir, removeDirectory, heq]
    · rw [if_neg hdir, removeFile, heq]

variable (hsound : disk.Sound) (hroot : disk.find true set.base = .ok (root, found)) (hdir : found.isDirectory = true)

include hsound hroot hdir

theorem pruneOne_done (hshrunk : Shrunk disk d) (hne : visit.names ≠ [])
    (hat : disk.at? (root ++ visit.names) = some visit.entry)
    (henter : visit.entry.isDirectory = true → (enter visit.names d).2 = .ok ()) :
    (pruneOne set mark enter visit d).2 = .ok () := by
  unfold pruneOne
  split
  · have hbase : set.base ≠ "" := (find_iff_leads.mp hroot).1.ne_empty
    have hnames : ∀ s ∈ visit.names, IsName s := fun s hs => hsound.isName hat s (List.mem_append_right _ hs)
    exact discard_done (Visit.endsInName_path hbase hne hnames) hshrunk
      (find_visit hsound hroot hdir hne hat fun _ => rfl)
  · split
    · rename_i hinner
      exact henter hinner
    · rfl

theorem pruneEach_done {depth : Nat} (hshrunk : Shrunk disk d)
    (hvisits : ∀ visit ∈ visits, ∃ s, visit.names = names ++ [s] ∧ disk.at? (root ++ visit.names) = some visit.entry)
    (henter : ∀ visit ∈ visits, visit.entry.isDirectory = true → ∀ d, Shrunk disk d →
      (pruneInside set mark root depth visit.names d).2 = .ok ()) :
    (pruneEach set mark (pruneInside set mark root depth) visits d).2 = .ok () := by
  induction visits generalizing d with
  | nil => rfl
  | cons visit rest ih =>
      obtain ⟨s, hnames, hat⟩ := hvisits visit List.mem_cons_self
      have hne : visit.names ≠ [] := by simp [hnames]
      have hone : (pruneOne set mark (pruneInside set mark root depth) visit d).2 = .ok () :=
        pruneOne_done hsound hroot hdir hshrunk hne hat fun hinner => henter visit List.mem_cons_self hinner d hshrunk
      have hleft : LosesOnly (IsUnwantedAt set mark root visit.names) d
          (pruneOne set mark (pruneInside set mark root depth) visit d).1 :=
        pruneOne_left hsound hroot hdir hshrunk hne hat fun hinner =>
          pruneInside_left hsound hroot hdir hshrunk hat hinner
      rcases hon : pruneOne set mark (pruneInside set mark root depth) visit d with ⟨after, result⟩
      rw [hon] at hone hleft
      obtain rfl : result = .ok () := hone
      rw [pruneEach, hon]
      exact ih (hshrunk.trans hleft.shrunk) (fun other hother => hvisits other (List.mem_cons_of_mem _ hother))
        fun other hother => henter other (List.mem_cons_of_mem _ hother)

theorem pruneInside_done {depth : Nat} {outer : Entry} (hshrunk : Shrunk disk d)
    (hat : disk.at? (root ++ names) = some outer) (houter : outer.isDirectory = true) :
    (pruneInside set mark root depth names d).2 = .ok () := by
  induction depth generalizing names outer d with
  | zero => rfl
  | succ depth ih =>
      rw [pruneInside]
      -- The directory that was met is listed, or gone by now.
      rcases hshrunk.find_or_missing (find_visit_directory hsound hroot hdir hat houter) with heq | heq
      · obtain ⟨entries, hlist⟩ : ∃ entries,
            d.list ((Visit.behind root names .directory).path set.base) = .ok entries := by
          unfold list
          rw [heq]
          exact ⟨_, if_pos houter⟩
        have hlisted := at?_of_list_shrunk hsound hroot hdir hshrunk hat houter hlist
        rw [hlist]
        refine @pruneEach_done disk d root names set mark _ found hsound hroot hdir depth hshrunk
          (fun visit hvisit => ?_) fun visit hvisit hinner d' hd' => ?_
        · obtain ⟨⟨s, entry⟩, hmem, rfl⟩ := List.mem_map.mp hvisit
          exact ⟨s, rfl, hlisted s entry hmem⟩
        · obtain ⟨⟨s, entry⟩, hmem, rfl⟩ := List.mem_map.mp hvisit
          exact ih hd' (hlisted s entry hmem) hinner
      · rw [list, heq]

omit hdir in
/-- **Whatever the path of a directory leads to can be pruned.** -/
theorem prune_done : (prune set mark disk).2 = .ok () := by
  unfold prune
  rw [hroot]
  dsimp only
  split
  · rename_i hdir
    have hat : disk.at? (root ++ []) = some found := by rw [List.append_nil, find_at? hroot]
    exact pruneInside_done hsound hroot hdir ⟨rfl, fun _ => Or.inl rfl⟩ hat hdir
  · rfl

end Done

/-! ## All of it is lost -/

/-- **Whether something ended well and has emptied some places.** -/
structure Empties (gone : Place → Prop) (result : Disk × Except PruneFault Unit) : Prop where
  done : result.2 = .ok ()
  at?_eq_none : ∀ place, gone place → result.1.at? place = none

/-- What is found by a path that ends with a name can be discarded as what it is, if whatever would be left of it is
found by the path again. -/
theorem discard_empties {path : String} {entry : Entry} (hname : Path.EndsInName path)
    (hfind : d.find false path = .ok (place, entry)) (hne : place ≠ [])
    (hleft : (d.discard path entry).1.at? place = some entry →
      (d.discard path entry).1.find false path = .ok (place, entry)) :
    Empties (fun inner => inner.isWithin place = true) (d.discard path entry) := by
  by_cases hdir : entry.isDirectory = true
  · have hdiscard : (d.discard path entry).1 = (d.removeDirectory path).1 := by
      unfold Disk.discard
      rw [if_pos hdir]
      split <;> rename_i heq <;> rw [heq]
    have hwhole := removeDirectory_of_name hname hfind hdir (hdiscard ▸ hleft)
    unfold Disk.discard
    rw [if_pos hdir, hwhole]
    exact ⟨rfl, fun inner hin => at?_erase_within _ hne hin⟩
  · have heq : d.removeFile path = .ok (d.erase place) := by
      unfold removeFile
      rw [hfind]
      exact if_neg hdir
    unfold Disk.discard
    rw [if_neg hdir, heq]
    exact ⟨rfl, fun inner hin => at?_erase_within _ hne hin⟩

/-- What is next to something in a directory is still there if only that, or something inside of it, was lost. -/
theorem LosesOnly.siblings {visit : Visit} {s : String} {rest : List Visit}
    (h : LosesOnly (IsUnwantedAt set mark root visit.names) d new) (hnames : visit.names = names ++ [s])
    (hother : visit.names ∉ rest.map (·.names))
    (hrest : ∀ other ∈ rest, ∃ t, other.names = names ++ [t] ∧ d.at? (root ++ other.names) = some other.entry) :
    ∀ other ∈ rest, ∃ t, other.names = names ++ [t] ∧ new.at? (root ++ other.names) = some other.entry := by
  intro other hmem
  obtain ⟨t, ht, hthere⟩ := hrest other hmem
  refine ⟨t, ht, (h.at?_eq fun hgone => hother ?_).trans hthere⟩
  have hprefix := (List.prefix_append_right_inj root).mp (Place.isWithin_iff.mp hgone.isWithin)
  rw [hnames, ht, List.prefix_append_right_inj] at hprefix
  obtain rfl : s = t := by simpa using hprefix
  exact List.mem_map.mpr ⟨other, hmem, ht.trans hnames.symm⟩

section Exact

variable {enter : Place → Disk → Disk × Except PruneFault Unit} {visit : Visit} {visits : List Visit} {found : Entry}
  {depth : Nat}

/-- A path that leads to the directory finds what it has found before. -/
theorem find_base (hroot : disk.find true set.base = .ok (root, found)) (hshrunk : Shrunk disk d)
    (hled : d.canonical set.base = .ok root) : d.find true set.base = .ok (root, found) := by
  obtain ⟨entry, hfind⟩ := canonical_eq_ok.mp hled
  have hat := hshrunk.at?_eq_some (find_at? hfind)
  rw [find_at? hroot] at hat
  rw [hfind, Option.some.inj hat]

theorem pruneOne_empties (hsound : d.Sound) (hroot : d.find true set.base = .ok (root, found))
    (hdir : found.isDirectory = true) (hne : visit.names ≠ []) (hat : d.at? (root ++ visit.names) = some visit.entry)
    (henter : visit.isUnwanted set mark = false → visit.entry.isDirectory = true →
      Empties (fun place => ∃ s, IsUnwantedAt set mark root (visit.names ++ [s]) place) (enter visit.names d))
    (hend : (pruneOne set mark enter visit d).1.canonical set.base = .ok root) :
    Empties (IsUnwantedAt set mark root visit.names) (pruneOne set mark enter visit d) := by
  have hnames : ∀ s ∈ visit.names, IsName s := fun s hs => hsound.isName hat s (List.mem_append_right _ hs)
  have hbase : set.base ≠ "" := (find_iff_leads.mp hroot).1.ne_empty
  unfold pruneOne at hend ⊢
  split
  · rename_i hunwanted
    rw [if_pos hunwanted] at hend
    have hloses : LosesOnly (fun _ => True) d (d.discard (visit.path set.base) visit.entry).1 :=
      .discard fun _ _ _ _ _ => trivial
    obtain ⟨hdone, hempty⟩ := discard_empties (Visit.endsInName_path hbase hne hnames)
      (find_visit hsound hroot hdir hne hat fun _ => rfl) (by simp [hne]) fun hleft =>
        find_visit (hloses.sound hsound) (find_base hroot hloses.shrunk hend) hdir hne hleft fun _ => rfl
    exact ⟨hdone, fun place hgone => hempty place hgone.isWithin⟩
  · rename_i hwanted
    have hinside : ∀ place, IsUnwantedAt set mark root visit.names place → ∃ s more,
        IsUnwantedName set mark (visit.names ++ s :: more) ∧
          place.isWithin (root ++ (visit.names ++ s :: more)) = true := by
      rintro place ⟨more, hunwanted, hin⟩
      cases more with
      | nil =>
          rw [List.append_nil] at hunwanted
          exact absurd (Visit.isUnwanted_iff.mpr hunwanted) hwanted
      | cons s more => exact ⟨s, more, hunwanted, hin⟩
    split
    · rename_i hinner
      obtain ⟨hdone, hempty⟩ := henter (by simpa using hwanted) hinner
      refine ⟨hdone, fun place hgone => ?_⟩
      obtain ⟨s, more, hunwanted, hin⟩ := hinside place hgone
      exact hempty place ⟨s, more, by simpa using hunwanted, by simpa using hin⟩
    · -- Nothing is inside of what is no directory.
      rename_i hsingle
      refine ⟨rfl, fun place hgone => ?_⟩
      obtain ⟨s, more, -, hin⟩ := hinside place hgone
      refine hsound.at?_within_eq_none ?_ hin
      rw [← List.append_assoc]
      refine hsound.at?_append_eq_none (by simp) fun hholds => hsingle ?_
      obtain ⟨there, hthere, hdir⟩ := holds_iff.mp hholds
      rwa [Option.some.inj (hat.symm.trans hthere)]

variable (hsound : disk.Sound) (hroot : disk.find true set.base = .ok (root, found)) (hdir : found.isDirectory = true)

include hsound hroot hdir

/-- **What is visited in a directory is pruned**, one after the other, if the path leads there in the end. -/
theorem pruneEach_empties (hd : d.Sound) (hshrunk : Shrunk disk d)
    (hvisits : ∀ visit ∈ visits, ∃ s, visit.names = names ++ [s] ∧ d.at? (root ++ visit.names) = some visit.entry)
    (hnodup : (visits.map (·.names)).Nodup)
    (henter : ∀ visit ∈ visits, visit.entry.isDirectory = true → ∀ d : Disk, d.Sound → Shrunk disk d →
      d.at? (root ++ visit.names) = some visit.entry →
        (pruneInside set mark root depth visit.names d).1.canonical set.base = .ok root →
        Empties (fun place => ∃ s, IsUnwantedAt set mark root (visit.names ++ [s]) place)
          (pruneInside set mark root depth visit.names d))
    (hend : (pruneEach set mark (pruneInside set mark root depth) visits d).1.canonical set.base = .ok root) :
    Empties (fun place => ∃ visit ∈ visits, IsUnwantedAt set mark root visit.names place)
      (pruneEach set mark (pruneInside set mark root depth) visits d) := by
  induction visits generalizing d with
  | nil => exact ⟨rfl, by simp⟩
  | cons visit rest ih =>
      obtain ⟨s, hnames, hat⟩ := hvisits visit List.mem_cons_self
      have hne : visit.names ≠ [] := by simp [hnames]
      rw [List.map_cons, List.nodup_cons] at hnodup
      have hleft : LosesOnly (IsUnwantedAt set mark root visit.names) d
          (pruneOne set mark (pruneInside set mark root depth) visit d).1 :=
        pruneOne_left hsound hroot hdir hshrunk hne (hshrunk.at?_eq_some hat) fun hinner =>
          pruneInside_left hsound hroot hdir hshrunk (hshrunk.at?_eq_some hat) hinner
      rcases hon : pruneOne set mark (pruneInside set mark root depth) visit d with ⟨after, result⟩
      rw [hon] at hleft
      have hafter : Shrunk disk after := hshrunk.trans hleft.shrunk
      have hrest := hleft.siblings hnames hnodup.1 fun other hother => hvisits other (List.mem_cons_of_mem _ hother)
      have hlater : LosesOnly (IsUnwantedAt set mark root names) after
          (pruneEach set mark (pruneInside set mark root depth) rest after).1 :=
        pruneEach_inside_left hsound hroot hdir hafter fun other hother => by
          obtain ⟨t, ht, hthere⟩ := hrest other hother
          exact ⟨t, ht, hafter.at?_eq_some hthere⟩
      rw [pruneEach, hon] at hend ⊢
      -- What the path leads to in the end it leads to all the time.
      have hled : after.canonical set.base = .ok root := by
        cases result with
        | error fault => exact hend
        | ok => exact canonical_grow hlater.shrunk.grown hend
      have hroot' := find_base hroot hshrunk (canonical_grow hleft.shrunk.grown hled)
      have hone := pruneOne_empties hd hroot' hdir hne hat (fun hwanted hinner =>
        henter visit List.mem_cons_self hinner d hd hshrunk hat (by
          rw [pruneOne, if_neg (by simp [hwanted]), if_pos hinner] at hon
          rwa [hon])) (by rwa [hon])
      rw [hon] at hone
      obtain rfl : result = .ok () := hone.done
      obtain ⟨hdone, hempty⟩ := ih (hleft.sound hd) hafter hrest hnodup.2
        (fun other hother => henter other (List.mem_cons_of_mem _ hother)) hend
      refine ⟨hdone, fun place hgone => ?_⟩
      obtain ⟨other, hother, hgone⟩ := hgone
      rcases List.mem_cons.mp hother with rfl | hother
      · exact hlater.at?_eq_none (hone.at?_eq_none place hgone)
      · exact hempty place ⟨other, hother, hgone⟩

/-- **A directory is pruned as a whole**, if directories are nested no deeper than said and the path leads there in
the end. -/
theorem pruneInside_empties {outer : Entry} (hd : d.Sound) (hshrunk : Shrunk disk d)
    (hat : d.at? (root ++ names) = some outer) (houter : outer.isDirectory = true)
    (hdepth : ∀ more entry, disk.at? (root ++ (names ++ more)) = some entry → more.length < depth)
    (hend : (pruneInside set mark root depth names d).1.canonical set.base = .ok root) :
    Empties (fun place => ∃ s, IsUnwantedAt set mark root (names ++ [s]) place)
      (pruneInside set mark root depth names d) := by
  induction depth generalizing names outer d with
  | zero => exact absurd (hdepth [] outer (by simpa using hshrunk.at?_eq_some hat)) (by simp)
  | succ depth ih =>
      have hleft : LosesOnly (IsUnwantedAt set mark root names) d (pruneInside set mark root (depth + 1) names d).1 :=
        pruneInside_left hsound hroot hdir hshrunk (hshrunk.at?_eq_some hat) houter
      have hroot' := find_base hroot hshrunk (canonical_grow hleft.shrunk.grown hend)
      obtain ⟨entries, hlist, hmem, hsorted⟩ := exists_list hd (find_visit_directory hd hroot' hdir hat houter) houter
      simp only [List.append_assoc] at hmem
      have hvisits : ∀ visit ∈ entries.map fun found => Visit.behind root (names ++ [found.1]) found.2,
          ∃ s, visit.names = names ++ [s] ∧ d.at? (root ++ visit.names) = some visit.entry := by
        intro visit hvisit
        obtain ⟨⟨s, entry⟩, hfound, rfl⟩ := List.mem_map.mp hvisit
        exact ⟨s, rfl, (hmem s entry).mp hfound⟩
      have hnodup : ((entries.map fun found => Visit.behind root (names ++ [found.1]) found.2).map (·.names)).Nodup := by
        rw [List.map_map]
        refine List.pairwise_map.mpr (hsorted.imp fun {a b} hlt heq => ?_)
        have hsame : a.1 = b.1 := by simpa [Visit.behind] using heq
        exact absurd hlt (by simp [hsame])
      rw [pruneInside, hlist] at hleft hend ⊢
      -- One level further in there is one level less to go.
      have hall := pruneEach_empties hsound hroot hdir hd hshrunk hvisits hnodup
        (fun visit hvisit hinner d' hd' hshrunk' hat' => ih hd' hshrunk' hat' hinner fun more entry hmore => by
          obtain ⟨s, hnames, -⟩ := hvisits visit hvisit
          have hlt := hdepth (s :: more) entry (by simpa [hnames] using hmore)
          exact Nat.lt_of_succ_lt_succ hlt) hend
      refine ⟨hall.done, fun place hgone => ?_⟩
      obtain ⟨s, hgone⟩ := hgone
      -- Where nothing is there is nothing to be met, and nothing to be lost.
      cases hthere : d.at? (root ++ (names ++ [s])) with
      | none => exact hleft.at?_eq_none (hd.at?_within_eq_none hthere hgone.isWithin)
      | some entry =>
          exact hall.at?_eq_none place ⟨_, List.mem_map.mpr ⟨(s, entry), (hmem s entry).mpr hthere, rfl⟩, hgone⟩

end Exact

/-- **Whether a directory was pruned**: what is left is what its names do not lead to through
anything unwanted. -/
def IsPruned (set : IgnoreSet) (mark : String) (root : Place) (old new : Disk) : Prop :=
  ∀ names entry, names ≠ [] → (new.at? (root ++ names) = some entry ↔
    old.at? (root ++ names) = some entry ∧ ¬ Prunes set mark names)

/-- **A directory can be pruned** by a path that leads there in the end. -/
theorem prune_eq {found : Entry} (hsound : disk.Sound) (hfind : disk.find true set.base = .ok (root, found))
    (hdir : found.isDirectory = true) (hend : (prune set mark disk).1.canonical set.base = .ok root) :
    ∃ new, prune set mark disk = (new, .ok ()) ∧ IsPruned set mark root disk new := by
  have hat : disk.at? (root ++ []) = some found := by rw [List.append_nil, find_at? hfind]
  have hdepth : ∀ more entry, disk.at? (root ++ ([] ++ more)) = some entry → more.length < disk.tree.depth + 1 := by
    intro more entry hmore
    have hle := hsound.length_le_depth hmore
    simp only [List.nil_append, List.length_append] at hle
    omega
  have heq : prune set mark disk = pruneInside set mark root (disk.tree.depth + 1) [] disk := by
    unfold prune
    rw [hfind]
    exact if_pos hdir
  have hempties : Empties (fun place => ∃ s, IsUnwantedAt set mark root ([] ++ [s]) place) (prune set mark disk) := by
    rw [heq] at hend ⊢
    exact pruneInside_empties hsound hfind hdir hsound ⟨rfl, fun _ => Or.inl rfl⟩ hat hdir hdepth hend
  have hleft := prune_left hsound set mark
  rcases hprune : prune set mark disk with ⟨new, result⟩
  rw [hprune] at hempties hleft
  obtain rfl : result = .ok () := hempties.done
  refine ⟨new, rfl, fun names entry hne => ⟨fun hnew => ⟨hleft.shrunk.at?_eq_some hnew, ?_⟩, fun ⟨hold, hnot⟩ => ?_⟩⟩
  · rintro ⟨front, hfront, hprefix, hunwanted⟩
    obtain ⟨s, more, rfl⟩ := List.exists_cons_of_ne_nil hfront
    have hin : Place.isWithin (root ++ names) (root ++ (([] ++ [s]) ++ more)) = true :=
      Place.isWithin_iff.mpr ((List.prefix_append_right_inj root).mpr hprefix)
    rw [hempties.at?_eq_none _ ⟨s, more, hunwanted, hin⟩] at hnew
    cases hnew
  · refine (hleft.at?_eq ?_).trans hold
    rintro ⟨root', hroot', front, hunwanted, hin⟩
    rw [canonical_eq_ok.mpr ⟨_, hfind⟩, Except.ok.injEq] at hroot'
    subst hroot'
    exact hnot ⟨front, hunwanted.ne_nil, (List.prefix_append_right_inj root).mp (Place.isWithin_iff.mp hin), hunwanted⟩

end Stencil.Files
