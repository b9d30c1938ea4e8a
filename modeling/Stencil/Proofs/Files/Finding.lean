import Stencil.Proofs.Files.Leads

/-!
# What paths find

What is known about following steps, said of paths and disks. A path finds the same place on a disk
that has only grown (`find_grow`), and nothing once what it found is gone (`has_eq_false_of_gone`).
Where it finds nothing but could, there is room for something (`Sound.room`).

A place is a path to itself, be it taken as the file system takes it (`Sound.find_render`) or name by
name behind another path (`locate_append`).
-/

namespace Stencil.Files.Disk

/-- Where a path starts. -/
def start (disk : Disk) (path : String) : Place :=
  if (Route.ofString path).isAbsolute then [] else disk.directory

theorem start_withoutEndSlashes (disk : Disk) (path : String) :
    disk.start (withoutEndSlashes path) = disk.start path := by
  rw [start, start, Route.isAbsolute_withoutEndSlashes]

/-- Whether a path can be followed at all. -/
structure CanFollow (disk : Disk) (path : String) : Prop where
  ne_empty : path ≠ ""
  noNull : '\x00' ∉ path.toList
  holds : disk.Holds (disk.start path)

variable {disk disk' : Disk} {followLast : Bool} {path : String} {place : Place} {entry : Entry}
  {location : Location}

theorem locate_eq_ok :
    disk.locate followLast path = .ok location ↔ disk.CanFollow path ∧
      Leads disk.tree followLast maxLinks (disk.start path) (Route.ofString path).steps
        (Route.ofString path).endsInDirectory location := by
  rw [← follow_eq_ok]
  unfold locate
  by_cases hempty : path = ""
  · rw [if_pos (by simpa using hempty)]
    exact ⟨fun h => absurd h (by simp), fun h => absurd hempty h.1.ne_empty⟩
  · rw [if_neg (by simpa using hempty)]
    by_cases hnull : '\x00' ∈ path.toList
    · rw [if_pos (by simpa using hnull)]
      exact ⟨fun h => absurd h (by simp), fun h => absurd hnull h.1.noNull⟩
    · rw [if_neg (by simpa using hnull)]
      by_cases habs : (Route.ofString path).isAbsolute = true
      · rw [if_pos habs]
        have hstart : disk.start path = [] := if_pos habs
        exact ⟨fun h => ⟨⟨hempty, hnull, by simp [hstart]⟩, by rwa [hstart]⟩, fun h => by
          rw [← hstart]; exact h.2⟩
      · rw [if_neg habs]
        have hstart : disk.start path = disk.directory := if_neg habs
        by_cases hholds : (disk.at? disk.directory).any Entry.isDirectory = true
        · rw [if_pos hholds]
          exact ⟨fun h => ⟨⟨hempty, hnull, by rwa [hstart]⟩, by rwa [hstart]⟩, fun h => by
            rw [← hstart]; exact h.2⟩
        · rw [if_neg hholds]
          exact ⟨fun h => absurd h (by simp), fun h => absurd (hstart ▸ h.1.holds) hholds⟩

theorem CanFollow.withoutEndSlashes (h : disk.CanFollow path) : disk.CanFollow (withoutEndSlashes path) := by
  obtain ⟨slashes, hpath, -, hempty⟩ := exists_withoutEndSlashes path
  refine ⟨h.ne_empty ∘ hempty, fun hnull => h.noNull ?_, start_withoutEndSlashes disk path ▸ h.holds⟩
  rw [hpath]
  exact List.mem_append_left _ hnull

/-- A path that can be followed is followed from where it starts. -/
theorem CanFollow.locate_eq (h : disk.CanFollow path) : disk.locate followLast path =
    follow disk.tree followLast maxLinks (disk.start path) (Route.ofString path).steps
      (Route.ofString path).endsInDirectory := by
  have hnull := h.noNull
  have hholds := h.holds
  unfold start at hholds ⊢
  unfold locate
  rw [if_neg (by simpa using h.ne_empty), if_neg (by simpa using hnull)]
  split at hholds
  · rename_i habs
    rw [if_pos habs, if_pos habs]
  · rename_i habs
    rw [if_neg habs, if_neg habs]
    exact if_pos hholds

theorem find_eq_ok :
    disk.find followLast path = .ok (place, entry) ↔
      ∃ ends, disk.locate followLast path = .ok ⟨place, some entry, ends⟩ := by
  unfold find
  cases hlocate : disk.locate followLast path with
  | error fault => simp
  | ok location =>
      obtain ⟨there, entry?, ends⟩ := location
      cases entry? with
      | none => simp
      | some found => simp

/-- **What a path finds is what its steps lead to.** -/
theorem find_iff_leads :
    disk.find followLast path = .ok (place, entry) ↔ disk.CanFollow path ∧ ∃ ends,
      Leads disk.tree followLast maxLinks (disk.start path) (Route.ofString path).steps
        (Route.ofString path).endsInDirectory ⟨place, some entry, ends⟩ := by
  rw [find_eq_ok]
  constructor
  · rintro ⟨ends, hlocate⟩
    obtain ⟨hcan, hleads⟩ := locate_eq_ok.mp hlocate
    exact ⟨hcan, ends, hleads⟩
  · rintro ⟨hcan, ends, hleads⟩
    exact ⟨ends, locate_eq_ok.mpr ⟨hcan, hleads⟩⟩

theorem canonical_eq_ok :
    disk.canonical path = .ok place ↔ ∃ entry, disk.find true path = .ok (place, entry) := by
  unfold canonical
  cases disk.find true path with
  | error fault => simp [Except.map]
  | ok found =>
      obtain ⟨there, found⟩ := found
      simp [Except.map]

theorem exists_leads_of_canonical (h : disk.canonical path = .ok place) :
    ∃ entry ends, Leads disk.tree true maxLinks (disk.start path) (Route.ofString path).steps
      (Route.ofString path).endsInDirectory ⟨place, some entry, ends⟩ := by
  obtain ⟨entry, hfind⟩ := canonical_eq_ok.mp h
  obtain ⟨_, ends, hleads⟩ := find_iff_leads.mp hfind
  exact ⟨entry, ends, hleads⟩

theorem has_iff : disk.has path = true ↔ ∃ place entry, disk.find true path = .ok (place, entry) := by
  unfold has
  cases disk.find true path with
  | error fault => simp [Except.toBool]
  | ok found => exact ⟨fun _ => ⟨found.1, found.2, rfl⟩, fun _ => rfl⟩

theorem has_eq_false_of_canonical {fault : Fault} (h : disk.canonical path = .error fault) :
    disk.has path = false := by
  rw [Bool.eq_false_iff]
  intro hhas
  obtain ⟨place, entry, hfind⟩ := has_iff.mp hhas
  rw [canonical_eq_ok.mpr ⟨entry, hfind⟩] at h
  exact absurd h (by simp)

theorem hasEntry_iff :
    disk.hasEntry path = true ↔ ∃ place entry, disk.find false path = .ok (place, entry) := by
  unfold hasEntry
  cases disk.find false path with
  | error fault => simp [Except.toBool]
  | ok found => exact ⟨fun _ => ⟨found.1, found.2, rfl⟩, fun _ => rfl⟩

theorem locate_at? (h : disk.locate followLast path = .ok location) :
    disk.at? location.place = location.entry? :=
  (locate_eq_ok.mp h).2.entry_eq.symm

theorem find_at? (h : disk.find followLast path = .ok (place, entry)) :
    disk.at? place = some entry := by
  obtain ⟨ends, hlocate⟩ := find_eq_ok.mp h
  exact locate_at? hlocate

/-- What leads to something has something at its end. -/
theorem hasEntry_of_has (h : disk.has path = true) : disk.hasEntry path = true := by
  obtain ⟨place, entry, hfind⟩ := has_iff.mp h
  obtain ⟨hcan, ends, hleads⟩ := find_iff_leads.mp hfind
  obtain ⟨⟨there, entry?, ends'⟩, hstop, hsome⟩ := hleads.exists_stop (by simp)
  obtain ⟨found, rfl⟩ := Option.ne_none_iff_exists'.mp hsome
  exact hasEntry_iff.mpr ⟨there, found, find_iff_leads.mpr ⟨hcan, ends', hstop⟩⟩

theorem has_of_no_entry (h : disk.hasEntry path = false) : disk.has path = false := by
  rw [Bool.eq_false_iff]
  intro hhas
  rw [hasEntry_of_has hhas] at h
  cases h

theorem find_follow_last (h : disk.find false path = .ok (place, entry)) (hlink : entry.isLink = false) :
    disk.find true path = .ok (place, entry) := by
  obtain ⟨hcan, ends, hleads⟩ := find_iff_leads.mp h
  refine find_iff_leads.mpr ⟨hcan, ends, hleads.follow_last fun target htarget => ?_⟩
  rw [Option.some.injEq] at htarget
  exact absurd hlink (by simp [htarget, Entry.isLink])

/-! ## Other disks -/

/-- Whether everything on a disk is still there on another, up to what is in files. -/
structure Grown (old new : Disk) : Prop where
  directory_eq : new.directory = old.directory
  kept : ∀ place entry, old.at? place = some entry → ∃ grown, new.at? place = some grown ∧
    entry.Alike grown

theorem Grown.refl (disk : Disk) : Grown disk disk :=
  ⟨rfl, fun _ entry hat => ⟨entry, hat, entry.alike_refl⟩⟩

theorem Grown.trans {mid new : Disk} (h : Grown disk mid) (h' : Grown mid new) : Grown disk new := by
  refine ⟨h'.directory_eq.trans h.directory_eq, fun place entry hat => ?_⟩
  obtain ⟨grown, hat', halike⟩ := h.kept place entry hat
  obtain ⟨grown', hat'', halike'⟩ := h'.kept place grown hat'
  exact ⟨grown', hat'', halike.trans halike'⟩

theorem Grown.start_eq (h : Grown disk disk') (path : String) :
    disk'.start path = disk.start path := by
  rw [start, start, h.directory_eq]

theorem Grown.holds (h : Grown disk disk') (hholds : disk.Holds place) : disk'.Holds place := by
  obtain ⟨entry, hat, hdir⟩ := holds_iff.mp hholds
  obtain ⟨grown, hat', halike⟩ := h.kept _ _ hat
  exact Holds.of_at? hat' (halike.isDirectory_eq ▸ hdir)

/-- **A path finds the same place on a disk that has grown.** -/
theorem find_grow (h : Grown disk disk') (hfind : disk.find followLast path = .ok (place, entry)) :
    ∃ grown, entry.Alike grown ∧ disk'.find followLast path = .ok (place, grown) := by
  obtain ⟨hcan, ends, hleads⟩ := find_iff_leads.mp hfind
  obtain ⟨grown, halike, hleads'⟩ := hleads.grow rfl h.kept
  have hcan' : disk'.CanFollow path :=
    ⟨hcan.ne_empty, hcan.noNull, h.start_eq path ▸ h.holds hcan.holds⟩
  refine ⟨grown, halike, find_iff_leads.mpr ⟨hcan', ends, ?_⟩⟩
  rw [h.start_eq]
  exact hleads'

theorem canonical_grow (h : Grown disk disk') (hcanonical : disk.canonical path = .ok place) :
    disk'.canonical path = .ok place := by
  obtain ⟨entry, hfind⟩ := canonical_eq_ok.mp hcanonical
  obtain ⟨grown, _, hfind'⟩ := find_grow h hfind
  exact canonical_eq_ok.mpr ⟨grown, hfind'⟩

/-- What was added to a disk does not change what a path finds. -/
theorem find_kept (hdirectory : disk'.directory = disk.directory)
    (hkept : ∀ place entry, disk.at? place = some entry → disk'.at? place = some entry)
    (hfind : disk.find followLast path = .ok (place, entry)) : disk'.find followLast path = .ok (place, entry) := by
  have hgrown : Grown disk disk' :=
    ⟨hdirectory, fun place entry hat => ⟨entry, hkept place entry hat, entry.alike_refl⟩⟩
  obtain ⟨grown, -, hthere⟩ := find_grow hgrown hfind
  have hsame := (find_at? hthere).symm.trans (hkept place entry (find_at? hfind))
  rwa [Option.some.inj hsame] at hthere

/-- Whether a disk is what is left of another. -/
structure Shrunk (old new : Disk) : Prop where
  directory_eq : new.directory = old.directory
  left : ∀ place, new.at? place = old.at? place ∨ new.at? place = none

theorem Shrunk.trans {mid new : Disk} (h : Shrunk disk mid) (h' : Shrunk mid new) :
    Shrunk disk new := by
  refine ⟨h'.directory_eq.trans h.directory_eq, fun place => ?_⟩
  rcases h'.left place with heq | hnone
  · exact heq ▸ h.left place
  · exact Or.inr hnone

/-- What is left of a disk was there before. -/
theorem Shrunk.at?_eq_some (h : Shrunk disk disk') (hat : disk'.at? place = some entry) :
    disk.at? place = some entry := by
  rcases h.left place with heq | hnone
  · exact heq.symm.trans hat
  · exact absurd (hnone.symm.trans hat) (by simp)

theorem Shrunk.at?_eq_none (h : Shrunk disk disk') (hnone : disk.at? place = none) : disk'.at? place = none :=
  (h.left place).elim (·.trans hnone) id

theorem Shrunk.grown (h : Shrunk disk disk') : Grown disk' disk :=
  ⟨h.directory_eq.symm, fun _ entry hat => ⟨entry, h.at?_eq_some hat, entry.alike_refl⟩⟩

/-- A path that is still found leads to where it led before. -/
theorem Shrunk.place_of_find {place' : Place} {entry' : Entry} (h : Shrunk disk disk')
    (hfind : disk.find followLast path = .ok (place, entry)) (hfind' : disk'.find followLast path = .ok (place', entry')) :
    place' = place := by
  obtain ⟨grown, -, hgrown⟩ := find_grow h.grown hfind'
  rw [hfind, Except.ok.injEq] at hgrown
  exact (congrArg Prod.fst hgrown).symm

/-- **In what is left of a disk a path finds what it found before**, or something is missing. -/
theorem Shrunk.find_or_missing (h : Shrunk disk disk') (hfind : disk.find followLast path = .ok (place, entry)) :
    disk'.find followLast path = .ok (place, entry) ∨ disk'.find followLast path = .error .notFound := by
  obtain ⟨hcan, ends, hleads⟩ := find_iff_leads.mp hfind
  have hstart : disk'.start path = disk.start path := by rw [start, start, h.directory_eq]
  by_cases hholds : disk'.Holds (disk'.start path)
  · have hcan' : disk'.CanFollow path := ⟨hcan.ne_empty, hcan.noNull, hholds⟩
    unfold find
    rw [hcan'.locate_eq, hstart]
    rcases hleads.follow_left h.left with heq | ⟨location, heq, rfl | hnone⟩
    · exact Or.inr (by rw [heq])
    · exact Or.inl (by rw [heq])
    · exact Or.inr (by simp only [heq, hnone])
  · -- The path starts from a working directory that is gone.
    have hrelative : (Route.ofString path).isAbsolute ≠ true := by
      intro habs
      rw [start, if_pos habs] at hholds
      exact hholds (holds_root disk')
    rw [start, if_neg hrelative] at hholds
    refine Or.inr ?_
    unfold find locate
    rw [if_neg (by simpa using hcan.ne_empty), if_neg (by simpa using hcan.noNull), if_neg hrelative,
      if_neg (show ¬ (disk'.at? disk'.directory).any Entry.isDirectory = true from hholds)]

theorem shrunk_erase (disk : Disk) (place : Place) : Shrunk disk (disk.erase place) := by
  refine ⟨rfl, fun other => ?_⟩
  rw [at?_erase]
  split
  · exact Or.inr rfl
  · exact Or.inl rfl

theorem shrunk_eraseInside (disk : Disk) (place : Place) : Shrunk disk (disk.eraseInside place) := by
  refine ⟨rfl, fun other => ?_⟩
  rw [at?_eraseInside]
  split
  · exact Or.inr rfl
  · exact Or.inl rfl

/-- **A path leads to nothing once what it found is gone.** -/
theorem has_eq_false_of_gone (hfind : disk.find followLast path = .ok (place, entry))
    (h : Shrunk disk disk') (hgone : disk'.at? place = none) : disk'.has path = false := by
  obtain ⟨hcan, ends, hleads⟩ := find_iff_leads.mp hfind
  rw [Bool.eq_false_iff]
  intro hhas
  obtain ⟨place', entry', hfind'⟩ := has_iff.mp hhas
  obtain ⟨_, ends', hleads'⟩ := find_iff_leads.mp hfind'
  have hstart : disk'.start path = disk.start path := by rw [start, start, h.directory_eq]
  rw [hstart] at hleads'
  exact absurd (hleads.gone (by simp) hgone h.left hleads') (by simp)

/-! ## From directory to directory -/

theorem Sound.holds_dropLast (hsound : disk.Sound) (hholds : disk.Holds place) :
    disk.Holds place.dropLast := by
  rcases List.eq_nil_or_concat place with rfl | ⟨front, last, rfl⟩
  · exact holds_root disk
  · obtain ⟨entry, hat, _⟩ := holds_iff.mp hholds
    rw [List.concat_eq_append] at hat ⊢
    rw [List.dropLast_concat]
    exact hsound.outer hat

theorem Holds.linkStart (hholds : disk.Holds place) (target : String) :
    disk.Holds (linkStart place target) := by
  unfold Disk.linkStart
  split
  · exact holds_root disk
  · exact hholds

namespace Leads

variable {links : Nat} {steps : List Step} {ends : Bool}

/-- The front of a path leads to where names can be, if there is more of the path. -/
theorem front {front rest : List Step} (hsound : disk.Sound)
    (h : Leads disk.tree followLast links place (front ++ rest) ends location) (hrest : rest ≠ [])
    (hholds : disk.Holds place) (ends' : Bool) :
    ∃ location', Leads disk.tree true links place front ends' location' ∧
      disk.Holds location'.place := by
  generalize hall : front ++ rest = all at h
  induction h generalizing front ends' with
  | here => exact absurd hall (by simp [hrest])
  | @up links place more ends location _ ih =>
      cases front with
      | nil => exact ⟨_, here, hholds⟩
      | cons step front =>
          obtain ⟨rfl, hmore⟩ := List.cons.inj hall
          obtain ⟨location', h, hholds'⟩ := ih (hsound.holds_dropLast hholds) ends' hmore
          exact ⟨location', up h, hholds'⟩
  | missing | file | stop =>
      cases front with
      | nil => exact ⟨_, here, hholds⟩
      | cons step front => exact absurd hall (by simp [hrest])
  | @link links place s target more ends location hsize hat _ _ ih =>
      cases front with
      | nil => exact ⟨_, here, hholds⟩
      | cons step front =>
          obtain ⟨rfl, hmore⟩ := List.cons.inj hall
          have hbehind : (Route.ofString target).steps ++ front ++ rest =
              (Route.ofString target).steps ++ more := by
            simp [← hmore]
          obtain ⟨location', h, hholds'⟩ := ih (hholds.linkStart target)
            (ends' || front.isEmpty && (Route.ofString target).endsInDirectory) hbehind
          exact ⟨location', link hsize hat (Or.inl rfl) h, hholds'⟩
  | @inner links place s more ends entry location hsize hat hdir _ ih =>
      cases front with
      | nil => exact ⟨_, here, hholds⟩
      | cons step front =>
          obtain ⟨rfl, hmore⟩ := List.cons.inj hall
          obtain ⟨location', h, hholds'⟩ := ih (Holds.of_at? hat hdir) ends' hmore
          exact ⟨location', inner hsize hat hdir h, hholds'⟩

/-- What follows links at the end as well does not end at one. -/
theorem not_isLink (hsound : disk.Sound) (h : Leads disk.tree true links place steps ends location)
    (hholds : disk.Holds place) (target : String) : location.entry? ≠ some (.link target) := by
  generalize htree : disk.tree = tree at h
  have hat? : ∀ place, disk.at? place = tree.at? place := fun place => htree ▸ rfl
  induction h with
  | here =>
      obtain ⟨entry, hat, hdir⟩ := holds_iff.mp hholds
      rw [hat?] at hat
      intro hlink
      obtain rfl : entry = .link target := Option.some.inj (hat.symm.trans hlink)
      exact absurd hdir (by simp [Entry.isDirectory])
  | up _ ih => exact ih (hsound.holds_dropLast hholds)
  | missing | file => simp
  | stop _ hfollow => exact absurd hfollow (by simp)
  | link _ _ _ _ ih => exact ih (hholds.linkStart _)
  | inner _ hat hdir _ ih => exact ih (Holds.of_at? ((hat? _).trans hat) hdir)

/-- Where following steps finds nothing, something can be put. -/
theorem room (hsound : disk.Sound) (h : Leads disk.tree followLast links place steps ends location)
    (hnone : location.entry? = none) (hholds : disk.Holds place)
    (hsteps : ∀ s, .name s ∈ steps → IsName s ∧ '\x00' ∉ s.toList) :
    ∃ outer s, location.place = outer ++ [s] ∧ disk.Holds outer ∧ IsStorable s := by
  generalize htree : disk.tree = tree at h
  have hat? : ∀ place, disk.at? place = tree.at? place := fun place => htree ▸ rfl
  induction h with
  | here =>
      obtain ⟨entry, hat, _⟩ := holds_iff.mp hholds
      rw [hat?] at hat
      exact absurd (hnone.symm.trans hat) (by simp)
  | up _ ih =>
      exact ih hnone (hsound.holds_dropLast hholds) fun s hs => hsteps s (List.mem_cons_of_mem _ hs)
  | @missing links place s ends hsize _ =>
      obtain ⟨hname, hnull⟩ := hsteps s List.mem_cons_self
      exact ⟨place, s, rfl, hholds, ⟨hname, hsize, hnull⟩⟩
  | file | stop => exact absurd hnone (by simp)
  | link _ hat _ _ ih =>
      refine ih hnone (hholds.linkStart _) fun t ht => ?_
      rcases List.mem_append.mp ht with ht | ht
      · obtain ⟨hname, hchars⟩ := isName_of_mem_route ht
        have hnull := hsound.entry ((hat? _).trans hat)
        exact ⟨hname, fun hmem => hnull (hchars _ hmem)⟩
      · exact hsteps t (List.mem_cons_of_mem _ ht)
  | inner _ hat hdir _ ih =>
      exact ih hnone (Holds.of_at? ((hat? _).trans hat) hdir) fun s hs =>
        hsteps s (List.mem_cons_of_mem _ hs)

end Leads

/-! ## The paths of names -/

variable {names : Place}

theorem noNull_render_iff : '\x00' ∉ (Place.render names).toList ↔ ∀ s ∈ names,
    '\x00' ∉ s.toList := by
  rw [Place.toList_render]
  constructor
  · intro h s hs hmem
    exact h (List.mem_cons_of_mem _ (Text.mem_joinWith (List.mem_map_of_mem hs) hmem))
  · intro h hmem
    rcases List.mem_cons.mp hmem with hmem | hmem
    · exact absurd hmem (by decide)
    · obtain ⟨part, hpart, hchar⟩ := Text.exists_of_mem_joinWith (by decide) hmem
      obtain ⟨s, hs, rfl⟩ := List.mem_map.mp hpart
      exact h s hs hchar

/-- A path of some names is followed name by name from the root. -/
theorem find_spells_eq_ok (h : Spells path names) :
    disk.find followLast path = .ok (place, entry) ↔
      '\x00' ∉ path.toList ∧ ∃ ends, Leads disk.tree followLast maxLinks [] (names.map .name)
        (Route.ofString path).endsInDirectory ⟨place, some entry, ends⟩ := by
  have hstart : disk.start path = [] := if_pos h.isAbsolute
  rw [find_eq_ok]
  constructor
  · rintro ⟨ends, hlocate⟩
    obtain ⟨hcan, hleads⟩ := locate_eq_ok.mp hlocate
    rw [hstart, h.steps_eq] at hleads
    exact ⟨hcan.noNull, ends, hleads⟩
  · rintro ⟨hnull, ends, hleads⟩
    refine ⟨ends, locate_eq_ok.mpr ⟨⟨h.ne_empty, hnull, ?_⟩, ?_⟩⟩
    · rw [hstart]
      exact holds_root disk
    · rwa [hstart, h.steps_eq]

theorem find_names_eq_ok (hnames : ∀ s ∈ names, IsName s) :
    disk.find followLast (Place.render names) = .ok (place, entry) ↔
      (∀ s ∈ names, '\x00' ∉ s.toList) ∧ ∃ ends, Leads disk.tree followLast maxLinks []
        (names.map .name)
        names.isEmpty ⟨place, some entry, ends⟩ := by
  rw [find_spells_eq_ok (spells_render hnames), noNull_render_iff, Route.ofString_render hnames]

namespace Sound

/-- Where a path finds nothing but could, something can be put. -/
theorem room (hsound : disk.Sound) (h : disk.locate followLast path = .ok location)
    (hnone : location.entry? = none) :
    ∃ outer s, location.place = outer ++ [s] ∧ disk.Holds outer ∧ IsStorable s := by
  obtain ⟨hcan, hleads⟩ := locate_eq_ok.mp h
  refine hleads.room hsound hnone hcan.holds fun s hs => ?_
  obtain ⟨hname, hchars⟩ := isName_of_mem_route hs
  exact ⟨hname, fun hmem => hcan.noNull (hchars _ hmem)⟩

/-- What a path finds is no link, if links at the end are followed. -/
theorem not_isLink (hsound : disk.Sound) (h : disk.find true path = .ok (place, entry)) :
    entry.isLink = false := by
  obtain ⟨hcan, ends, hleads⟩ := find_iff_leads.mp h
  cases entry with
  | link target => exact absurd rfl (hleads.not_isLink hsound hcan.holds target)
  | file | directory | history => rfl

/-! ## Places as paths -/

theorem leads_names (hsound : disk.Sound) (place names : Place) {links : Nat} {ends : Bool}
    (hat : disk.at? (place ++ names) = some entry)
    (hlast : entry.isDirectory = true ∨ ends = false ∧ (entry.isLink = true → followLast = false)) :
    Leads disk.tree followLast links place (names.map .name) ends ⟨place ++ names,
      some entry, ends⟩ := by
  induction names generalizing place with
  | nil =>
      rw [List.append_nil] at hat ⊢
      exact hat ▸ Leads.here
  | cons s names ih =>
      have hstorable : IsStorable s := hsound.storable hat s (by simp)
      by_cases hnames : names = []
      · subst hnames
        rcases hlast with hdir | ⟨rfl, hlink⟩
        · exact Leads.inner hstorable.size_le hat hdir (hat ▸ Leads.here)
        · cases entry with
          | file => exact Leads.file hstorable.size_le hat
          | link => exact Leads.stop hstorable.size_le (hlink rfl) hat
          | directory | history =>
              exact Leads.inner hstorable.size_le hat rfl (hat ▸ Leads.here)
      · rw [← List.singleton_append, ← List.append_assoc] at hat ⊢
        obtain ⟨next, hnext, hdir⟩ := holds_iff.mp (hsound.outer_append hnames hat)
        exact Leads.inner hstorable.size_le hnext hdir (ih _ hat)

/-- **A place finds itself.** -/
theorem find_render (hsound : disk.Sound) (hat : disk.at? place = some entry)
    (hlast : entry.isLink = true → followLast = false) :
    disk.find followLast place.render = .ok (place, entry) := by
  refine (find_names_eq_ok (hsound.isName hat)).mpr
    ⟨fun s hs => (hsound.storable hat s hs).noNull, place.isEmpty, leads_names hsound [] place hat ?_⟩
  by_cases hplace : place = []
  · subst hplace
    rw [at?_root, Option.some.injEq] at hat
    exact Or.inl (hat ▸ rfl)
  · exact Or.inr ⟨by simpa using hplace, hlast⟩

end Sound

end Stencil.Files.Disk
