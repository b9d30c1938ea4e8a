import Stencil.Proofs.Files.Finding

/-!
# What writing does to a disk

Making directories and writing files never takes anything away: where something changes, a directory
or a file is new, or a file has another content (`Fresh`). `WritesOnly` says so of two disks, and says
besides in which places it may have happened, and with what.

Where an operation writes is told by what its paths find afterwards: `makeDirectories` makes only
directories that the path or one around it then finds (`Sound.makeDirectories`), `write` only the file
that its path then finds (`Sound.write`). That is the form in which the changes of one operation after
the other add up, because a path goes on finding the same place.
-/

namespace Stencil.Files

/-- Whether an entry may come in the place of what was there. -/
inductive Fresh : Option Entry → Entry → Prop where
  | directory : Fresh none .directory
  | file (content : ByteArray) (executable : Bool) : Fresh none (.file content executable)
  | again (content content' : ByteArray) (executable executable' : Bool) :
      Fresh (some (.file content executable)) (.file content' executable')

namespace Fresh

variable {old? : Option Entry} {entry entry' : Entry}

theorem alike (h : Fresh (some entry) entry') : entry.Alike entry' := by
  cases h with
  | again => trivial

theorem trans (h : Fresh old? entry) (h' : Fresh (some entry) entry') : Fresh old? entry' := by
  cases h' with
  | again =>
      cases h with
      | file => exact file _ _
      | again => exact again _ _ _ _

theorem not_link (h : Fresh old? entry) (target : String) : entry ≠ .link target := by
  cases h <;> simp

end Fresh

namespace Disk

/-- **Whether all that changed from one disk to another is that something was written**, and that only
where, and only what, there is room for. -/
structure WritesOnly (room : Place → Entry → Prop) (old new : Disk) : Prop where
  directory_eq : new.directory = old.directory
  changed : ∀ place, new.at? place = old.at? place ∨
    ∃ entry, new.at? place = some entry ∧ Fresh (old.at? place) entry ∧ room place entry

namespace WritesOnly

variable {room room' : Place → Entry → Prop} {old mid new : Disk}

theorem refl (disk : Disk) : WritesOnly room disk disk := ⟨rfl, fun _ => Or.inl rfl⟩

theorem mono (h : WritesOnly room old new) (hroom : ∀ place entry, room place entry →
    room' place entry) :
    WritesOnly room' old new := by
  refine ⟨h.directory_eq, fun place => ?_⟩
  rcases h.changed place with heq | ⟨entry, hat, hfresh, hin⟩
  · exact Or.inl heq
  · exact Or.inr ⟨entry, hat, hfresh, hroom place entry hin⟩

theorem trans (h : WritesOnly room old mid) (h' : WritesOnly room mid new) :
    WritesOnly room old new := by
  refine ⟨h'.directory_eq.trans h.directory_eq, fun place => ?_⟩
  rcases h'.changed place with heq' | ⟨entry', hat', hfresh', hin'⟩
  · rw [heq']
    exact h.changed place
  · refine Or.inr ⟨entry', hat', ?_, hin'⟩
    rcases h.changed place with heq | ⟨entry, hat, hfresh, _⟩
    · exact heq ▸ hfresh'
    · exact hfresh.trans (hat ▸ hfresh')

theorem grown (h : WritesOnly room old new) : Grown old new := by
  refine ⟨h.directory_eq, fun place entry hat => ?_⟩
  rcases h.changed place with heq | ⟨entry', hat', hfresh, _⟩
  · exact ⟨entry, heq ▸ hat, entry.alike_refl⟩
  · exact ⟨entry', hat', (hat ▸ hfresh).alike⟩

/-- One writing after another. -/
theorem trans_mono {wide : Place → Entry → Prop} (h : WritesOnly room old mid)
    (h' : WritesOnly room' mid new)
    (hroom : ∀ place entry, room place entry → wide place entry)
    (hroom' : ∀ place entry, room' place entry → wide place entry) : WritesOnly wide old new :=
  (h.mono hroom).trans (h'.mono hroom')

/-- Nothing that was written is a link. -/
theorem link_of_link (h : WritesOnly room old new) {place : Place} {target : String}
    (hat : new.at? place = some (.link target)) : old.at? place = some (.link target) := by
  rcases h.changed place with heq | ⟨entry, hat', hfresh, _⟩
  · exact heq ▸ hat
  · rw [hat, Option.some.injEq] at hat'
    exact absurd hat'.symm (hfresh.not_link target)

/-- Where there is no room nothing changes. -/
theorem at?_eq (h : WritesOnly room old new) {place : Place} (hroom : ∀ entry, ¬ room place entry) :
    new.at? place = old.at? place := by
  rcases h.changed place with heq | ⟨entry, _, _, hin⟩
  · exact heq
  · exact absurd hin (hroom entry)

theorem put {disk : Disk} {place : Place} {entry : Entry} (hne : place ≠ [])
    (hfresh : Fresh (disk.at? place) entry) (hroom : room place entry) :
    WritesOnly room disk (disk.put place entry) := by
  refine ⟨rfl, fun other => ?_⟩
  by_cases hother : other = place
  · subst hother
    exact Or.inr ⟨entry, disk.at?_put_self entry hne, hfresh, hroom⟩
  · exact Or.inl (disk.at?_put_of_ne entry hother)

end WritesOnly

theorem grown_put {disk : Disk} {place : Place} {entry : Entry} (hne : place ≠ [])
    (hfresh : Fresh (disk.at? place) entry) : Grown disk (disk.put place entry) :=
  have h : WritesOnly (fun _ _ => True) disk (disk.put place entry) := .put hne hfresh trivial
  h.grown

variable {disk new : Disk} {followLast : Bool} {path : String} {location : Location} {entry : Entry}

/-! ## One thing -/

/-- What was missing at the end of a path is found by the path once it is there. -/
theorem canonical_put (hsound : disk.Sound) {path' : String} (entry : Entry)
    (h : disk.locate followLast path = .ok location) (hnone : location.entry? = none)
    (hsteps : (Route.ofString path').steps = (Route.ofString path).steps)
    (hstart : disk.start path' = disk.start path) (hne : path' ≠ "") (hnull : '\x00' ∉ path'.toList)
    (hentry : entry.isDirectory = true ∨ entry.isFile = true ∧ location.endsInDirectory = false ∧
      (Route.ofString path').endsInDirectory = (Route.ofString path).endsInDirectory) :
    (disk.put location.place entry).canonical path' = .ok location.place := by
  obtain ⟨hcan, hleads⟩ := locate_eq_ok.mp h
  obtain ⟨outer, s, hplace, _, _⟩ := hsound.room h hnone
  have hstart' : (disk.put location.place entry).start path' = disk.start path := hstart
  have hholds : (disk.put location.place entry).Holds (disk.start path) := by
    obtain ⟨found, hfound, hdir⟩ := holds_iff.mp hcan.holds
    have hother : disk.start path ≠ location.place := by
      intro heq
      rw [heq, locate_at? h, hnone] at hfound
      exact absurd hfound (by simp)
    exact Holds.of_at? ((disk.at?_put_of_ne entry hother).trans hfound) hdir
  obtain ⟨ends, hleads'⟩ := hleads.put_missing hnone hentry
  refine canonical_eq_ok.mpr ⟨entry, find_iff_leads.mpr ⟨⟨hne, hnull, ?_⟩, ends, ?_⟩⟩
  · rwa [hstart']
  · rw [hstart', hsteps]
    exact hleads'

/-- Whether a path, or another one of some, now finds a directory at a place. -/
def Made (disk : Disk) (paths : List String) (place : Place) (entry : Entry) : Prop :=
  entry = .directory ∧ ∃ path ∈ paths, disk.canonical path = .ok place

/-- A directory is made where its path, without slashes at the end, leads to nothing. -/
theorem makeDirectory_inv (h : disk.makeDirectory path = .ok new) :
    ∃ location, disk.locate false (withoutEndSlashes path) = .ok location ∧
      location.entry? = none ∧ lastPiece? path ≠ some ['.'] ∧
      new = disk.put location.place .directory := by
  unfold Disk.makeDirectory at h
  cases hlocate : disk.locate false (withoutEndSlashes path) with
  | error fault => simp [hlocate] at h
  | ok location =>
      rw [hlocate] at h
      cases hentry : location.entry? with
      | some entry => simp [hentry] at h
      | none =>
          simp only [hentry] at h
          split at h
          · exact absurd h (by simp)
          · rename_i hdot
            exact ⟨location, rfl, hentry, hdot, (Except.ok.inj h).symm⟩

namespace Sound

/-- **A directory that was made** is put where nothing was, and its path finds it. -/
theorem makeDirectory_eq (hsound : disk.Sound) (h : disk.makeDirectory path = .ok new) :
    ∃ outer s, disk.at? (outer ++ [s]) = none ∧ disk.Holds outer ∧ IsStorable s ∧
      new = disk.put (outer ++ [s]) .directory ∧ new.canonical path = .ok (outer ++ [s]) := by
  obtain ⟨location, hlocate, hentry, _, rfl⟩ := makeDirectory_inv h
  obtain ⟨outer, s, hplace, hholds, hs⟩ := hsound.room hlocate hentry
  have hcan := (locate_eq_ok.mp hlocate).1
  -- The path itself can be followed, as it only has more slashes at its end.
  obtain ⟨slashes, hpath, hslashes, hempty⟩ := exists_withoutEndSlashes path
  have hne : path ≠ "" := by
    rintro rfl
    refine hcan.ne_empty (String.toList_inj.mp ?_)
    exact (List.append_eq_nil_iff.mp (hpath.symm.trans (by simp))).1
  have hnull : '\x00' ∉ path.toList := by
    rw [hpath]
    intro hmem
    rcases List.mem_append.mp hmem with hmem | hmem
    · exact hcan.noNull hmem
    · exact absurd (hslashes _ hmem) (by decide)
  have hcanonical := canonical_put hsound .directory hlocate hentry
    (Route.steps_withoutEndSlashes path).symm
    (by rw [start, start, Route.isAbsolute_withoutEndSlashes]) hne hnull (Or.inl rfl)
  have hnone := (locate_at? hlocate).trans hentry
  rw [hplace] at hcanonical hnone ⊢
  exact ⟨outer, s, hnone, hholds, hs, rfl, hcanonical⟩

/-- A directory that was made is what its path finds. -/
theorem makeDirectory (hsound : disk.Sound) (h : disk.makeDirectory path = .ok new) :
    new.Sound ∧ WritesOnly (new.Made [path]) disk new := by
  obtain ⟨outer, s, hnone, hholds, hs, rfl, hcanonical⟩ := hsound.makeDirectory_eq h
  refine ⟨hsound.put hholds hs trivial (Or.inl rfl), .put (by simp) (hnone ▸ Fresh.directory) ?_⟩
  exact ⟨rfl, path, by simp, hcanonical⟩

/-- A file that is put in the place of one is what the path still finds. -/
theorem put_again {content content' : ByteArray} {executable executable' : Bool} {place : Place}
    (hsound : disk.Sound) (hfind : disk.find true path = .ok (place, .file content executable)) :
    (disk.put place (.file content' executable')).Sound ∧
      WritesOnly (fun there entry => entry.isFile = true ∧
        (disk.put place (.file content' executable')).canonical path = .ok there)
        disk (disk.put place (.file content' executable')) := by
  have hat := find_at? hfind
  have hne : place ≠ [] := by
    rintro rfl
    exact absurd hat (by simp)
  have hfresh : Fresh (disk.at? place) (.file content' executable') := hat ▸ Fresh.again _ _ _ _
  have hcanonical := canonical_grow (grown_put hne hfresh) (canonical_eq_ok.mpr ⟨_, hfind⟩)
  exact ⟨hsound.put_file hat, .put hne hfresh ⟨rfl, hcanonical⟩⟩

/-- A file that was written is what its path finds. -/
theorem write {content : ByteArray} (hsound : disk.Sound) (h : disk.write path content = .ok new) :
    new.Sound ∧
      WritesOnly (fun place entry => entry.isFile = true ∧ new.canonical path = .ok place)
        disk new := by
  unfold Disk.write at h
  cases hlocate : disk.locate true path with
  | error fault => simp [hlocate] at h
  | ok location =>
      rw [hlocate] at h
      have hat := locate_at? hlocate
      obtain ⟨place, entry?, ends⟩ := location
      cases entry? with
      | none =>
          simp only at h
          split at h
          · exact absurd h (by simp)
          · rename_i hends
            rw [Except.ok.injEq] at h
            subst h
            obtain ⟨outer, s, rfl, hholds, hs⟩ := hsound.room hlocate rfl
            have hcan := (locate_eq_ok.mp hlocate).1
            have hcanonical := canonical_put hsound (.file content false) hlocate rfl rfl rfl
              hcan.ne_empty hcan.noNull (Or.inr ⟨rfl, by simpa using hends, rfl⟩)
            simp only at hat hholds hcanonical
            have hnot : ¬ disk.Holds (outer ++ [s]) := by simp [Holds, hat]
            have hfresh : Fresh (disk.at? (outer ++ [s])) (.file content false) :=
              hat ▸ Fresh.file content false
            exact ⟨hsound.put hholds hs trivial (Or.inr hnot), .put (by simp) hfresh ⟨rfl, hcanonical⟩⟩
      | some entry =>
          cases entry with
          | directory | link | history => simp at h
          | file old executable =>
              simp only [Except.ok.injEq] at h
              subst h
              exact hsound.put_again (find_eq_ok.mpr ⟨ends, hlocate⟩)

/-- Only the file that the path finds is made executable or not. -/
theorem setExecutable {executable : Bool} (hsound : disk.Sound)
    (h : disk.setExecutable path executable = .ok new) :
    new.Sound ∧
      WritesOnly (fun place entry => entry.isFile = true ∧ new.canonical path = .ok place)
        disk new := by
  unfold Disk.setExecutable at h
  cases hfind : disk.find true path with
  | error fault => simp [hfind] at h
  | ok found =>
      obtain ⟨place, entry⟩ := found
      rw [hfind] at h
      cases entry with
      | directory | link | history =>
          simp only [Except.ok.injEq] at h
          exact h ▸ ⟨hsound, WritesOnly.refl disk⟩
      | file content old =>
          simp only [Except.ok.injEq] at h
          subst h
          exact hsound.put_again hfind

end Sound

/-! ## Directories around something -/

theorem Made.mono {paths paths' : List String} {place : Place} (h : disk.Made paths place entry)
    (hgrown : Grown disk new) (hpaths : ∀ path ∈ paths, path ∈ paths') :
      new.Made paths' place entry := by
  obtain ⟨hentry, path, hpath, hcanonical⟩ := h
  exact ⟨hentry, path, hpaths path hpath, canonical_grow hgrown hcanonical⟩

namespace Sound

theorem makeAll (hsound : disk.Sound) (paths : List String) :
    (disk.makeAll paths).1.Sound ∧
      WritesOnly ((disk.makeAll paths).1.Made paths) disk (disk.makeAll paths).1 := by
  induction paths with
  | nil => exact ⟨hsound, WritesOnly.refl disk⟩
  | cons path outer ih =>
      obtain ⟨hsound', hwrites'⟩ := ih
      unfold Disk.makeAll
      split
      · rename_i new hmake
        obtain ⟨hnew, hwrites⟩ := hsound.makeDirectory hmake
        exact ⟨hnew, hwrites.mono fun _ _ hmade => hmade.mono (Grown.refl new) (by simp)⟩
      · split
        · rename_i mid fault hmid
          rw [hmid] at hsound' hwrites'
          exact ⟨hsound', hwrites'.mono fun _ _ hmade =>
            hmade.mono (Grown.refl mid) fun _ hpath => List.mem_cons_of_mem _ hpath⟩
        · rename_i mid hmid
          rw [hmid] at hsound' hwrites'
          have hsame : WritesOnly (mid.Made (path :: outer)) disk mid :=
            hwrites'.mono fun _ _ hmade =>
            hmade.mono (Grown.refl mid) fun _ hpath => List.mem_cons_of_mem _ hpath
          split
          · rename_i new hmake
            obtain ⟨hnew, hwrites⟩ := hsound'.makeDirectory hmake
            refine ⟨hnew,
              (hsame.mono fun _ _ hmade => hmade.mono hwrites.grown fun _ h => h).trans ?_⟩
            exact hwrites.mono fun _ _ hmade => hmade.mono (Grown.refl new) (by simp)
          · exact ⟨hsound', hsame⟩
      · exact ⟨hsound, WritesOnly.refl disk⟩

/-- **Only directories are made**, those that the path and the paths around it then find. -/
theorem makeDirectories (hsound : disk.Sound) (path : String) :
    (disk.makeDirectories path).1.Sound ∧
      WritesOnly
        ((disk.makeDirectories path).1.Made (path :: (Path.ofString path).outer.map Path.render))
        disk (disk.makeDirectories path).1 := by
  unfold Disk.makeDirectories
  simp only
  split
  · exact ⟨hsound, WritesOnly.refl disk⟩
  · obtain ⟨hnew, hwrites⟩ := hsound.makeAll
      (path :: ((Path.ofString path).outer.map Path.render).filter fun p => !p.isEmpty && p ≠ "/")
    refine ⟨hnew, hwrites.mono fun _ _ hmade => hmade.mono (Grown.refl _) fun p hp => ?_⟩
    rcases List.mem_cons.mp hp with rfl | hp
    · exact List.mem_cons_self
    · exact List.mem_cons_of_mem _ (List.mem_filter.mp hp).1

end Sound

/-- Whether a file was written that a path now finds, or a directory was made around it. -/
def MadeFor (disk : Disk) (path : String) (place : Place) (entry : Entry) : Prop :=
  (entry.isFile = true ∧ disk.canonical path = .ok place) ∨
    disk.Made ((Path.ofString path).outer.map Path.render) place entry

theorem MadeFor.mono {place : Place} (h : disk.MadeFor path place entry) (hgrown : Grown disk new) :
    new.MadeFor path place entry := by
  rcases h with ⟨hfile, hcanonical⟩ | hmade
  · exact Or.inl ⟨hfile, canonical_grow hgrown hcanonical⟩
  · exact Or.inr (hmade.mono hgrown fun _ h => h)

end Disk

namespace Place

/-- The paths around that of some names are those of the names at its front. -/
theorem outer_eq (names : Place) :
    Path.outer (.root :: names.map Part.name) =
      (List.range names.length).reverse.map fun n => .root :: (names.take n).map Part.name := by
  rw [Path.outer, List.length_cons, List.length_map, List.range_succ_eq_map, List.reverse_cons,
    List.map_append, List.filter_append, ← List.map_reverse, List.map_map]
  rw [List.filter_eq_self.mpr, List.filter_eq_nil_iff.mpr, List.append_nil]
  · simp [List.map_take]
  · simp [Path.isAbsolute]
  · intro path hpath
    obtain ⟨n, _, rfl⟩ := List.mem_map.mp hpath
    simp

theorem mem_outer_iff {names : Place} {path : Path} :
    path ∈ Path.outer (.root :: names.map Part.name) ↔
      ∃ n < names.length, path = .root :: (names.take n).map Part.name := by
  rw [outer_eq]
  simp [eq_comm]

/-- What is around a path around some names is around the names. -/
theorem mem_outer_of_mem_outer {names : Place} {path inner : Path}
    (h : inner ∈ Path.outer (.root :: names.map Part.name)) (h' : path ∈ inner.outer) :
    path ∈ Path.outer (.root :: names.map Part.name) := by
  obtain ⟨n, hn, rfl⟩ := mem_outer_iff.mp h
  obtain ⟨m, hm, rfl⟩ := mem_outer_iff.mp h'
  rw [List.length_take] at hm
  refine mem_outer_iff.mpr ⟨m, by omega, ?_⟩
  rw [List.take_take, Nat.min_eq_left (by omega)]

end Place

namespace Disk

variable {disk : Disk} {path : String} {names : Place}

namespace Sound

theorem write_behind {mid new : Disk} {content : ByteArray} (hsound : mid.Sound)
    (hwrites : WritesOnly (mid.MadeFor path) disk mid) (hwrite : mid.write path content = .ok new) :
    new.Sound ∧ WritesOnly (new.MadeFor path) disk new := by
  obtain ⟨hnew, hwrites'⟩ := hsound.write hwrite
  exact ⟨hnew, hwrites.trans_mono hwrites' (fun _ _ h => h.mono hwrites'.grown) fun _ _ h => Or.inl h⟩

/-- Directories around a path are made for it. -/
theorem makeDirectories_outer (hsound : disk.Sound) (hpath : Spells path names) {outer : Path}
    (houter : outer ∈ (Path.ofString path).outer) :
    (disk.makeDirectories outer.render).1.Sound ∧
      WritesOnly ((disk.makeDirectories outer.render).1.MadeFor path) disk
        (disk.makeDirectories outer.render).1 := by
  obtain ⟨hnew, hwrites⟩ := hsound.makeDirectories outer.render
  refine ⟨hnew, hwrites.mono fun place entry hmade =>
    Or.inr (hmade.mono (Grown.refl _) fun p hp => ?_)⟩
  rcases List.mem_cons.mp hp with rfl | hp
  · exact List.mem_map_of_mem houter
  · obtain ⟨around, haround, rfl⟩ := List.mem_map.mp hp
    rw [hpath.parts_eq] at houter ⊢
    refine List.mem_map_of_mem (Place.mem_outer_of_mem_outer houter ?_)
    obtain ⟨n, _, rfl⟩ := Place.mem_outer_iff.mp houter
    rwa [Path.render_place, Path.ofString_render fun s hs =>
      hpath.isName s (List.mem_of_mem_take hs)] at haround

/-- **A file is written, and directories are made around it.** -/
theorem writeInside (hsound : disk.Sound) (hpath : Spells path names) (content : ByteArray) :
    (disk.writeInside path content).1.Sound ∧
      WritesOnly ((disk.writeInside path content).1.MadeFor path) disk
        (disk.writeInside path content).1 := by
  unfold Disk.writeInside
  cases hparent : (Path.ofString path).parent? with
  | none =>
      simp only
      cases hwrite : disk.write path content with
      | error fault => exact ⟨hsound, WritesOnly.refl disk⟩
      | ok new => exact write_behind hsound (WritesOnly.refl disk) hwrite
  | some parent =>
      obtain ⟨hmid, hwrites⟩ := hsound.makeDirectories_outer hpath (List.mem_of_head? hparent)
      simp only
      cases hmade : disk.makeDirectories parent.render with
      | mk mid made =>
          rw [hmade] at hmid hwrites
          cases made with
          | error fault => exact ⟨hmid, hwrites⟩
          | ok =>
              simp only
              cases hwrite : mid.write path content with
              | error fault => exact ⟨hmid, hwrites⟩
              | ok new => exact write_behind hmid hwrites hwrite

end Sound

end Disk

end Stencil.Files
