import Stencil.Proofs.Files.Taking
import Stencil.Proofs.Files.Writing

/-!
# Changes inside a directory

What a program does inside of a directory of its own leaves everything around it alone (`SameAround`),
and the paths that lead to the directory go on leading there, whatever is inside. That is not true of
every path: one that steps into the directory and out again can be led astray by a link that is put
there. So the paths that are spoken of here find the directory even if nothing is inside (`Reaches`).
-/

namespace Stencil.Files.Disk

variable {old mid new disk : Disk} {room place : Place} {entry : Entry} {path : String}

/-- **Whether two disks are the same** up to what is inside of a place. -/
structure SameAround (room : Place) (old new : Disk) : Prop where
  directory_eq : new.directory = old.directory
  at?_eq : ∀ place, place.isInside room = false → new.at? place = old.at? place

namespace SameAround

theorem refl (disk : Disk) (room : Place) : SameAround room disk disk := ⟨rfl, fun _ _ => rfl⟩

theorem trans (h : SameAround room old mid) (h' : SameAround room mid new) :
    SameAround room old new :=
  ⟨h'.directory_eq.trans h.directory_eq, fun place hout =>
    (h'.at?_eq place hout).trans (h.at?_eq place hout)⟩

/-- The directory itself is not inside of it. -/
theorem holds (h : SameAround room old new) (hholds : old.Holds room) : new.Holds room := by
  have hself : room.isInside room = false := by simp [Place.isInside]
  rwa [Holds, h.at?_eq room hself]

theorem put (disk : Disk) (entry : Entry) (hin : place.isInside room = true) :
    SameAround room disk (disk.put place entry) := by
  refine ⟨rfl, fun other hout => disk.at?_put_of_ne entry ?_⟩
  rintro rfl
  exact absurd hin (by simp [hout])

theorem erase (disk : Disk) (hin : place.isInside room = true) :
    SameAround room disk (disk.erase place) := by
  refine ⟨rfl, fun other hout => ?_⟩
  rw [at?_erase, if_neg]
  rintro ⟨_, hwithin⟩
  obtain ⟨names, hne, rfl⟩ := Place.isInside_iff.mp hin
  obtain ⟨more, rfl⟩ := Place.exists_of_isWithin hwithin
  have hin' : Place.isInside (room ++ names ++ more) room = true :=
    Place.isInside_iff.mpr ⟨names ++ more, by simp [hne], by simp⟩
  rw [hin'] at hout
  exact absurd hout (by simp)

theorem eraseInside (disk : Disk) (room : Place) : SameAround room disk (disk.eraseInside room) := by
  refine ⟨rfl, fun other hout => ?_⟩
  rw [at?_eraseInside, if_neg (by simp [hout])]

/-- Without what is inside the two are the same. -/
theorem grown_eraseInside (h : SameAround room old new) : Grown (old.eraseInside room) (new.eraseInside room) := by
  refine ⟨h.directory_eq, fun place entry hat => ⟨entry, ?_, entry.alike_refl⟩⟩
  rw [at?_eraseInside] at hat ⊢
  split at hat
  · exact absurd hat (by simp)
  · rename_i hout
    rw [if_neg hout, h.at?_eq place (by simpa using hout)]
    exact hat

/-- Writing within a directory does not change the directory itself. -/
theorem of_writesOnly (h : WritesOnly (fun place _ => place.isWithin room = true) old new)
    (hholds : old.Holds room) : SameAround room old new := by
  refine ⟨h.directory_eq, fun place hout => ?_⟩
  rcases h.changed place with heq | ⟨entry, _, hfresh, hwithin⟩
  · exact heq
  · -- Within but not inside there is only the directory, and nothing is written over one.
    obtain ⟨names, rfl⟩ := Place.exists_of_isWithin hwithin
    by_cases hne : names = []
    · subst hne
      obtain ⟨found, hat, hdir⟩ := holds_iff.mp hholds
      rw [List.append_nil, hat] at hfresh
      cases hfresh with
      | again => exact absurd hdir (by simp [Entry.isDirectory])
    · rw [Place.isInside_append _ hne] at hout
      exact absurd hout (by simp)

end SameAround

/-! ## Finding the directory -/

/-- Whether a path finds a directory, and finds it as well if nothing is inside. -/
def Reaches (disk : Disk) (path : String) (room : Place) : Prop :=
  (disk.eraseInside room).find true path = .ok (room, .directory)

theorem find_directory_grow (h : Grown old new)
    (hfind : old.find true path = .ok (room, .directory)) :
    new.find true path = .ok (room, .directory) := by
  obtain ⟨grown, halike, hfind'⟩ := find_grow h hfind
  cases grown with
  | directory => exact hfind'
  | file | link | history => simp [Entry.Alike] at halike

namespace Reaches

theorem find_eq (h : disk.Reaches path room) : disk.find true path = .ok (room, .directory) :=
  find_directory_grow (shrunk_eraseInside disk room).grown h

theorem canonical_eq (h : disk.Reaches path room) : disk.canonical path = .ok room :=
  canonical_eq_ok.mpr ⟨.directory, h.find_eq⟩

theorem has (h : disk.Reaches path room) : disk.has path = true :=
    has_iff.mpr ⟨room, .directory, h.find_eq⟩

theorem holds (h : disk.Reaches path room) : disk.Holds room := Holds.of_at? (find_at? h.find_eq) rfl

/-- **A directory is found by its path**, whatever is changed inside. -/
theorem of_same (h : old.Reaches path room) (hsame : SameAround room old new) :
    new.Reaches path room :=
  find_directory_grow hsame.grown_eraseInside h

/-- A directory that has nothing inside. -/
theorem of_empty (hfind : disk.find true path = .ok (room, .directory))
    (hempty : ∀ place, place.isInside room = true → disk.at? place = none) :
      disk.Reaches path room := by
  have hgrown : Grown disk (disk.eraseInside room) := by
    refine ⟨rfl, fun place entry hat => ⟨entry, ?_, entry.alike_refl⟩⟩
    rw [at?_eraseInside, if_neg]
    · exact hat
    · intro hin
      rw [hempty place hin] at hat
      exact absurd hat (by simp)
  exact find_directory_grow hgrown hfind

end Reaches

/-! ## Taking the directory away -/

/-- **A directory that its path reaches is gone** once it was taken away, if that can be
done by the path. -/
theorem Reaches.has_removeDirectory (hsound : disk.Sound) (h : disk.Reaches path room)
    (hremove : ∀ place, disk.find false path = .ok (place, .directory) →
      (disk.removeDirectory path).2 = .ok ()) :
    (disk.removeDirectory path).1.has path = false := by
  refine Disk.has_removeDirectory hsound (Or.inl ?_)
  obtain ⟨place, entry, hfind⟩ := hasEntry_iff.mp (hasEntry_of_has h.has)
  by_cases hlink : entry.isLink = true
  · -- A link is taken away instead of the directory.
    cases entry with
    | file | directory | history => exact absurd hlink (by simp [Entry.isLink])
    | link target => simp [removeDirectory, hfind]
  · have htrue := find_follow_last hfind (by simpa using hlink)
    rw [h.find_eq, Except.ok.injEq, Prod.mk.injEq] at htrue
    obtain ⟨rfl, rfl⟩ := htrue
    exact hremove _ hfind

/-! ## Taking something out of the directory -/

/-- A name in a directory is found in it. -/
theorem find_join {s : String} (hfind : disk.find true path = .ok (room, .directory)) (hs : IsName s)
    (h : disk.find false (Path.join path s) = .ok (place, entry)) : place = room ++ [s] := by
  obtain ⟨hcan, ends, hfront⟩ := find_iff_leads.mp hfind
  obtain ⟨_, ends', hleads⟩ := find_iff_leads.mp h
  rw [start, Path.route_join hcan.ne_empty hs, ← start] at hleads
  obtain ⟨fewer, _, hlast⟩ := hfront.rest (by simp) (by simp) hleads
  exact hlast.place_of_name

/-- **A file that is named in a directory is taken out of it.** -/
theorem removeFile_inside {s : String} (hfind : disk.find true path = .ok (room, .directory))
    (hs : IsName s)
    (h : disk.removeFile (Path.join path s) = .ok new) : new = disk.erase (room ++ [s]) := by
  obtain ⟨place, entry, hfound, _, rfl⟩ := removeFile_eq h
  rw [find_join hfind hs hfound]

end Stencil.Files.Disk
