import Stencil.Proofs.Files.Around
import Stencil.Proofs.Files.Free

/-!
# Directories apart from others

A directory into which another one is to be copied has to be made first, and has to be empty then; and making
it must not touch the other one (`IsApart`). A path that leads nowhere is good for that if it takes its steps
up first and does not lead into the other directory (`isApart_of_missing`): whatever is made for it lies on
the way to it. Steps up behind a missing directory could lead anywhere, and so could a directory be made in the
other one.
-/

namespace Stencil.Files.Disk

variable {disk : Disk} {target : String} {root room place : Place} {entry : Entry}

/-- **Whether a directory can be made apart from another one**: where its path leads then nothing was, and
nothing is in it; and the other one is left alone. -/
structure IsApart (disk : Disk) (target : String) (root room : Place) : Prop where
  made : (disk.makeDirectories target).2 = .ok ()
  canonical : (disk.makeDirectories target).1.canonical target = .ok room
  vacant : disk.IsVacant target
  spared : ∀ place, place.isWithin root = true →
    (disk.makeDirectories target).1.at? place = disk.at? place

namespace IsApart

theorem at?_room (h : disk.IsApart target root room) (hsound : disk.Sound) :
    (disk.makeDirectories target).1.at? room = some .directory := by
  obtain ⟨entry, hfind⟩ := canonical_eq_ok.mp h.canonical
  rw [find_at? hfind, directory_of_free hsound h.vacant.1 hfind]

/-- Nothing was at or in the directory before. -/
theorem missing (h : disk.IsApart target root room) (hsound : disk.Sound)
    (hin : place.isWithin room = true) : disk.at? place = none :=
  hsound.at?_within_eq_none (h.vacant.1 room h.canonical) hin

/-- Once it was made there is nothing in the directory. -/
theorem eq_room (h : disk.IsApart target root room) (hsound : disk.Sound)
    (hin : place.isWithin room = true) (hat : (disk.makeDirectories target).1.at? place = some entry) :
    place = room := by
  obtain ⟨names, rfl⟩ := Place.exists_of_isWithin hin
  by_cases hempty : names = []
  · rw [hempty, List.append_nil]
  · have hinside := (hsound.makeDirectories target).1.mem_inside.mpr ⟨hempty, hat⟩
    rw [h.vacant.2 room h.canonical] at hinside
    cases hinside

/-- **The directory that was made is reached by its path**, whatever comes to be in it. -/
theorem reaches (h : disk.IsApart target root room) (hsound : disk.Sound) :
    (disk.makeDirectories target).1.Reaches target room := by
  obtain ⟨entry, hfind⟩ := canonical_eq_ok.mp h.canonical
  rw [directory_of_free hsound h.vacant.1 hfind] at hfind
  refine .of_empty hfind fun place hin => ?_
  cases hat : (disk.makeDirectories target).1.at? place with
  | none => rfl
  | some there =>
      obtain ⟨hwithin, hne⟩ := Bool.and_eq_true_iff.mp hin
      exact absurd (h.eq_room hsound hwithin hat) (by simpa using hne)

/-- Whatever was there still is. -/
theorem kept (hsound : disk.Sound) (hat : disk.at? place = some entry) :
    (disk.makeDirectories target).1.at? place = some entry := by
  rcases (hsound.makeDirectories target).2.changed place with heq | ⟨made, _, hfresh, rfl, _⟩
  · exact heq.trans hat
  · rw [hat] at hfresh
    cases hfresh

/-- The directory does not lie in the other one. -/
theorem not_isWithin (h : disk.IsApart target root room) (hsound : disk.Sound) :
    room.isWithin root = false := by
  rw [Bool.eq_false_iff]
  intro hin
  have hat := (h.spared room hin).symm.trans (h.at?_room hsound)
  rw [h.missing hsound (Place.isWithin_self room)] at hat
  cases hat

/-- Nothing lies in both directories. -/
theorem not_isWithin_both (h : disk.IsApart target root room) (hsound : disk.Sound)
    (hroot : disk.at? root = some entry) (hin : place.isWithin root = true) :
    place.isWithin room = false := by
  rw [Bool.eq_false_iff]
  intro hroom
  rcases List.prefix_or_prefix_of_prefix (Place.isWithin_iff.mp hroom) (Place.isWithin_iff.mp hin) with
    hle | hle
  · rw [h.missing hsound (Place.isWithin_iff.mpr hle)] at hroot
    cases hroot
  · have hout := h.not_isWithin hsound
    rw [Place.isWithin_iff.mpr hle] at hout
    cases hout

end IsApart

/-- A path without steps up takes none behind a name. -/
theorem upFirst_of_names {path : String} (h : .up ∉ (Route.ofString path).steps) : UpFirst path := by
  intro front s rest hsteps hup
  rw [hsteps] at h
  exact h (List.mem_append_right _ (List.mem_cons_of_mem _ hup))

/-- **A path that leads nowhere is apart from a directory**, if it takes its steps up first, a directory can
be made for it, and that does not lie in the other one. -/
theorem isApart_of_missing (hsound : disk.Sound) (hmissing : disk.has target = false)
    (hup : UpFirst target) (hmade : (disk.makeDirectories target).2 = .ok ())
    (hroom : (disk.makeDirectories target).1.canonical target = .ok room)
    (hout : room.isWithin root = false) : disk.IsApart target root room := by
  refine ⟨hmade, hroom, isVacant_of_missing hsound hmissing (hup.canClimb disk), fun place hin => ?_⟩
  rcases (hsound.makeDirectories target).2.changed place with heq | ⟨entry, _, hfresh, hmade'⟩
  · exact heq
  · -- What was made in the other directory would have to lie around this one.
    obtain ⟨rfl, p, hp, hcanonical⟩ := hmade'
    have hnone : disk.at? place = none := by
      cases hat : disk.at? place with
      | none => rfl
      | some there =>
          rw [hat] at hfresh
          cases hfresh
    have hwithin := isWithin_of_around hsound (hup.canClimb disk) (holds_start_of_missing hmissing hroom) hnone
      (hsound.makeDirectories target).2 hroom hp hcanonical
    rw [Place.isWithin_trans hwithin hin] at hout
    cases hout

end Stencil.Files.Disk
