import Stencil.Proofs.Files.Walk

/-!
# Taking things away

Removing a file or a directory only ever takes something away (`Shrunk`), and only where its path leads
(`removeFile_left`, `removeDirectory_left`). Everything else is kept as it is.
-/

namespace Stencil.Files

open Disk

variable {disk new : Disk} {path : String} {place : Place} {entry : Entry}

namespace Disk

/-- A file or a link is taken away that the path finds, and nothing lies inside of it. -/
theorem removeFile_eq (h : disk.removeFile path = .ok new) :
    ∃ place entry, disk.find false path = .ok (place, entry) ∧ entry.isDirectory = false ∧
      new = disk.erase place := by
  unfold removeFile at h
  cases hfind : disk.find false path with
  | error fault => simp [hfind] at h
  | ok found =>
      obtain ⟨place, entry⟩ := found
      rw [hfind] at h
      simp only at h
      split at h
      · exact absurd h (by simp)
      · rename_i hdir
        exact ⟨place, entry, rfl, by simpa using hdir, (Except.ok.inj h).symm⟩

theorem shrunk_removeFile (h : disk.removeFile path = .ok new) : Shrunk disk new := by
  obtain ⟨place, _, _, _, rfl⟩ := removeFile_eq h
  exact shrunk_erase disk place

theorem Sound.removeFile (hsound : disk.Sound) (h : disk.removeFile path = .ok new) : new.Sound := by
  obtain ⟨place, _, _, _, rfl⟩ := removeFile_eq h
  exact hsound.erase place

/-- **All but the file that was taken away is left.** -/
theorem removeFile_left (hsound : disk.Sound) (h : disk.removeFile path = .ok new)
    (hat : disk.at? place = some entry)
    (hother : ∀ found, disk.find false path = .ok found → place ≠ found.1) :
      new.at? place = some entry := by
  obtain ⟨outer, taken, hfind, hfile, rfl⟩ := removeFile_eq h
  rw [at?_erase, if_neg, hat]
  exact fun hin => hother _ hfind (hsound.eq_of_isWithin (find_at? hfind) hfile hat hin.2)

/-! ## Directories -/

/-- A directory is emptied first. -/
theorem removeDirectory_of_directory (hfind : disk.find false path = .ok (place, entry))
    (hdir : entry.isDirectory = true) :
    disk.removeDirectory path = (disk.eraseInside place).removeEmptied path := by
  unfold removeDirectory
  cases entry with
  | directory | history => simp only [hfind]
  | file | link => exact absurd hdir (by simp [Entry.isDirectory])

/-- Without the slashes at its end a path to a directory finds the directory, or a link. -/
theorem exists_find_withoutEndSlashes (hfind : disk.find true path = .ok (place, entry))
    (hdir : entry.isDirectory = true) :
    ∃ there found, disk.find false (withoutEndSlashes path) = .ok (there, found) ∧
      (found.isDirectory = true → there = place) := by
  obtain ⟨hcan, ends, hleads⟩ := find_iff_leads.mp hfind
  obtain ⟨ends', hleads'⟩ := hleads.any_end rfl hdir (Route.ofString (withoutEndSlashes path)).endsInDirectory
  obtain ⟨⟨there, entry?, ends''⟩, hstop, hsome⟩ := hleads'.exists_stop (by simp)
  obtain ⟨found, rfl⟩ := Option.ne_none_iff_exists'.mp hsome
  refine ⟨there, found, find_iff_leads.mpr ⟨hcan.withoutEndSlashes, ends'', ?_⟩, fun hfound => ?_⟩
  · rwa [start_withoutEndSlashes, Route.steps_withoutEndSlashes]
  · refine hleads.place_unique (hstop.follow_last fun target htarget => ?_)
    rw [Option.some.injEq] at htarget
    exact absurd hfound (by simp [htarget, Entry.isDirectory])

variable {old : Disk}

/-- What is left of a disk has the emptied directory where it was, or the path leads there no more. -/
theorem find_emptied (hfind : old.find false path = .ok (place, entry)) (hdir : entry.isDirectory = true)
    (hshrunk : Shrunk old disk) :
    disk.find false (withoutEndSlashes path) = .error .notFound ∨
      ∃ there found, disk.find false (withoutEndSlashes path) = .ok (there, found) ∧
        (found.isDirectory = true → there = place) := by
  have hlink : entry.isLink = false := by
    cases entry <;> simp_all [Entry.isDirectory, Entry.isLink]
  obtain ⟨there, found, hthere, hplace⟩ := exists_find_withoutEndSlashes (find_follow_last hfind hlink) hdir
  exact (hshrunk.find_or_missing hthere).symm.imp_right fun hleft => ⟨there, found, hleft, hplace⟩

/-- **An emptied directory is taken away, or left.** It is left without a fault only if its path leads there no
more. -/
theorem removeEmptied_eq (hfind : old.find false path = .ok (place, entry)) (hdir : entry.isDirectory = true)
    (hshrunk : Shrunk old disk) :
    disk.removeEmptied path = (disk.erase place, .ok ()) ∨
      ∃ result, disk.removeEmptied path = (disk, result) ∧ result ≠ .error .notFound ∧
        (result = .ok () → disk.find false (withoutEndSlashes path) = .error .notFound) := by
  unfold removeEmptied
  rcases find_emptied hfind hdir hshrunk with heq | ⟨there, found, heq, hplace⟩
  · rw [heq]
    exact Or.inr ⟨_, rfl, by simp, fun _ => rfl⟩
  · rw [heq]
    dsimp only
    split
    · exact Or.inr ⟨_, rfl, by simp, by simp⟩
    · exact Or.inr ⟨_, rfl, by simp, by simp⟩
    · split
      · rename_i hfound
        exact Or.inl (by rw [hplace hfound])
      · exact Or.inr ⟨_, rfl, by simp, by simp⟩
    · exact Or.inr ⟨_, rfl, by simp, by simp⟩

/-- Only what a path that ends with a name finds is taken away. -/
theorem removeEmptied_done (h : (disk.removeEmptied path).2 = .ok ()) :
    disk.find false (withoutEndSlashes path) = .error .notFound ∨
      ∃ place entry, disk.find false (withoutEndSlashes path) = .ok (place, entry) ∧ entry.isDirectory = true ∧
        ∃ piece, lastPiece? path = some piece ∧ piece ≠ ['.'] ∧ piece ≠ ['.', '.'] := by
  unfold removeEmptied at h
  split at h
  · rename_i hfind
    exact Or.inl hfind
  · exact absurd h (by simp)
  · rename_i place entry hfind
    split at h
    · exact absurd h (by simp)
    · exact absurd h (by simp)
    · rename_i piece hdot hdots hpiece
      split at h
      · rename_i hdir
        exact Or.inr ⟨place, entry, hfind, hdir, piece, hpiece, hdot, hdots⟩
      · exact absurd h (by simp)
    · exact absurd h (by simp)

/-- What a path that ends with a name finds is not the root. -/
theorem find_ne_root {piece : List Char} (hsound : disk.Sound) (hpiece : lastPiece? path = some piece)
    (hdot : piece ≠ ['.']) (hdots : piece ≠ ['.', '.'])
    (hfind : disk.find false (withoutEndSlashes path) = .ok (place, entry)) : place ≠ [] := by
  obtain ⟨hcan, ends, hleads⟩ := find_iff_leads.mp hfind
  obtain ⟨front, hsteps⟩ := exists_steps_of_lastPiece? hpiece hdot hdots
  have hends : (Route.ofString (withoutEndSlashes path)).endsInDirectory = false := by
    rw [Bool.eq_false_iff]
    intro hends
    have hlast := lastPiece?_of_endsInDirectory hcan.ne_empty (getLast?_withoutEndSlashes (by simp [hsteps])) hends
    rw [hpiece, Option.some.injEq] at hlast
    exact hdot hlast
  rw [Route.steps_withoutEndSlashes, hsteps, hends] at hleads
  obtain ⟨location, hfront, hholds⟩ := hleads.front hsound (by simp) hcan.holds false
  obtain ⟨found, hat, -⟩ := holds_iff.mp hholds
  have hentry : location.entry? = some found := hfront.entry_eq.trans hat
  obtain ⟨_, _, hlast⟩ := hfront.rest (by simp [hentry]) (by simp) hleads
  have hplace := hlast.place_of_name
  simp only at hplace
  simp [hplace]


/-- Removing changes nothing, or takes away a link, or a directory or what is inside of it. -/
theorem removeDirectory_eq (disk : Disk) (path : String) :
    (disk.removeDirectory path).1 = disk ∨
      ∃ place entry, disk.find false path = .ok (place, entry) ∧
        (entry.isLink = true ∧ (disk.removeDirectory path).1 = disk.erase place ∨
          entry.isDirectory = true ∧ ((disk.removeDirectory path).1 = disk.eraseInside place ∨
            (disk.removeDirectory path).1 = (disk.eraseInside place).erase place)) := by
  cases hfind : disk.find false path with
  | error fault =>
      unfold removeDirectory
      rw [hfind]
      exact Or.inl rfl
  | ok found =>
      obtain ⟨place, entry⟩ := found
      by_cases hdir : entry.isDirectory = true
      · rw [removeDirectory_of_directory hfind hdir]
        refine Or.inr ⟨place, entry, rfl, Or.inr ⟨hdir, ?_⟩⟩
        rcases removeEmptied_eq hfind hdir (shrunk_eraseInside disk place) with heq | ⟨result, heq, -⟩ <;> rw [heq]
        · exact Or.inr rfl
        · exact Or.inl rfl
      · unfold removeDirectory
        rw [hfind]
        cases entry with
        | link target => exact Or.inr ⟨place, _, rfl, Or.inl ⟨rfl, rfl⟩⟩
        | file => exact Or.inl rfl
        | directory | history => exact absurd rfl hdir

theorem shrunk_removeDirectory (disk : Disk) (path : String) :
    Shrunk disk (disk.removeDirectory path).1 := by
  rcases removeDirectory_eq disk path with heq | ⟨place, _, _, ⟨_, heq⟩ | ⟨_, heq | heq⟩⟩ <;> rw [heq]
  · exact ⟨rfl, fun _ => Or.inl rfl⟩
  · exact shrunk_erase disk place
  · exact shrunk_eraseInside disk place
  · exact (shrunk_eraseInside disk place).trans (shrunk_erase _ place)

theorem Sound.removeDirectory (hsound : disk.Sound) (path : String) :
    (disk.removeDirectory path).1.Sound := by
  rcases removeDirectory_eq disk path with heq | ⟨place, _, _, ⟨_, heq⟩ | ⟨_, heq | heq⟩⟩ <;> rw [heq]
  · exact hsound
  · exact hsound.erase place
  · exact hsound.eraseInside place
  · exact (hsound.eraseInside place).erase place

/-- **A file is still there** after a directory was removed that it does not lie in. -/
theorem removeDirectory_left {content : ByteArray} {executable : Bool} (hsound : disk.Sound)
    (hat : disk.at? place = some (.file content executable))
    (hout : ∀ outer entry, disk.find false path = .ok (outer, entry) → entry.isDirectory = true →
      place.isWithin outer = false) :
    (disk.removeDirectory path).1.at? place = some (.file content executable) := by
  rcases removeDirectory_eq disk path with heq | ⟨outer, entry, hfind, hcases⟩
  · rw [heq, hat]
  · rcases hcases with ⟨hlink, heq⟩ | ⟨hdir, hcases⟩
    · have hfile : entry.isDirectory = false := by
        cases entry <;> simp_all [Entry.isLink, Entry.isDirectory]
      rw [heq, at?_erase, if_neg, hat]
      rintro ⟨_, hin⟩
      obtain rfl := hsound.eq_of_isWithin (find_at? hfind) hfile hat hin
      rw [find_at? hfind, Option.some.injEq] at hat
      exact absurd hlink (by simp [hat, Entry.isLink])
    · have hnot := hout outer entry hfind hdir
      have hnotInside : place.isInside outer = false := by simp [Place.isInside, hnot]
      rcases hcases with heq | heq
      · rw [heq, at?_eraseInside, if_neg (by simp [hnotInside]), hat]
      · rw [heq, at?_erase, if_neg (by simp [hnot]), at?_eraseInside,
          if_neg (by simp [hnotInside]), hat]

/-- Removing touches nothing but what lies where the path leads. -/
theorem removeDirectory_outside {outer : Place} (hfind : disk.find false path = .ok (outer, entry))
    (hout : place.isWithin outer = false) : (disk.removeDirectory path).1.at? place = disk.at? place := by
  have hnotInside : place.isInside outer = false := by simp [Place.isInside, hout]
  have hinside : (disk.eraseInside outer).at? place = disk.at? place := by
    rw [at?_eraseInside, if_neg (by simp [hnotInside])]
  rcases removeDirectory_eq disk path with heq | ⟨there, found, hthere, hcases⟩
  · rw [heq]
  · obtain ⟨rfl, rfl⟩ := Prod.mk.inj (Except.ok.inj (hfind.symm.trans hthere))
    rcases hcases with ⟨-, heq⟩ | ⟨-, heq | heq⟩ <;> rw [heq]
    · rw [at?_erase, if_neg (by simp [hout])]
    · exact hinside
    · rw [at?_erase, if_neg (by simp [hout]), hinside]

/-- Nothing is left inside of a directory that was removed. -/
theorem removeDirectory_inside {outer : Place} (hfind : disk.find false path = .ok (outer, entry))
    (hdir : entry.isDirectory = true) (hin : place.isInside outer = true) :
    (disk.removeDirectory path).1.at? place = none := by
  have hinside : (disk.eraseInside outer).at? place = none := by rw [at?_eraseInside, if_pos hin]
  rw [removeDirectory_of_directory hfind hdir]
  rcases removeEmptied_eq hfind hdir (shrunk_eraseInside disk outer) with heq | ⟨result, heq, -⟩ <;> rw [heq]
  · exact (shrunk_erase _ outer).at?_eq_none hinside
  · exact hinside

/-- A directory that is there is not missing when it is taken away. -/
theorem removeDirectory_ne_missing (hfind : disk.find false path = .ok (place, entry))
    (hdir : entry.isDirectory = true) : (disk.removeDirectory path).2 ≠ .error .notFound := by
  rw [removeDirectory_of_directory hfind hdir]
  rcases removeEmptied_eq hfind hdir (shrunk_eraseInside disk place) with heq | ⟨result, heq, hne, -⟩ <;> rw [heq]
  · simp
  · exact hne

/-- A directory can be taken away by a path that ends with a name. -/
theorem removeDirectory_done (hname : Path.EndsInName path) (hfind : disk.find false path = .ok (place, entry))
    (hdir : entry.isDirectory = true) : (disk.removeDirectory path).2 = .ok () := by
  obtain ⟨s, hlast, hdot, hdots⟩ := hname.last
  rw [removeDirectory_of_directory hfind hdir]
  unfold removeEmptied
  rw [hname.withoutEndSlashes_eq]
  rcases (shrunk_eraseInside disk place).find_or_missing hfind with heq | heq
  · rw [heq, hlast]
    dsimp only
    split
    · rename_i heq
      exact absurd (Option.some.inj heq) hdot
    · rename_i heq
      exact absurd (Option.some.inj heq) hdots
    · rw [if_pos hdir]
    · rename_i heq
      exact absurd heq (by simp)
  · rw [heq]

/-- Whether a directory that a path finds can be taken away by that path. -/
def Removes (disk : Disk) (path : String) : Prop :=
  ∀ place entry, disk.find false path = .ok (place, entry) → entry.isDirectory = true →
    (disk.removeDirectory path).2 = .ok ()

theorem removes_of_name (hname : Path.EndsInName path) : disk.Removes path :=
  fun _ _ hfind hdir => removeDirectory_done hname hfind hdir

/-- Where directories can be taken away, nothing is done if that fails: there is none. -/
theorem Removes.of_error {fault : Fault} (hremoves : disk.Removes path)
    (h : (disk.removeDirectory path).2 = .error fault) :
    (disk.removeDirectory path).1 = disk ∧
      ∀ place entry, disk.find false path = .ok (place, entry) → entry.isFile = true := by
  cases hfind : disk.find false path with
  | error reason =>
      refine ⟨?_, fun _ _ hthere => by cases hthere⟩
      unfold removeDirectory
      rw [hfind]
  | ok found =>
      obtain ⟨place, entry⟩ := found
      have hdone := hremoves place entry hfind
      unfold removeDirectory at h hdone ⊢
      rw [hfind] at h hdone ⊢
      cases entry with
      | link target => cases h
      | file content executable =>
          refine ⟨rfl, fun _ _ hthere => ?_⟩
          obtain ⟨-, rfl⟩ := Prod.mk.inj (Except.ok.inj hthere)
          rfl
      | directory | history =>
          rw [hdone rfl] at h
          cases h

/-- A directory is removed as a whole if it is not there any more. -/
theorem removeDirectory_whole (hfind : disk.find false path = .ok (place, entry))
    (hdir : entry.isDirectory = true) (hgone : (disk.removeDirectory path).1.at? place = none) :
    disk.removeDirectory path = ((disk.eraseInside place).erase place, .ok ()) := by
  rw [removeDirectory_of_directory hfind hdir] at hgone ⊢
  refine (removeEmptied_eq hfind hdir (shrunk_eraseInside disk place)).resolve_right ?_
  rintro ⟨result, heq, -⟩
  have hself : place.isInside place = false := by simp [Place.isInside]
  rw [heq, at?_eraseInside, if_neg (by simp [hself]), find_at? hfind] at hgone
  cases hgone

/-- **A directory is removed as a whole by a path that ends with a name**, if whatever would be left of it is found by
the path again. -/
theorem removeDirectory_of_name (hname : Path.EndsInName path) (hfind : disk.find false path = .ok (place, entry))
    (hdir : entry.isDirectory = true)
    (hleft : (disk.removeDirectory path).1.at? place = some entry →
      (disk.removeDirectory path).1.find false path = .ok (place, entry)) :
    disk.removeDirectory path = ((disk.eraseInside place).erase place, .ok ()) := by
  have hdone := removeDirectory_done hname hfind hdir
  rw [removeDirectory_of_directory hfind hdir] at hdone hleft ⊢
  refine (removeEmptied_eq hfind hdir (shrunk_eraseInside disk place)).resolve_right ?_
  rintro ⟨result, heq, -, hlost⟩
  rw [heq] at hdone hleft
  have hself : place.isInside place = false := by simp [Place.isInside]
  have hstill : (disk.eraseInside place).at? place = some entry := by
    rw [at?_eraseInside, if_neg (by simp [hself]), find_at? hfind]
  have hmissing := hlost hdone
  rw [hname.withoutEndSlashes_eq, hleft hstill] at hmissing
  cases hmissing

/-- **There is no entry at the end of a path after a directory was removed**, or turned out to be missing, by that
path. -/
theorem hasEntry_removeDirectory (hsound : disk.Sound) (hgone : (disk.removeDirectory path).2 = .ok () ∨
      (disk.removeDirectory path).2 = .error .notFound) : (disk.removeDirectory path).1.hasEntry path = false := by
  -- What is still found is where it was before, and nothing is there any more.
  have hlost : ∀ {left : Disk} {place entry}, disk.find false path = .ok (place, entry) → Shrunk disk left →
      left.at? place = none → left.hasEntry path = false := by
    intro left place entry hfind hshrunk hnone
    rw [Bool.eq_false_iff]
    intro hthere
    obtain ⟨there, found, hfound⟩ := hasEntry_iff.mp hthere
    obtain rfl := hshrunk.place_of_find hfind hfound
    rw [find_at? hfound] at hnone
    cases hnone
  cases hfind : disk.find false path with
  | error fault =>
      unfold removeDirectory
      rw [hfind]
      simp only [hasEntry, hfind]
      rfl
  | ok found =>
      obtain ⟨place, entry⟩ := found
      by_cases hdir : entry.isDirectory = true
      · have hshrunk := shrunk_eraseInside disk place
        have hmissed : ∀ {left : Disk}, Shrunk (disk.eraseInside place) left →
            (disk.eraseInside place).find false (withoutEndSlashes path) = .error .notFound →
            left.hasEntry path = false := by
          intro left hless hmissing
          rw [Bool.eq_false_iff]
          intro hthere
          obtain ⟨there, found, hfound⟩ := hasEntry_iff.mp hthere
          obtain ⟨before, -, hbefore⟩ := find_grow hless.grown hfound
          obtain rfl := hshrunk.place_of_find hfind hbefore
          obtain rfl : before = entry :=
            Option.some.inj ((hshrunk.at?_eq_some (find_at? hbefore)).symm.trans (find_at? hfind))
          obtain ⟨_, _, hstill, -⟩ := exists_find_withoutEndSlashes
            (find_follow_last hbefore (by cases before <;> simp_all [Entry.isDirectory, Entry.isLink])) hdir
          rw [hmissing] at hstill
          cases hstill
        rw [removeDirectory_of_directory hfind hdir] at hgone ⊢
        rcases removeEmptied_eq hfind hdir hshrunk with heq | ⟨result, heq, hne, hleft⟩
        · rw [heq]
          rcases removeEmptied_done (congrArg Prod.snd heq) with
            hmissing | ⟨there, found, hfound, hinner, piece, hpiece, hdot, hdots⟩
          · exact hmissed (shrunk_erase _ place) hmissing
          · have hroot := find_ne_root (hsound.eraseInside place) hpiece hdot hdots hfound
            obtain ⟨_, _, hthere, hplace⟩ := (find_emptied hfind hdir hshrunk).resolve_left (by simp [hfound])
            rw [hfound, Except.ok.injEq, Prod.mk.injEq] at hthere
            obtain ⟨rfl, rfl⟩ := hthere
            obtain rfl := hplace hinner
            exact hlost hfind (hshrunk.trans (shrunk_erase _ there))
              (at?_erase_within _ hroot (Place.isWithin_self there))
        · rw [heq] at hgone ⊢
          exact hmissed ⟨rfl, fun _ => Or.inl rfl⟩ (hleft (hgone.resolve_right hne))
      · unfold removeDirectory at hgone ⊢
        rw [hfind] at hgone ⊢
        cases entry with
        | link target =>
            have hroot : place ≠ [] := by
              rintro rfl
              exact absurd (find_at? hfind) (by simp)
            exact hlost hfind (shrunk_erase disk place) (at?_erase_within _ hroot (Place.isWithin_self place))
        | file => exact absurd hgone (by simp)
        | directory | history => exact absurd rfl hdir

/-- **A path leads nowhere after a directory was removed**, or turned out to be missing, by that path. -/
theorem has_removeDirectory (hsound : disk.Sound) (hgone : (disk.removeDirectory path).2 = .ok () ∨
      (disk.removeDirectory path).2 = .error .notFound) : (disk.removeDirectory path).1.has path = false := by
  rw [Bool.eq_false_iff]
  intro hhas
  have hthere := hasEntry_of_has hhas
  rw [hasEntry_removeDirectory hsound hgone] at hthere
  cases hthere

end Disk

end Stencil.Files
