import Stencil.Proofs.Checkout
import Stencil.Proofs.Files.Free
import Stencil.Proofs.Work

/-!
# What is left of a repository that was fetched

A repository is fetched in two steps: a branch into a new directory (`fetchBranch`), then a tag in its
place (`checkOutTag`). If the first one fails nothing is where the path of the directory leads. The
second one fails if the repository does not have the tag, and then the directory stays.
-/

namespace Stencil.Repository

open Files Files.Disk

variable {repository : Repository} {destination : String} {world : World} {room : Place}
  {history : History}

/-- Fetches a branch, and tells where it is and what the repository remembers. -/
def fetchBranch (repository : Repository) (destination : String) : Work (Place × History) := do
  let room ← tryCatch (makeRoom destination) fun _ => Work.fail .repository
  let disk ← Work.disk
  match history? disk repository.url with
  | none => do
    Work.setDisk (disk.erase room)
    Work.fail .repository
  | some history =>
    match repository.checkedOut? history with
    | none => do
      Work.setDisk (disk.erase room)
      Work.fail .repository
    | some (branch, snapshot) => do
      let fetched : History :=
        { head := branch, branches := [(branch, snapshot)], tags := history.tags }
      Work.setDisk ((disk.putHistory room fetched).checkOut room snapshot)
      pure (room, history)

/-- Checks out the tag that is asked for, if one is. -/
def checkOutTag (repository : Repository) (room : Place) (history : History) : Work Unit :=
  match repository.tag? with
  | none => pure ()
  | some tag =>
    match Entries.get? tag history.tags with
    | none => Work.fail .repository
    | some snapshot => do Work.setDisk ((← Work.disk).checkOut room snapshot)

theorem cloneInto_eq (repository : Repository) (destination : String) :
    repository.cloneInto destination = (do
      let (room, history) ← repository.fetchBranch destination
      repository.checkOutTag room history) := by
  unfold cloneInto fetchBranch
  rw [bind_assoc]
  refine bind_congr fun room => ?_
  rw [bind_assoc]
  refine bind_congr fun disk => ?_
  cases history? disk repository.url with
  | none => rfl
  | some history =>
      simp only
      cases repository.checkedOut? history with
      | none => rfl
      | some found =>
          simp only [bind_assoc, pure_bind]
          rfl

/-! ## What is fetched can be checked out -/

/-- A history that is fetched from a sound disk is sound. -/
theorem history?_sound {disk : Disk} {url : String} (hsound : disk.Sound)
    (h : history? disk url = some history) :
    history.Sound := by
  have hat : ∀ place, disk.historyAt? place = some history → history.Sound := by
    intro place hplace
    unfold historyAt? at hplace
    split at hplace
    · rename_i found hfound
      obtain rfl : found = history := Option.some.inj hplace
      exact hsound.entry hfound
    · exact absurd hplace (by simp)
  unfold history? historyOf? at h
  obtain ⟨place, _, hof⟩ := Option.bind_eq_some_iff.mp h
  cases hstore : disk.historyAt? (place ++ [storeName, objectsName]) with
  | none =>
      rw [hstore] at hof
      exact hat _ hof
  | some found =>
      rw [hstore] at hof
      exact hat _ (hstore.trans hof)

theorem checkedOut?_sound {branch : String} {snapshot : Snapshot} (hhistory : history.Sound)
    (h : repository.checkedOut? history = some (branch, snapshot)) : snapshot.Sound := by
  obtain ⟨found, hfound, heq⟩ := Option.bind_eq_some_iff.mp h
  obtain ⟨rfl, rfl⟩ : _ = branch ∧ found = snapshot := by simpa using heq
  exact hhistory.branches _ (Entries.mem_of_get? hfound)

/-! ## Inside of the directory -/

/-- **Fetching a branch changes the directory that was made for it only inside**, or
takes it away again. -/
theorem fetchBranch_inside (repository : Repository) (hmade : ∀ room made,
      (makeRoom destination).on world = (.ok room, made) → made.disk.Sound ∧ made.disk.Holds room) :
    (repository.fetchBranch destination).Ends world
      (fun found after => found.2.Sound ∧ after.disk.Sound ∧ ∃ made,
        (makeRoom destination).on world = (.ok found.1, made) ∧
          SameAround found.1 made.disk after.disk)
      fun _ after => (∃ failure, (makeRoom destination).on world = (.error failure, after)) ∨
        ∃ room made, (makeRoom destination).on world = (.ok room, made) ∧
          after.disk = made.disk.erase room := by
  refine .bind
    (.tryCatch ((Work.Ends.self _ world).mono (fun room mid hroom => ?_) fun failure mid hfail => ?_))
  · obtain ⟨hsound, hholds⟩ := hmade room mid hroom
    refine .bind (.disk ?_)
    cases hhistory : history? mid.disk repository.url with
    | none => exact .bind (.setDisk (.fail (Or.inr ⟨room, mid, hroom, rfl⟩)))
    | some history =>
        have hpast := history?_sound hsound hhistory
        simp only
        cases hbranch : repository.checkedOut? history with
        | none => exact .bind (.setDisk (.fail (Or.inr ⟨room, mid, hroom, rfl⟩)))
        | some found =>
            obtain ⟨branch, snapshot⟩ := found
            have hsnapshot := checkedOut?_sound hpast hbranch
            have hnow : History.Sound { head := branch, branches := [(branch, snapshot)], tags :=
              history.tags } :=
              ⟨by simpa using hsnapshot, hpast.tags⟩
            obtain ⟨hput, hsame⟩ := hsound.putHistory hholds hnow
            obtain ⟨hnew, hsame'⟩ := hput.checkOut (hsame.holds hholds) hsnapshot
            exact .bind (.setDisk (.pure ⟨hpast, hnew, mid, hroom, hsame.trans hsame'⟩))
  · exact .fail (Or.inl ⟨failure, hfail⟩)

/-- Checking out a tag changes the directory only inside, and nothing if the repository lacks it. -/
theorem checkOutTag_inside (hsound : world.disk.Sound) (hholds : world.disk.Holds room)
    (hhistory : history.Sound) :
    (repository.checkOutTag room history).Ends world
      (fun _ after => after.disk.Sound ∧ SameAround room world.disk after.disk)
      fun _ after => after = world ∧ ∃ tag, repository.tag? = some tag ∧
        Entries.get? tag history.tags = none := by
  unfold checkOutTag
  cases htag : repository.tag? with
  | none => exact .pure ⟨hsound, SameAround.refl _ _⟩
  | some tag =>
      simp only
      cases hsnapshot : Entries.get? tag history.tags with
      | none => exact .fail ⟨rfl, tag, rfl, hsnapshot⟩
      | some snapshot =>
          refine .bind (.disk (.setDisk ?_))
          exact hsound.checkOut hholds (hhistory.tags _ (Entries.mem_of_get? hsnapshot))

/-- **What was fetched is as sound as what was there**, if nothing was there by the path
of the directory. -/
theorem cloneInto_sound (hsound : world.disk.Sound) (hmissing : world.disk.has destination = false) :
    (repository.cloneInto destination).Ends world (fun _ after => after.disk.Sound)
      fun _ _ => True := by
  have hmade : (makeRoom destination).Ends world (fun room made => made.disk.Sound ∧
    made.disk.Holds room)
      fun _ _ => True := by
    refine .bind (.attempt (fun disk hmade => ?_) fun _ _ _ => trivial)
    obtain rfl : (world.disk.makeDirectories destination).1 = disk := by rw [hmade]
    refine .ask (fun room hroom => ?_) fun _ _ => trivial
    exact ⟨(hsound.makeDirectories destination).1,
      holds_of_made hsound hmissing (congrArg Prod.snd hmade) hroom⟩
  have hinside := fetchBranch_inside repository fun room made hon => hmade.done_of_ok hon
  rw [cloneInto_eq]
  refine .bind (hinside.mono ?_ fun _ _ _ => trivial)
  rintro ⟨room, history⟩ mid ⟨hpast, hmid, made, hon, hsame⟩
  have hholds := hsame.holds (hmade.done_of_ok hon).2
  exact (checkOutTag_inside hmid hholds hpast).mono (fun _ _ hafter => hafter.1) fun _ _ _ => trivial

/-! ## Directories of their own -/

/-- Making the directory leads to an empty one, or to none. -/
theorem makeRoom_ends (hsound : world.disk.Sound) (hvacant : world.disk.IsVacant destination) :
    (makeRoom destination).Ends world
      (fun room after => after.disk.Sound ∧ after.disk.Reaches destination room ∧ room ≠ [])
      fun _ after => after.disk.has destination = false := by
  refine Work.Ends.bind (Work.Ends.attempt (fun disk hmade => ?_) fun disk fault hmade => ?_)
  · obtain rfl : (world.disk.makeDirectories destination).1 = disk := by rw [hmade]
    refine Work.Ends.ask (fun room hroom => ?_) fun fault hfault => has_eq_false_of_canonical hfault
    have hnew := (hsound.makeDirectories destination).1
    obtain ⟨entry, hfind⟩ := canonical_eq_ok.mp hroom
    obtain rfl := directory_of_free hsound hvacant.1 hfind
    refine ⟨hnew, .of_empty hfind fun place hin => ?_, ?_⟩
    · obtain ⟨names, hne, rfl⟩ := Place.isInside_iff.mp hin
      cases hat : (world.disk.makeDirectories destination).1.at? (room ++ names) with
      | none => rfl
      | some entry =>
          have hmem := hnew.mem_inside.mpr ⟨hne, hat⟩
          rw [hvacant.2 room hroom] at hmem
          exact absurd hmem (by simp)
    · rintro rfl
      exact absurd (hvacant.1 [] hroom) (by simp)
  · obtain rfl : (world.disk.makeDirectories destination).1 = disk := by rw [hmade]
    exact has_of_not_made hsound hvacant.1 (congrArg Prod.snd hmade)

/-- What is known of a directory into which a repository was fetched. -/
structure Fetched (destination : String) (room : Place) (disk : Disk) : Prop where
  sound : disk.Sound
  reaches : disk.Reaches destination room
  ne_root : room ≠ []

/-- **A branch is fetched, or nothing is where the directory was to be made.** -/
theorem fetchBranch_ends (hsound : world.disk.Sound) (hvacant : world.disk.IsVacant destination) :
    (repository.fetchBranch destination).Ends world
      (fun found after => Fetched destination found.1 after.disk ∧ found.2.Sound)
      fun _ after => after.disk.has destination = false := by
  have hmade := makeRoom_ends hsound hvacant
  have hinside := fetchBranch_inside repository fun room made hon =>
    ⟨(hmade.done_of_ok hon).1, (hmade.done_of_ok hon).2.1.holds⟩
  refine hinside.mono ?_ ?_
  · rintro ⟨room, history⟩ after ⟨hpast, hafter, made, hon, hsame⟩
    obtain ⟨_, hreach, hne⟩ := hmade.done_of_ok hon
    exact ⟨⟨hafter, hreach.of_same hsame, hne⟩, hpast⟩
  · rintro failure after (⟨failure', hon⟩ | ⟨room, made, hon, herased⟩)
    · exact hmade.failed_of_error hon
    · obtain ⟨_, hreach, hne⟩ := hmade.done_of_ok hon
      rw [herased]
      refine has_eq_false_of_gone hreach.find_eq (shrunk_erase made.disk room) ?_
      rw [at?_erase, if_pos ⟨hne, Place.isWithin_self room⟩]

/-- **A tag is checked out, or the repository lacks it** and the directory stays. -/
theorem checkOutTag_ends (hfetched : Fetched destination room world.disk) (hhistory : history.Sound) :
    (repository.checkOutTag room history).Ends world
      (fun _ after => Fetched destination room after.disk)
      fun _ after => after.disk.has destination = true ∧
        ∃ tag, repository.tag? = some tag ∧ Entries.get? tag history.tags = none := by
  refine (checkOutTag_inside hfetched.sound hfetched.reaches.holds hhistory).mono ?_ ?_
  · exact fun _ after h => ⟨h.1, hfetched.reaches.of_same h.2, hfetched.ne_root⟩
  · rintro _ after ⟨rfl, hlacks⟩
    exact ⟨hfetched.reaches.has, hlacks⟩

end Stencil.Repository
