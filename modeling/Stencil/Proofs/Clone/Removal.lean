import Stencil.Proofs.Clone.Ending
import Stencil.Proofs.Fill.InPlace

/-!
# What a failed clone leaves

The directory of a clone is taken away again when the clone cannot be filled, and it is never there if
no branch could be fetched. Between the two lies the checkout of a tag. A tag that the repository does
not have is noticed when the branch was checked out already, and nobody takes the directory away then:
the next attempt finds it there. That is the one way to leave a directory behind (`Clone.run_failed`).

Up to the commands everything happens inside of the directory, so that its path goes on leading to it.
-/

namespace Stencil.Clone

open Files Files.Disk

variable {settings : Settings} {shell : Shell.Runner} {clone : Clone} {world : World} {room : Place}

/-! ## Inside of the directory -/

/-- Whatever is done inside of a directory that was fetched, it stays one. -/
theorem fetched_of_same {destination : String} {old new : Disk}
    (h : Repository.Fetched destination room old)
    (hsound : new.Sound) (hsame : SameAround room old new) :
      Repository.Fetched destination room new :=
  ⟨hsound, h.reaches.of_same hsame, h.ne_root⟩

/-- A fill in place stays inside of the directory. -/
theorem fillDirectory_fetched {destination : String} (patterns : List String) (vars : Variables)
    (h : Repository.Fetched destination room world.disk) :
    Repository.Fetched destination room
      ((fillDirectory destination patterns vars .inPlace).on world).2.disk := by
  obtain ⟨hnew, hwrites⟩ := Fill.fillDirectory_inPlace destination patterns vars h.sound
  have hwithin : WritesOnly (fun place _ => place.isWithin room = true) world.disk
      ((fillDirectory destination patterns vars .inPlace).on world).2.disk := by
    refine hwrites.mono fun place entry hmade => ?_
    obtain ⟨⟨root, hroot, hin⟩, _⟩ := hmade
    rw [h.reaches.canonical_eq, Except.ok.injEq] at hroot
    exact hroot ▸ hin
  exact fetched_of_same h hnew (.of_writesOnly hwithin h.reaches.holds)

/-- Pruning stays inside of the directory, too. -/
theorem prune_fetched {destination : String} {disk : Disk} {set : IgnoreSet} (mark : String)
    (h : Repository.Fetched destination room disk) (hbase : set.base = destination) :
    Repository.Fetched destination room (prune set mark disk).1 :=
  fetched_of_same h ((prune_left h.sound set mark).sound h.sound)
    (prune_sameAround h.sound set mark (hbase ▸ h.reaches.canonical_eq))

/-- **A fill does not lead the path astray**, whether it fails or not. -/
theorem fill_ends (hname : IsName settings.manifestFile) (given : Variables)
    (h : Repository.Fetched clone.destination room world.disk) :
    (clone.fill settings given).Ends world
      (fun _ after => Repository.Fetched clone.destination room after.disk)
      fun _ after => Repository.Fetched clone.destination room after.disk := by
  refine .bind ((readManifestText_ends settings _ world).mono ?_ fun _ after hafter => hafter ▸ h)
  rintro text mid rfl
  refine .bind (.change (fun disk hremove => ?_) fun _ _ => h)
  have hdisk := removeFile_inside h.reaches.find_eq hname hremove
  have hin : Place.isInside (room ++ [settings.manifestFile]) room = true :=
    Place.isInside_append _ (by simp)
  have hleft : Repository.Fetched clone.destination room disk :=
    hdisk ▸ fetched_of_same h (h.sound.erase _) (.erase _ hin)
  refine .bind (.ofExcept (fun manifest _ => ?_) fun _ _ => hleft)
  refine .bind (.ofExcept (fun vars _ => ?_) fun _ _ => hleft)
  have hfill := Work.Ends.of_after (fun after => Repository.Fetched clone.destination room after.disk)
    (@fillDirectory_fetched { mid with disk } _ _
      (manifest.ignorePatterns settings clone.ownPatterns) vars hleft)
  refine .bind (hfill.mono (fun _ filled hfilled => ?_) fun _ after hafter => hafter)
  refine .bind ((pruneDirectory_ends _ _ _ filled).mono ?_ ?_)
  · rintro _ after ⟨set, hset, heq⟩
    have hpruned := prune_fetched settings.internalMark hfilled (IgnoreSet.base_of_ofPatterns hset)
    rw [heq] at hpruned
    exact .pure hpruned
  · rintro _ after (rfl | ⟨set, hset, heq⟩)
    · exact hfilled
    · exact heq ▸ prune_fetched settings.internalMark hfilled (IgnoreSet.base_of_ofPatterns hset)

/-- A repository that was fetched is in a directory of its own. -/
theorem exists_fetched {destination : String} {repository : Repository} {fetched : World}
    (hsound : world.disk.Sound) (hvacant : world.disk.IsVacant destination)
    (h : (repository.cloneInto destination).on world = (.ok (), fetched)) :
    ∃ room, Repository.Fetched destination room fetched.disk := by
  have hends : (repository.cloneInto destination).Ends world
      (fun _ after => ∃ room, Repository.Fetched destination room after.disk) fun _ _ => True := by
    rw [Repository.cloneInto_eq]
    refine .bind ((Repository.fetchBranch_ends hsound hvacant).mono ?_ fun _ _ _ => trivial)
    rintro ⟨room, history⟩ mid ⟨hfetched, hpast⟩
    exact (Repository.checkOutTag_ends hfetched hpast).mono (fun _ _ hafter => ⟨room, hafter⟩)
      fun _ _ _ => trivial
  exact hends.done_of_ok h

/-! ## Tags -/

/-- Whether a repository can be fetched and does not have the tag that is asked for. -/
def LacksTag (clone : Clone) (world : World) : Prop :=
  ∃ given room history fetched tag, clone.Starts world given ∧
    (clone.repository.fetchBranch clone.destination).on world = (.ok (room, history), fetched) ∧
    clone.repository.tag? = some tag ∧ Entries.get? tag history.tags = none

/-- Without the tag nothing is fetched in the end. -/
theorem LacksTag.cloneInto_error (h : clone.LacksTag world) :
    ∃ after, (clone.repository.cloneInto clone.destination).on world =
      (.error .repository, after) := by
  obtain ⟨_, room, history, fetched, tag, _, hbranch, htag, hmissing⟩ := h
  refine ⟨fetched, ?_⟩
  rw [Repository.cloneInto_eq, Work.on_bind, hbranch]
  simp only [Repository.checkOutTag, htag, hmissing]
  rfl

/-! ## What is left -/

/-- What a clone leaves that fails, depending on why it fails. -/
def Leaves (settings : Settings) (shell : Shell.Runner) (clone : Clone) (world : World)
    (failure : Failure)
    (after : World) : Prop :=
  match failure with
  | .alreadyThere _ => world.disk.has clone.destination = true ∧ after = world
  -- The clone that was filled, with what the commands have made of it.
  | .hook _ _ => ∃ given fetched manifest filled, clone.Starts world given ∧
      (clone.repository.cloneInto clone.destination).on world = (.ok (), fetched) ∧
      (clone.fill settings given).on fetched = (.ok manifest, filled) ∧
      (runHooks shell clone.destination manifest.configuration.postCloneCommands).on filled =
        (.error failure, after)
  -- The variables are read before anybody looks whether the directory is there.
  | _ => if world.disk.has clone.destination then after = world
      else after.disk.has clone.destination = true ↔ clone.LacksTag world

theorem leaves_of_filling {failure : Failure} {after : World} (hkind : failure.IsOfFilling)
    (h : if world.disk.has clone.destination then after = world
      else after.disk.has clone.destination = true ↔ clone.LacksTag world) :
    clone.Leaves settings shell world failure after := by
  cases failure with
  | alreadyThere | hook => exact hkind.elim
  | _ => exact h

/-- A repository without tags. -/
def taglessDisk : Disk where
  tree := [(["o"], .directory), (["o", "objects"], .history
    { head := "main", branches := [("main", [(["a"], .file "x".toUTF8 false)])], tags := [] })]
  directory := []

/-- A clone of it that asks for a tag. -/
def tagClone : Clone where
  repository := { url := "/o", tag? := some "v2" }
  output? := some "c"
  variablesFrom := ""

end Stencil.Clone
