import Stencil.Clone
import Stencil.Proofs.Clearing
import Stencil.Proofs.Fetch
import Stencil.Proofs.Fill.Parts
import Stencil.Proofs.Sources

/-!
# The ways in which a clone ends

A clone goes through several stages, and each of them can be the last one. What the stages before have
done is known then, and whether something was taken away again. Everything on what is left of a clone
starts from here (`Clone.run_fails`).

Each part of the program fails in ways of its own. Two ways belong to whole clones: that the directory was there
already, and that a command of the template failed. Nothing on the way to the commands fails like that, and the commands
fail in no other way.
-/

namespace Stencil

open Files

/-! ## Which failures there are -/

/-- Whether it is no command that has failed, and no directory that was there already. -/
def Failure.IsOfFilling : Failure → Prop
  | .alreadyThere _ => False
  | .hook _ _ => False
  | _ => True

/-- Whether a command has failed. -/
def Failure.IsOfHook : Failure → Prop
  | .hook _ _ => True
  | _ => False

theorem loadVariables_failsWith (source : String) :
    (loadVariables source).FailsWith Failure.IsOfFilling := by
  unfold loadVariables
  cases inlineVariables? source with
  | some vars => exact .pure
  | none =>
      refine .bind .disk fun disk => ?_
      by_cases hmissing : (Text.isAllBlank source || !disk.hasFile source) = true
      · rw [if_pos hmissing]
        exact .pure
      · rw [if_neg hmissing]
        unfold readVariablesFile
        split
        · exact .bind (.ask fun _ => trivial) fun _ => .ofExcept fun _ => trivial
        · exact .bind (.ask fun _ => trivial) fun _ => .ofExcept fun _ => trivial
        · exact .bind (.fail trivial) fun _ => .bind (.ask fun _ => trivial) fun _ =>
            .ofExcept fun _ => trivial

theorem fetchBranch_failsWith (repository : Repository) (destination : String) :
    (repository.fetchBranch destination).FailsWith Failure.IsOfFilling := by
  have hroom : (Repository.makeRoom destination).FailsWith Failure.IsOfFilling :=
    .bind (.attempt fun _ => trivial) fun _ => .ask fun _ => trivial
  refine .bind (.tryCatch hroom fun _ => .fail trivial) fun room => .bind .disk fun disk => ?_
  cases Repository.history? disk repository.url with
  | none => exact .bind .setDisk fun _ => .fail trivial
  | some history =>
      simp only
      cases repository.checkedOut? history with
      | none => exact .bind .setDisk fun _ => .fail trivial
      | some found => exact .bind .setDisk fun _ => .pure

theorem checkOutTag_failsWith (repository : Repository) (room : Place) (history : History) :
    (repository.checkOutTag room history).FailsWith Failure.IsOfFilling := by
  unfold Repository.checkOutTag
  cases repository.tag? with
  | none => exact .pure
  | some tag =>
      simp only
      cases Entries.get? tag history.tags with
      | none => exact .fail trivial
      | some snapshot => exact .bind .disk fun _ => .setDisk

theorem cloneInto_failsWith (repository : Repository) (destination : String) :
    (repository.cloneInto destination).FailsWith Failure.IsOfFilling := by
  rw [Repository.cloneInto_eq]
  exact .bind (fetchBranch_failsWith _ _) fun _ => checkOutTag_failsWith _ _ _

namespace Fill

variable {fill : Fill} {progress : Progress}

theorem renderFile_failsWith (name text : String) (scope : Template.Scope) :
    (fill.renderFile progress name text scope).FailsWith Failure.IsOfFilling := by
  refine .bind .disk fun disk => ?_
  simp only
  generalize Site.render _ name text fill.context _ = outcome
  obtain ⟨ending, bench⟩ := outcome
  refine .bind .setDisk fun _ => ?_
  cases ending with
  | done => exact .pure
  | failed | outside | exhausted => exact .fail trivial

theorem writeLike_failsWith (file destination : String) (content : ByteArray) :
    (writeLike file destination content).FailsWith Failure.IsOfFilling :=
  .bind (.attempt fun _ => trivial) fun _ => .bind (.ask fun _ => trivial) fun _ =>
    .change fun _ => trivial

theorem fillText_failsWith (file relative name text : String) :
    (fill.fillText progress file relative name text).FailsWith Failure.IsOfFilling := by
  unfold fillText
  cases fill.route with
  | inPlace => exact .bind (renderFile_failsWith _ _ _) fun _ => .pure
  | mirror target =>
      exact .bind (renderFile_failsWith _ _ _) fun _ =>
        .bind (writeLike_failsWith _ _ _) fun _ => .pure
  | terminal =>
      by_cases hasks : asksForFiles text = true
      · simp only [hasks, if_true]
        refine .bind (.fail trivial) fun _ => ?_
        exact .bind (renderFile_failsWith _ _ _) fun _ => .bind .print fun _ => .pure
      · simp only [hasks]
        exact .bind (renderFile_failsWith _ _ _) fun _ => .bind .print fun _ => .pure

theorem fillVisit_failsWith (progress : Progress) (visit : Visit) :
    (fill.fillVisit progress visit).FailsWith Failure.IsOfFilling := by
  refine .bind (.ask fun _ => trivial) fun content => ?_
  cases String.fromUTF8? content with
  | some text => exact fillText_failsWith _ _ _ _
  | none =>
      refine .bind ?_ fun _ => .pure
      unfold passBinary
      cases fill.route with
      | inPlace => exact .pure
      | mirror target => exact writeLike_failsWith _ _ _
      | terminal => exact .print

theorem prepare_failsWith (given : String) (patterns : List String) (vars : Variables) (mode : Mode) :
    (prepare given patterns vars mode).FailsWith Failure.IsOfFilling := by
  have hroute : (routeOf mode).FailsWith Failure.IsOfFilling := by
    cases mode with
    | inPlace | terminal => exact .pure
    | mirror target =>
        exact .bind (.attempt fun _ => trivial) fun _ => .bind (.ask fun _ => trivial) fun _ => .pure
  refine .bind (.ask fun _ => trivial) fun _ => .bind (.ofExcept fun _ => trivial) fun _ => ?_
  exact .bind hroute fun _ => .bind .disk fun _ => .bind (.ofExcept fun _ => trivial) fun _ => .pure

theorem writeBack_failsWith (items : List (String × String)) :
    (writeBack items).FailsWith Failure.IsOfFilling := by
  induction items with
  | nil => exact .pure
  | cons item rest ih => exact .bind (.change fun _ => trivial) fun _ => ih

theorem fillDirectory_failsWith (given : String) (patterns : List String) (vars : Variables)
    (mode : Mode) :
    (fillDirectory given patterns vars mode).FailsWith Failure.IsOfFilling := by
  rw [fillDirectory_eq]
  refine .bind (prepare_failsWith _ _ _ _) fun _ =>
    .bind (.foldlM fun progress visit => ?_) fun _ => ?_
  · exact fillVisit_failsWith progress visit
  · exact writeBack_failsWith _

end Fill

theorem readManifestText_failsWith (settings : Settings) (directory : String) :
    (readManifestText settings directory).FailsWith Failure.IsOfFilling := by
  refine .bind .disk fun disk => ?_
  cases disk.readText (Path.join directory settings.manifestFile) with
  | ok text => exact .pure
  | error fault => cases fault <;> exact .fail trivial

/-- **Filling a clone fails in ways of its own.** -/
theorem Clone.fill_failsWith (settings : Settings) (clone : Clone) (given : Variables) :
    (clone.fill settings given).FailsWith Failure.IsOfFilling := by
  refine .bind (readManifestText_failsWith _ _) fun text =>
    .bind (.change fun _ => trivial) fun _ => ?_
  refine .bind (.ofExcept fun _ => trivial) fun manifest =>
    .bind (.ofExcept fun _ => trivial) fun vars => ?_
  refine .bind (Fill.fillDirectory_failsWith _ _ _ _) fun _ => .bind ?_ fun _ => .pure
  exact .bind (.ofExcept fun _ => trivial) fun _ => .bind .disk fun _ =>
    .bind .setDisk fun _ => .ofExcept fun fault => by cases fault <;> trivial

/-- **Commands fail as commands do.** -/
theorem runHooks_failsWith (shell : Shell.Runner) (directory : String)
    (commands : List (List String)) :
    (runHooks shell directory commands).FailsWith Failure.IsOfHook := by
  unfold runHooks
  induction (hookLines commands).zipIdx with
  | nil => exact .pure
  | cons numbered rest ih =>
      show (runHook shell directory numbered.2 numbered.1 >>= fun _ => rest.forM _).FailsWith _
      refine .bind ?_ fun _ => ih
      refine .bind .disk fun disk => .bind (.ofExcept fun _ => trivial) fun place =>
        .bind .disk fun disk' => ?_
      simp only
      refine .bind .setDisk fun _ => .bind .print fun _ => .bind .modify fun _ => ?_
      cases hookFault? _ with
      | none => exact .pure
      | some fault => exact .fail trivial

end Stencil

/-! ## The stages -/

namespace Stencil.Clone

open Files Files.Disk

variable {settings : Settings} {shell : Shell.Runner} {clone : Clone} {world : World}

/-- The stages before the repository is fetched: the variables are there, and the directory is not. -/
structure Starts (clone : Clone) (world : World) (given : Variables) : Prop where
  loaded : (loadVariables clone.variablesFrom).on world = (.ok given, world)
  missing : world.disk.has clone.destination = false

/-- **How a clone fails**: at which stage, with which failure, and in which world. -/
inductive Fails (settings : Settings) (shell : Shell.Runner) (clone : Clone) (world : World) :
    Failure → World → Prop where
  | loading {failure : Failure} :
      (loadVariables clone.variablesFrom).on world = (.error failure, world) →
      Fails settings shell clone world failure world
  | alreadyThere {given : Variables} :
      (loadVariables clone.variablesFrom).on world = (.ok given, world) →
      world.disk.has clone.destination = true →
      Fails settings shell clone world (.alreadyThere clone.destination) world
  | branch {given : Variables} {failure : Failure} {after : World} :
      clone.Starts world given →
      (clone.repository.fetchBranch clone.destination).on world = (.error failure, after) →
      Fails settings shell clone world failure after
  | tag {given : Variables} {room : Place} {history : History} {mid : World} {failure : Failure}
      {after : World} :
      clone.Starts world given →
      (clone.repository.fetchBranch clone.destination).on world = (.ok (room, history), mid) →
      (clone.repository.checkOutTag room history).on mid = (.error failure, after) →
      Fails settings shell clone world failure after
  | filling {given : Variables} {fetched failed : World} {failure : Failure} :
      clone.Starts world given →
      (clone.repository.cloneInto clone.destination).on world = (.ok (), fetched) →
      (clone.fill settings given).on fetched = (.error failure, failed) →
      Fails settings shell clone world failure
        { failed with disk := (failed.disk.removeDirectory clone.destination).1 }
  | hooks {given : Variables} {fetched filled : World} {manifest : Manifest} {failure : Failure}
      {after : World} :
      clone.Starts world given →
      (clone.repository.cloneInto clone.destination).on world = (.ok (), fetched) →
      (clone.fill settings given).on fetched = (.ok manifest, filled) →
      (runHooks shell clone.destination manifest.configuration.postCloneCommands).on filled =
        (.error failure, after) →
      Fails settings shell clone world failure after

/-- A repository that cannot be fetched has no such branch, or no such tag. -/
theorem fails_of_cloneInto {given : Variables} {failure : Failure} {after : World}
    (hstarts : clone.Starts world given)
    (h : (clone.repository.cloneInto clone.destination).on world = (.error failure, after)) :
    clone.Fails settings shell world failure after := by
  rw [Repository.cloneInto_eq, Work.on_bind] at h
  cases hbranch : (clone.repository.fetchBranch clone.destination).on world with
  | mk result mid =>
      rw [hbranch] at h
      cases result with
      | error fault =>
          obtain ⟨rfl, rfl⟩ : fault = failure ∧ mid = after := by simpa using h
          exact .branch hstarts hbranch
      | ok found => exact .tag hstarts hbranch h

/-- **A clone that fails does so at one of its stages.** -/
theorem run_fails {failure : Failure} {after : World}
    (h : (clone.run settings shell).on world = (.error failure, after)) :
    clone.Fails settings shell world failure after := by
  have hends : (clone.run settings shell).Ends world (fun _ _ => True)
      (clone.Fails settings shell world) := by
    refine .bind ((Work.Ends.self _ world).mono (fun given mid hload => ?_)
      fun failure mid hload => ?_)
    · obtain rfl : world = mid := ((loadVariables_ends _ world).done_of_ok hload).symm
      refine .bind (.disk ?_)
      by_cases hthere : world.disk.has clone.destination = true
      · rw [if_pos hthere]
        exact .bind (.fail (.alreadyThere hload hthere))
      · rw [if_neg hthere]
        have hstarts : clone.Starts world given := ⟨hload, by simpa using hthere⟩
        refine .bind ((Work.Ends.self _ world).mono (fun _ fetched hfetch => ?_)
          fun failure after hfetch => ?_)
        · refine .bind (.onFailure ((Work.Ends.self _ fetched).mono (fun manifest filled hfill => ?_)
            fun failure failed hfill => ?_))
          · exact (Work.Ends.self _ filled).mono (fun _ _ _ => trivial) fun failure after hhooks =>
              .hooks hstarts hfetch hfill hhooks
          · have hclear := clearDirectory_ends clone.destination failed
            exact hclear.mono (fun _ after h => h.1 ▸ .filling hstarts hfetch hfill)
              fun _ after h => h ▸ .filling hstarts hfetch hfill
        · exact fails_of_cloneInto hstarts hfetch
    · obtain rfl : world = mid := ((loadVariables_ends _ world).failed_of_error hload).symm
      exact .loading hload
  exact hends.failed_of_error h

end Stencil.Clone
