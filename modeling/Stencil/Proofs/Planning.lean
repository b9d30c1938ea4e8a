import Stencil.Proofs.Clone.Ignored
import Stencil.Proofs.DryRun

/-!
# From a manifest to a fill

Before a template is filled its manifest is read and the variables are bound to it. Nothing is asked but what
is in the file of the manifest, and so a dry run and a clone whose manifests have the same content come to the
same variables, or fail for the same reason (`DryRun.plan_on`, `Clone.fill_on`).

What comes before that and behind it is put in order here as well: a dry run whose output is missing has
nothing to clear, and what is cleared after a failure does not change the failure.
-/

namespace Stencil

open Files Files.Disk

variable {settings : Settings} {given vars : Variables} {manifest : Manifest} {content : ByteArray}
  {world after : World} {failure : Failure}

/-- The manifest in the content of its file, with the variables that are bound to it. -/
def bound (settings : Settings) (given : Variables) (content : ByteArray) :
    Except Failure (Manifest × Variables) :=
  match String.fromUTF8? content with
  | none => .error (.files .notText)
  | some text =>
    match Manifest.parse text settings.supportedVersions with
    | .error fault => .error (.manifest fault)
    | .ok manifest =>
      match given.bind manifest with
      | .error fault => .error (.binding fault)
      | .ok vars => .ok (manifest, vars)

/-- The patterns of the occasion stand in front of those of every occasion. -/
theorem Manifest.ignorePatterns_eq (manifest : Manifest) (settings : Settings) (extra : List String) :
    manifest.ignorePatterns settings extra = extra ++ manifest.ignorePatterns settings [] := by
  simp [ignorePatterns]

/-- The text of a manifest is what its file has for one. -/
theorem readManifestText_on {directory : String}
    (hread : world.disk.read (Path.join directory settings.manifestFile) = .ok content) :
    (readManifestText settings directory).on world =
      match String.fromUTF8? content with
      | some text => (.ok text, world)
      | none => (.error (.files .notText), world) := by
  simp only [readManifestText, Work.on_bind, Work.on_disk, readText, hread]
  cases String.fromUTF8? content <;> rfl

/-- The manifest to which variables are bound is the one that is read. -/
theorem readManifest_of_bound {directory : String}
    (hread : world.disk.read (Path.join directory settings.manifestFile) = .ok content)
    (h : bound settings given content = .ok (manifest, vars)) :
    (readManifest settings directory).on world = (.ok manifest, world) := by
  unfold bound at h
  split at h
  · cases h
  · rename_i text htext
    split at h
    · cases h
    · rename_i found hparse
      split at h
      · cases h
      · obtain ⟨rfl, rfl⟩ := Prod.mk.inj (Except.ok.inj h)
        rw [readManifest, Work.on_bind, readManifestText_on hread, htext]
        simp only [parseManifest, hparse, Work.on_ofExcept_ok]

/-- What is done after a failure does not change the failure. -/
theorem Work.onFailure_on_failed {α : Type} {work : Work α} (other : Work Unit)
    (h : work.on world = (.error failure, after)) :
    (Work.onFailure work other).on world = (.error failure, (other.on after).2) := by
  rw [Work.onFailure, Work.on_tryCatch, h]
  simp only [Work.on_bind, Work.on_tryCatch]
  rcases other.on after with ⟨_ | _, last⟩ <;> rfl

theorem Work.onFailure_on_error {α : Type} {work : Work α} (other : Work Unit)
    (h : (work.on world).1 = .error failure) :
    ((Work.onFailure work other).on world).1 = .error failure := by
  rw [Work.onFailure_on_failed other (Prod.ext h rfl)]

/-- Without a failure nothing else is done. -/
theorem Work.onFailure_on_ok {α : Type} {work : Work α} {a : α} (other : Work Unit)
    (h : work.on world = (.ok a, after)) : (Work.onFailure work other).on world = (.ok a, after) := by
  rw [Work.onFailure, Work.on_tryCatch, h]

/-- There is nothing to clear by a path that leads nowhere. -/
theorem clearDirectory_on_missing {path : String} (h : world.disk.find false path = .error .notFound) :
    (clearDirectory path).on world = (.ok (), world) := by
  simp only [clearDirectory, Work.on_attempt, removeDirectory, h]

namespace DryRun

/-- The patterns of a dry run with some manifest, given from where relative paths start. -/
def patterns (settings : Settings) (dryRun : DryRun) (current : Place) (manifest : Manifest) : List String :=
  manifest.ignorePatterns settings (dryRun.ownPaths current)

variable {dryRun : DryRun} {patterns : List String}

/-- **What a dry run is going to fill**, and with what. -/
theorem plan_on (hload : (loadVariables dryRun.variablesFrom).on world = (.ok given, world))
    (hread : world.disk.read (Path.join dryRun.source settings.manifestFile) = .ok content) :
    (dryRun.plan settings).on world = ((bound settings given content).map fun found =>
      (dryRun.patterns settings world.disk.directory found.1, found.2), world) := by
  simp only [plan, readManifest, parseManifest, Work.on_bind, hload, readManifestText_on hread, bound]
  cases String.fromUTF8? content with
  | none => rfl
  | some text =>
      dsimp only
      cases Manifest.parse text settings.supportedVersions with
      | error fault => rfl
      | ok manifest =>
          simp only [Work.on_ofExcept_ok]
          cases given.bind manifest <;> rfl

/-- What was planned has the patterns of a manifest that could be read. -/
theorem exists_manifest_of_plan (h : (dryRun.plan settings).on world = (.ok (patterns, vars), world)) :
    ∃ manifest, (readManifest settings dryRun.source).on world = (.ok manifest, world) ∧
      patterns = dryRun.patterns settings world.disk.directory manifest := by
  simp only [plan, Work.on_bind] at h
  rcases hload : (loadVariables dryRun.variablesFrom).on world with ⟨failure | given, mid⟩ <;> rw [hload] at h
  · cases h
  obtain rfl : mid = world := (loadVariables_ends _ world).done_of_ok hload
  rcases hread : (readManifest settings dryRun.source).on mid with ⟨failure | manifest, last⟩ <;>
    simp only [hread] at h
  · cases h
  obtain rfl : last = mid := (readManifest_ends settings _ mid).done_of_ok hread
  refine ⟨manifest, rfl, ?_⟩
  cases hbind : given.bind manifest with
  | error fault =>
      rw [hbind] at h
      cases h
  | ok bound =>
      rw [hbind] at h
      simp only [Work.on_ofExcept_ok, Work.on_disk, Work.on_pure] at h
      exact (Prod.mk.inj (Except.ok.inj (Prod.mk.inj h).1)).1.symm

/-- A dry run without variables is over. -/
theorem run_on_unloaded (hload : ((loadVariables dryRun.variablesFrom).on world).1 = .error failure) :
    ((dryRun.run settings).on world).1 = .error failure := by
  rw [run, Work.on_bind_of_error hload]

/-- A dry run that cannot be planned fails for that reason. -/
theorem run_on_unplanned (hplan : ((dryRun.plan settings).on world).1 = .error failure) :
    ((dryRun.run settings).on world).1 = .error failure := by
  rw [run_eq, Work.on_bind_of_error hplan]

/-- A dry run that writes to a missing output fails if the template cannot be filled. -/
theorem run_on_unfilled (hplan : (dryRun.plan settings).on world = (.ok (patterns, vars), world))
    (hterminal : dryRun.inTerminal = false)
    (hmissing : world.disk.find false dryRun.output = .error .notFound)
    (hfill : ((fillDirectory dryRun.source patterns vars (.mirror dryRun.output)).on world).1 =
      .error failure) :
    ((dryRun.run settings).on world).1 = .error failure := by
  rw [run_on_ok hplan, if_neg (by simp [hterminal]), fillOutput,
    Work.on_bind_of_ok (clearDirectory_on_missing hmissing)]
  exact Work.onFailure_on_error _ (Work.on_bind_of_error hfill)

/-- A dry run that writes to a missing output leaves what was filled there, but for what is pruned. -/
theorem run_on_filled {filled : World} {set : IgnoreSet} {disk : Disk}
    (hplan : (dryRun.plan settings).on world = (.ok (patterns, vars), world))
    (hterminal : dryRun.inTerminal = false)
    (hmissing : world.disk.find false dryRun.output = .error .notFound)
    (hfill : (fillDirectory dryRun.source patterns vars (.mirror dryRun.output)).on world = (.ok (), filled))
    (hset : IgnoreSet.ofPatterns dryRun.output patterns = .ok set)
    (hprune : prune set settings.internalMark filled.disk = (disk, .ok ())) :
    (dryRun.run settings).on world = (.ok (), { filled with disk }) := by
  rw [run_on_ok hplan, if_neg (by simp [hterminal]), fillOutput,
    Work.on_bind_of_ok (clearDirectory_on_missing hmissing)]
  refine Work.onFailure_on_ok _ ?_
  rw [Work.on_bind_of_ok hfill, pruneDirectory_on hset, hprune]
  rfl

end DryRun

namespace Clone

variable {clone : Clone} {fetched : World} {bare : Disk} {shell : Shell.Runner}

/-- **What a clone is going to fill**, and with what, once its manifest was taken out. -/
theorem fill_on (hread : fetched.disk.read (Path.join clone.destination settings.manifestFile) = .ok content)
    (hremove : fetched.disk.removeFile (Path.join clone.destination settings.manifestFile) = .ok bare) :
    match bound settings given content with
    | .error failure => ((clone.fill settings given).on fetched).1 = .error failure
    | .ok (manifest, vars) => (clone.fill settings given).on fetched = (do
        fillDirectory clone.destination (clone.patterns settings manifest) vars .inPlace
        pruneDirectory clone.destination [] settings.internalMark
        pure manifest : Work Manifest).on { fetched with disk := bare } := by
  simp only [fill, patterns, parseManifest, Work.on_bind, readManifestText_on hread, bound]
  cases String.fromUTF8? content with
  | none => rfl
  | some text =>
      simp only [Work.on_change, hremove]
      cases Manifest.parse text settings.supportedVersions with
      | error fault => rfl
      | ok manifest =>
          simp only [Work.on_ofExcept_ok]
          cases given.bind manifest with
          | error fault => rfl
          | ok vars => simp only [Work.on_ofExcept_ok]

variable {written : World} {set : IgnoreSet} {disk : Disk}

/-- A clone leaves what was filled in place, but for what is pruned. -/
theorem fill_on_filled
    (hread : fetched.disk.read (Path.join clone.destination settings.manifestFile) = .ok content)
    (hremove : fetched.disk.removeFile (Path.join clone.destination settings.manifestFile) = .ok bare)
    (hbound : bound settings given content = .ok (manifest, vars))
    (hfill : (fillDirectory clone.destination (clone.patterns settings manifest) vars .inPlace).on
      { fetched with disk := bare } = (.ok (), written))
    (hset : IgnoreSet.ofPatterns clone.destination [] = .ok set)
    (hprune : prune set settings.internalMark written.disk = (disk, .ok ())) :
    (clone.fill settings given).on fetched = (.ok manifest, { written with disk }) := by
  have hon := @fill_on settings given content clone fetched bare hread hremove
  rw [hbound] at hon
  rw [hon, Work.on_bind_of_ok hfill, Work.on_bind, pruneDirectory_on hset, hprune]
  rfl

/-- A clone fails if it cannot be filled in place. -/
theorem fill_on_unfilled
    (hread : fetched.disk.read (Path.join clone.destination settings.manifestFile) = .ok content)
    (hremove : fetched.disk.removeFile (Path.join clone.destination settings.manifestFile) = .ok bare)
    (hbound : bound settings given content = .ok (manifest, vars))
    (hfill : ((fillDirectory clone.destination (clone.patterns settings manifest) vars .inPlace).on
      { fetched with disk := bare }).1 = .error failure) :
    ((clone.fill settings given).on fetched).1 = .error failure := by
  have hon := @fill_on settings given content clone fetched bare hread hremove
  rw [hbound] at hon
  rw [hon, Work.on_bind_of_error hfill]

/-- A clone without variables is over. -/
theorem run_on_unloaded (shell : Shell.Runner)
    (hload : ((loadVariables clone.variablesFrom).on world).1 = .error failure) :
    ((clone.run settings shell).on world).1 = .error failure := by
  rw [run, Work.on_bind_of_error hload]

/-- A clone that cannot be filled fails for that reason, and runs no commands. -/
theorem run_on_unfilled (shell : Shell.Runner) (hstarts : clone.Starts world given)
    (hfetch : (clone.repository.cloneInto clone.destination).on world = (.ok (), fetched))
    (hfill : ((clone.fill settings given).on fetched).1 = .error failure) :
    ((clone.run settings shell).on world).1 = .error failure := by
  have hfailed := Work.onFailure_on_error (clearDirectory clone.destination) hfill
  rcases hon : (Work.onFailure (clone.fill settings given) (clearDirectory clone.destination)).on fetched
    with ⟨result, last⟩
  rw [hon] at hfailed
  obtain rfl : result = .error failure := hfailed
  unfold run
  simp [Work.on_bind, hstarts.loaded, hstarts.missing, hfetch, hon]

end Clone

end Stencil
