import Stencil.Sources
import Stencil.Proofs.Work

/-!
# Reading variables and manifests

Whatever is read from a disk, the disk stays as it is, and so does the rest of the world. What is read depends on
nothing but the file that it is read from.
-/

namespace Stencil

open Files

/-- Loading variables changes nothing. -/
theorem loadVariables_ends (source : String) (world : World) :
    (loadVariables source).Ends world (fun _ after => after = world) fun _ after =>
      after = world := by
  unfold loadVariables
  cases inlineVariables? source with
  | some vars => exact .pure rfl
  | none =>
      refine .bind (.disk ?_)
      by_cases hmissing : (Text.isAllBlank source || !world.disk.hasFile source) = true
      · rw [if_pos hmissing]
        exact .pure rfl
      · rw [if_neg hmissing]
        have hread : (do
            let text ← Work.ask fun disk => disk.readText source
            Work.ofExcept .userVariables (Variables.parse text) : Work Variables).Ends world
            (fun _ after => after = world) fun _ after => after = world :=
          .bind (.ask (fun _ _ => .ofExcept (fun _ _ => rfl) fun _ _ => rfl) fun _ _ => rfl)
        unfold readVariablesFile
        split
        · exact hread
        · exact hread
        · exact .bind (.fail rfl)

/-- Reading a manifest changes nothing. -/
theorem readManifestText_ends (settings : Settings) (directory : String) (world : World) :
    (readManifestText settings directory).Ends world (fun _ after => after = world) fun _ after =>
      after = world := by
  refine .bind (.disk ?_)
  cases world.disk.readText (Path.join directory settings.manifestFile) with
  | ok text => exact .pure rfl
  | error fault => cases fault <;> exact .fail rfl

theorem parseManifest_ends (settings : Settings) (text : String) (world : World) :
    (parseManifest settings text).Ends world (fun _ after => after = world) fun _ after =>
      after = world :=
  .ofExcept (fun _ _ => rfl) fun _ _ => rfl

theorem readManifest_ends (settings : Settings) (directory : String) (world : World) :
    (readManifest settings directory).Ends world (fun _ after => after = world) fun _ after =>
      after = world := by
  refine .bind ((readManifestText_ends settings directory world).mono ?_ fun _ _ h => h)
  rintro text after rfl
  exact parseManifest_ends settings text _

/-! ## The same from another disk -/

variable {world : World} {disk : Disk}

theorem readVariablesFile_congr {path : String} (htext : disk.readText path = world.disk.readText path) :
    (readVariablesFile path).on { world with disk } = (((readVariablesFile path).on world).1, { world with disk }) := by
  unfold readVariablesFile
  split <;> simp only [Work.on_bind, Work.on_fail, Work.on_ask, htext]
  all_goals
    cases world.disk.readText path with
    | error fault => rfl
    | ok text =>
        dsimp only
        cases Variables.parse text <;> rfl

/-- Nothing is asked to load variables but what is in their file, if they are in one. -/
theorem loadVariables_congr {source : String} (hfile : ∀ path, variablesFile? source = some path →
    disk.hasFile path = world.disk.hasFile path ∧
      (world.disk.hasFile path = true → disk.readText path = world.disk.readText path)) :
    (loadVariables source).on { world with disk } = (((loadVariables source).on world).1, { world with disk }) := by
  unfold loadVariables
  cases hinline : inlineVariables? source with
  | some vars => rfl
  | none =>
      simp only [Work.on_bind, Work.on_disk]
      by_cases hblank : Text.isAllBlank source = true
      · simp [hblank]
      · obtain ⟨hhas, htext⟩ := hfile source (by simp [variablesFile?, hblank, hinline])
        cases hthere : world.disk.hasFile source with
        | false => simp [hhas, hthere]
        | true => simpa [hhas, hthere, hblank] using readVariablesFile_congr (htext hthere)

/-- Nothing is read from a disk to know a manifest but its file. -/
theorem readManifest_congr {settings : Settings} {directory : String}
    (htext : disk.readText (Path.join directory settings.manifestFile) =
      world.disk.readText (Path.join directory settings.manifestFile)) :
    (readManifest settings directory).on { world with disk } =
      (((readManifest settings directory).on world).1, { world with disk }) := by
  simp only [readManifest, readManifestText, parseManifest, Work.on_bind, Work.on_disk, htext]
  cases world.disk.readText (Path.join directory settings.manifestFile) with
  | error fault => cases fault <;> rfl
  | ok text =>
      dsimp only [Work.on_pure]
      cases Manifest.parse text settings.supportedVersions <;> rfl

end Stencil
