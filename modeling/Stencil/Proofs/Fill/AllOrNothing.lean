import Stencil.Proofs.Fill.Gathering
import Stencil.Proofs.Fill.WritingBack

/-!
# A fill in place that fails

The texts of a fill in place wait until the last file was rendered, so a fill that fails has written none
of them (`fillDirectory_fails_untouched`). All that can be left of it are files that templates asked for
before, and the directories around them. That holds wherever it fails, for once there is nothing left to
render nothing can fail any more: writing back does not (`writeBack_on`).
-/

namespace Stencil.Fill

open Files Files.Disk

variable {given : String} {patterns : List String} {vars : Variables} {root : Place}
  {visits : List Visit} {fill : Fill} {progress : Progress} {world after : World} {failure : Failure}

/-- Whatever waits at the end of a fill in place can be written back. -/
theorem assigned_of_pending {disk new : Disk} (hplan : Planned given patterns disk fill root visits)
    (hgrown : Grown disk new) {items : List (String × String)}
    (hitems : ∀ item ∈ items, ∃ visit ∈ visits, item.1 = visit.path fill.source) :
    Assigned (fun _ _ => True) new items := by
  intro item hitem
  obtain ⟨visit, hvisit, heq⟩ := hitems item hitem
  obtain ⟨content, executable, hat⟩ := hplan.file_at hvisit
  obtain ⟨entry, hfind⟩ := canonical_eq_ok.mp (hplan.canonical_path hvisit (Grown.refl disk))
  obtain rfl : entry = .file content executable := Option.some.inj ((find_at? hfind).symm.trans hat)
  obtain ⟨content', executable', hfind'⟩ := find_file_grow hgrown hfind
  exact ⟨root ++ visit.names, content', executable', heq ▸ hfind', trivial⟩

/-- A fill in place that fails has changed something only where templates asked for files. -/
theorem fillDirectory_fails_asked (hsound : world.disk.Sound)
    (hfails : (fillDirectory given patterns vars .inPlace).on world = (.error failure, after)) :
    WritesOnly (fun place entry =>
      after.disk.MadeForSome (generatedFiles given patterns vars .inPlace world) place entry)
      world.disk after.disk := by
  rw [fillDirectory_eq, Work.on_bind, prepare_inPlace] at hfails
  rw [generatedFiles, prepare_inPlace]
  cases hgather : gather given patterns world.disk with
  | error fault =>
      rw [hgather, Prod.mk.injEq] at hfails
      exact hfails.2 ▸ WritesOnly.refl world.disk
  | ok found =>
      obtain ⟨root, visits⟩ := found
      have hplan := planned_of_gather hsound hgather vars.context
      have hvisits : (visits.foldlM (fillVisit
          { given, source := root.render, context := vars.context, route := .inPlace }) {}).Ends
          world _ _ := fillVisits_inPlace hplan.toInPlaceAt hplan.names_isName
      simp only [hgather, Work.on_bind] at hfails ⊢
      cases hon : (visits.foldlM
          (fillVisit { given, source := root.render, context := vars.context, route := .inPlace })
          {}).on world with
      | mk result mid =>
          rw [hon] at hfails
          cases result with
          | error fault =>
              obtain ⟨_, rfl⟩ := Prod.mk.inj hfails
              exact (hvisits.failed_of_error hon).2.mono fun _ _ hmade => hmade.2
          | ok progress =>
              -- Everything was rendered, and writing back does not fail.
              obtain ⟨⟨_, hwrites⟩, hpending⟩ := hvisits.done_of_ok hon
              have hitems : ∀ item ∈ progress.pending.reverse, ∃ visit ∈ visits,
                  item.1 = visit.path root.render := fun item hitem =>
                (hpending item (List.mem_reverse.mp hitem)).resolve_left (by simp)
              obtain ⟨disk, hback, _⟩ :=
                writeBack_on (assigned_of_pending hplan hwrites.grown hitems)
              exact absurd (hback.symm.trans hfails) (by simp)

/-- **Filling in place is all or nothing**: after a fill that failed everything that was there is as it was,
its bytes and its permissions, except for files that a template asked for; and nothing is new but such
files and the directories around them. -/
theorem fillDirectory_fails_untouched (given : String) (patterns : List String) (vars : Variables)
    (world after : World) (failure : Failure) (hsound : world.disk.Sound)
    (hfails : (fillDirectory given patterns vars .inPlace).on world = (.error failure, after)) :
    (∀ place entry, world.disk.at? place = some entry →
      (entry.isFile = true → ∀ target ∈ generatedFiles given patterns vars .inPlace world,
        after.disk.canonical target.render ≠ .ok place) →
      after.disk.at? place = some entry) ∧
    ∀ place entry, world.disk.at? place = none → after.disk.at? place = some entry →
      after.disk.MadeForSome (generatedFiles given patterns vars .inPlace world) place entry := by
  have hwrites := fillDirectory_fails_asked hsound hfails
  refine ⟨fun place entry hat hasked => ?_, fun place entry hnone hat => ?_⟩
  · rcases hwrites.changed place with heq | ⟨now, _, hfresh, target, htarget, hmade⟩
    · rw [heq, hat]
    · rw [hat] at hfresh
      cases hfresh
      rcases hmade with ⟨_, hcanonical⟩ | ⟨hdir, _⟩
      · exact absurd hcanonical (hasked rfl target htarget)
      · -- No directory is made where a file is.
        exact absurd hdir (by simp)
  · rcases hwrites.changed place with heq | ⟨now, hnow, _, hmade⟩
    · rw [heq, hnone] at hat
      exact absurd hat (by simp)
    · exact Option.some.inj (hnow.symm.trans hat) ▸ hmade

/-- A template that asks for a file, and after it one that cannot be rendered. -/
def brokenDisk : Disk where
  tree := [(["s"], .directory), (["s", "a"], .file "\x7b\x7b toFile('x/c', 't') \x7d\x7d".toUTF8 true),
    (["s", "b"], .file "\x7b\x7b y.z() \x7d\x7d".toUTF8 false), (["s", "t"], .file "t".toUTF8 false)]
  directory := []

theorem fillDirectory_fails_untouched_broken :
    ∃ failure after, brokenDisk.Sound ∧
      (fillDirectory "s" [] [] .inPlace).on { disk := brokenDisk } = (.error failure, after) ∧
      after.disk.at? ["s", "a"] = some (.file "\x7b\x7b toFile('x/c', 't') \x7d\x7d".toUTF8 true) ∧
      brokenDisk.at? ["s", "x"] = none ∧ after.disk.at? ["s", "x"] = some .directory ∧
      after.disk.MadeForSome (generatedFiles "s" [] [] .inPlace { disk := brokenDisk }) ["s", "x"]
        .directory := by
  have hsound : brokenDisk.Sound := by decide +kernel
  have hfails : ((fillDirectory "s" [] [] .inPlace).on { disk := brokenDisk }).1.toOption = none := by
    decide +kernel
  obtain ⟨failure, hfailure⟩ : ∃ failure,
      ((fillDirectory "s" [] [] .inPlace).on { disk := brokenDisk }).1 = .error failure := by
    cases h : ((fillDirectory "s" [] [] .inPlace).on { disk := brokenDisk }).1 with
    | ok => exact absurd (h ▸ hfails) (by simp [Except.toOption])
    | error failure => exact ⟨failure, rfl⟩
  obtain ⟨hkept, hmade⟩ :=
    fillDirectory_fails_untouched "s" [] [] { disk := brokenDisk } _ failure hsound (Prod.ext hfailure rfl)
  refine ⟨failure, _, hsound, Prod.ext hfailure rfl, ?_, by decide +kernel, by decide +kernel, ?_⟩
  · exact hkept ["s", "a"] _ (by decide +kernel) fun _ => by decide +kernel
  · exact hmade ["s", "x"] _ (by decide +kernel) (by decide +kernel)

end Stencil.Fill
