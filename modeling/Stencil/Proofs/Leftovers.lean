import Stencil.Proofs.DryRun
import Stencil.Proofs.Files.Apart
import Stencil.Proofs.Planning

/-!
# What a failed dry run leaves

A dry run that fails once its output was cleared clears it again. What is cleared is what the path of the output
finds then, so all depends on whether that is where the files went.

If what the path finds once its directory was made is new (`Disk.IsNew`), it is: no link was there that could be
taken away instead, and nothing else was there before. A path is like that if no step up of it is taken behind what is
missing (`isNew_of_cleared`). Nothing is left then but directories on the way to the output
(`run_leaves_no_part`). A path that takes a step up behind a missing directory may lead to something else once that
directory was made, such as a link to another directory. The files go there, and the link is all that is cleared.
-/

namespace Stencil.DryRun

open Files Files.Disk

variable {settings : Settings} {dryRun : DryRun} {world cleared failed : World} {patterns : List String}
  {vars : Variables} {output : String}

/-- Fills the template into an output that was cleared, and prunes it. -/
def deliver (settings : Settings) (dryRun : DryRun) (patterns : List String) (vars : Variables) : Work Unit := do
  fillDirectory dryRun.source patterns vars (.mirror dryRun.output)
  pruneDirectory dryRun.output patterns settings.internalMark

theorem fillOutput_eq (settings : Settings) (dryRun : DryRun) (patterns : List String) (vars : Variables) :
    dryRun.fillOutput settings patterns vars = (do
      clearDirectory dryRun.output
      Work.onFailure (dryRun.deliver settings patterns vars) (clearDirectory dryRun.output)) := rfl

/-- **How a dry run to a directory ends**: it cannot be planned, its output cannot be cleared, or it delivers, and
clears the output again if that fails. -/
theorem run_cases {result : Except Failure Unit} {after : World} (hfiles : dryRun.inTerminal = false)
    (hrun : (dryRun.run settings).on world = (result, after)) :
    (∃ failure, (dryRun.plan settings).on world = (.error failure, world) ∧ result = .error failure ∧ after = world) ∨
    ∃ patterns vars, (dryRun.plan settings).on world = (.ok (patterns, vars), world) ∧
      ((∃ failure, (clearDirectory dryRun.output).on world = (.error failure, after) ∧ result = .error failure) ∨
        ∃ cleared, (clearDirectory dryRun.output).on world = (.ok (), cleared) ∧
          ((dryRun.deliver settings patterns vars).on cleared = (.ok (), after) ∧ result = .ok () ∨
            ∃ failure failed, (dryRun.deliver settings patterns vars).on cleared = (.error failure, failed) ∧
              result = .error failure ∧ after = ((clearDirectory dryRun.output).on failed).2)) := by
  rcases hplan : (dryRun.plan settings).on world with ⟨failure | ⟨patterns, vars⟩, mid⟩
  · obtain rfl : mid = world := (plan_ends settings dryRun world).failed_of_error hplan
    rw [run_on_error hplan] at hrun
    obtain ⟨rfl, rfl⟩ := Prod.mk.inj hrun
    exact Or.inl ⟨failure, rfl, rfl, rfl⟩
  obtain rfl : mid = world := (plan_ends settings dryRun world).done_of_ok hplan
  rw [run_on_ok hplan, if_neg (by simp [hfiles]), fillOutput_eq, Work.on_bind] at hrun
  refine Or.inr ⟨patterns, vars, rfl, ?_⟩
  rcases hclear : (clearDirectory dryRun.output).on mid with ⟨failure | ⟨⟩, cleared⟩ <;> rw [hclear] at hrun
  · obtain ⟨rfl, rfl⟩ := Prod.mk.inj hrun
    exact Or.inl ⟨failure, rfl, rfl⟩
  refine Or.inr ⟨cleared, rfl, ?_⟩
  dsimp only at hrun
  rcases hdeliver : (dryRun.deliver settings patterns vars).on cleared with ⟨failure | ⟨⟩, last⟩
  · rw [Work.onFailure_on_failed _ hdeliver] at hrun
    obtain ⟨rfl, rfl⟩ := Prod.mk.inj hrun
    exact Or.inr ⟨failure, last, rfl, rfl, rfl⟩
  · rw [Work.onFailure_on_ok _ hdeliver] at hrun
    obtain ⟨rfl, rfl⟩ := Prod.mk.inj hrun
    exact Or.inl ⟨rfl, rfl⟩

/-- Where a dry run is when it fails after its output was cleared. -/
structure BreaksOff (settings : Settings) (dryRun : DryRun) (world cleared failed : World) (failure : Failure) :
    Prop where
  cleared_eq : (clearDirectory dryRun.output).on world = (.ok (), cleared)
  failed_eq : ∃ patterns vars, (dryRun.plan settings).on world = (.ok (patterns, vars), world) ∧
    (dryRun.deliver settings patterns vars).on cleared = (.error failure, failed)

/-- Whatever was done by then is a mirrored fill, for pruning does not fail. -/
theorem deliver_ends (settings : Settings) (patterns : List String) (vars : Variables) (hsound : world.disk.Sound)
    (hnew : world.disk.IsNew dryRun.output) :
    (dryRun.deliver settings patterns vars).Ends world (fun _ _ => True)
      fun _ after => Fill.Mirrored dryRun.output world.disk after.disk := by
  refine .bind ((Fill.fillDirectory_mirror_ends dryRun.source patterns vars dryRun.output hsound
    (hnew.isFree hsound)).mono ?_ fun _ _ hmirrored => hmirrored)
  rintro _ filled ⟨hmirrored, room, hroom, hwrote⟩
  obtain ⟨entry, hfind⟩ := canonical_eq_ok.mp (canonical_grow hwrote.2.grown hroom)
  have hthere : filled.disk.has dryRun.output = true := has_iff.mpr ⟨room, entry, hfind⟩
  exact (pruneDirectory_fails hmirrored.sound hthere).mono (fun _ _ _ => trivial) fun _ _ heq => heq ▸ hmirrored

/-- Whatever is found at the output in a mirrored fill is a directory that was made for it. -/
theorem room_of_mirrored {old new : Disk} {room : Place} {entry : Entry} (hsound : old.Sound) (hnew : old.IsNew output)
    (hclear : old.hasEntry output = false) (hmirrored : Fill.Mirrored output old new)
    (hfind : new.find false output = .ok (room, entry)) : old.at? room = none ∧ entry = .directory := by
  have hchanged : new ≠ old := by
    rintro rfl
    rw [hasEntry_iff.mpr ⟨_, _, hfind⟩] at hclear
    cases hclear
  obtain ⟨made, hmade, halike⟩ := hmirrored.found.resolve_left hchanged false room entry hfind
  obtain rfl := directory_of_new hsound hnew hmade
  exact ⟨hnew room _ hmade, by simpa [Entry.Alike, eq_comm] using halike⟩

/-- When the directory is taken away, all that is new is on the way there. -/
theorem writes_of_removed {old new : Disk} {room : Place} (hsound : old.Sound)
    (hmirrored : Fill.Mirrored output old new) (hfind : new.find false output = .ok (room, .directory))
    (hnone : old.at? room = none) :
    WritesOnly (new.Made (output :: (Path.ofString output).outer.map Path.render)) old
      (new.removeDirectory output).1 := by
  have hroom : new.canonical output = .ok room := canonical_eq_ok.mpr ⟨_, find_follow_last hfind rfl⟩
  have hshrunk := shrunk_removeDirectory new output
  refine ⟨hshrunk.directory_eq.trans hmirrored.writes.directory_eq, fun place => ?_⟩
  rcases hshrunk.left place with heq | hgone
  · rw [heq]
    rcases hmirrored.writes.changed place with hsame | ⟨entry, hat, hfresh, ⟨root, hroot, -, hin⟩ | hmade⟩
    · exact Or.inl hsame
    · -- All that was written within the directory is gone, but for the directory itself.
      obtain rfl : room = root := Except.ok.inj (hroom.symm.trans hroot)
      refine Or.inr ⟨entry, hat, hfresh, ?_⟩
      by_cases hself : place = room
      · rw [hself, find_at? hfind, Option.some.injEq] at hat
        exact ⟨hat.symm, output, List.mem_cons_self, hself ▸ hroom⟩
      · have hinside : place.isInside room = true := by simp [Place.isInside, hin, hself]
        rw [removeDirectory_inside hfind rfl hinside, hat] at heq
        cases heq
    · exact Or.inr ⟨entry, hat, hfresh, hmade⟩
  · refine Or.inl (hgone.trans (Eq.symm ?_))
    cases hold : old.at? place with
    | none => rfl
    | some entry =>
        rw [removeDirectory_outside hfind (hsound.not_isWithin hold hnone), hmirrored.at?_eq hsound hold] at hgone
        cases hgone

/-- **What a mirrored fill has put where nothing was can be taken away again**, and then there is nothing new but
directories on the way. -/
theorem mirrored_removed {old new : Disk} (hsound : old.Sound) (hnew : old.IsNew output)
    (hclear : old.hasEntry output = false) (hmirrored : Fill.Mirrored output old new) (hremoves : new.Removes output) :
    (new.removeDirectory output).1.hasEntry output = false ∧
      WritesOnly (new.Made (output :: (Path.ofString output).outer.map Path.render)) old
        (new.removeDirectory output).1 := by
  cases hfind : new.find false output with
  | error fault =>
      -- There is nothing to take away.
      have hsame : new.removeDirectory output = (new, .error fault) := by
        unfold removeDirectory
        rw [hfind]
      have hmissing : new.hasEntry output = false := by
        unfold hasEntry
        rw [hfind]
        rfl
      rw [hsame]
      refine ⟨hmissing, hmirrored.writes.mono fun place entry hmade => hmade.resolve_left ?_⟩
      rintro ⟨root, hroot, -⟩
      obtain ⟨found, hfound⟩ := canonical_eq_ok.mp hroot
      rw [hasEntry_of_has (has_iff.mpr ⟨root, found, hfound⟩)] at hmissing
      cases hmissing
  | ok found =>
      obtain ⟨room, entry⟩ := found
      obtain ⟨hnone, rfl⟩ := room_of_mirrored hsound hnew hclear hmirrored hfind
      have hdone := hremoves room .directory hfind rfl
      exact ⟨hasEntry_removeDirectory hmirrored.sound (Or.inl hdone), writes_of_removed hsound hmirrored hfind hnone⟩

/-- What a path finds is new once it was cleared, if the path can climb then. -/
theorem isNew_of_cleared (hsound : world.disk.Sound) (hclimb : (world.disk.removeDirectory output).1.CanClimb output)
    (hclear : (clearDirectory output).on world = (.ok (), cleared)) : cleared.disk.IsNew output := by
  obtain ⟨rfl, hsound', hmissing⟩ := cleared_of_ok hsound hclear
  exact isNew_of_missing hsound' hmissing hclimb

/-- **A dry run that fails leaves no part of its output**: either nothing was done, because it could not be planned or
something other than a directory is in the way, or there is no output any more and nothing is new but directories on
the way there. -/
theorem run_leaves_no_part (settings : Settings) (dryRun : DryRun) (world : World) (hsound : world.disk.Sound)
    (hfiles : dryRun.inTerminal = false) (hremoves : world.disk.Removes dryRun.output)
    (hnew : ∀ cleared, (clearDirectory dryRun.output).on world = (.ok (), cleared) →
      cleared.disk.IsNew dryRun.output)
    (hagain : ∀ cleared failed failure, dryRun.BreaksOff settings world cleared failed failure →
      failed.disk.Removes dryRun.output)
    {failure : Failure} {after : World} (hrun : (dryRun.run settings).on world = (.error failure, after)) :
    (after = world ∧ (((dryRun.plan settings).on world).1 = .error failure ∨
      ((clearDirectory dryRun.output).on world).1 = .error failure ∧
        ∀ place entry, world.disk.find false dryRun.output = .ok (place, entry) → entry.isFile = true)) ∨
    ∃ cleared failed, dryRun.BreaksOff settings world cleared failed failure ∧
      after.disk.hasEntry dryRun.output = false ∧
      WritesOnly (failed.disk.Made (dryRun.output :: (Path.ofString dryRun.output).outer.map Path.render))
        cleared.disk after.disk := by
  rcases run_cases hfiles hrun with
    ⟨_, hplan, heq, rfl⟩ | ⟨patterns, vars, hplan, ⟨_, hclear, heq⟩ | ⟨cleared, hclear, ⟨-, heq⟩ | hbroken⟩⟩
  · obtain rfl := Except.error.inj heq
    exact Or.inl ⟨rfl, Or.inl (by rw [hplan])⟩
  · obtain rfl := Except.error.inj heq
    obtain ⟨rfl, hnone⟩ := (clearDirectory_fails hremoves).failed_of_error hclear
    exact Or.inl ⟨rfl, Or.inr ⟨by rw [hclear], hnone⟩⟩
  · cases heq
  · obtain ⟨_, failed, hdeliver, heq, rfl⟩ := hbroken
    obtain rfl := Except.error.inj heq
    obtain ⟨-, hsound', hmissing⟩ := cleared_of_ok hsound hclear
    have hbreaks : dryRun.BreaksOff settings world cleared failed failure := ⟨hclear, patterns, vars, hplan, hdeliver⟩
    have hmirrored := (deliver_ends settings patterns vars hsound' (hnew _ hclear)).failed_of_error hdeliver
    have hremoved := mirrored_removed hsound' (hnew _ hclear) hmissing hmirrored (hagain _ _ _ hbreaks)
    exact Or.inr ⟨cleared, failed, hbreaks, clearDirectory_disk dryRun.output failed ▸ hremoved⟩

/-- A template with a file that can be rendered and one that cannot, and a directory with an old file in it. -/
def brokenTemplate : World where
  disk := { directory := [], tree := [(["o"], .directory), (["o", "s"], .file "s".toUTF8 false), (["t"], .directory),
    (["t", ".cloney.yaml"], .file "{name: a, template_version: 1.0.0, manifest_version: v1}".toUTF8 false),
    (["t", "a"], .file "a".toUTF8 false), (["t", "b"], .file "\x7b\x7b".toUTF8 false)] }

/-- A dry run of it. -/
def brokenRun : DryRun where
  source := "t"
  output := "o"
  variablesFrom := ""

theorem run_leaves_no_part_broken :
    brokenTemplate.disk.Sound ∧ brokenTemplate.disk.hasEntry "o" = true ∧
      ∃ failure after, (brokenRun.run .standard).on brokenTemplate = (.error failure, after) ∧
        after.disk.hasEntry "o" = false ∧
        ∀ content executable, after.disk.at? ["o", "a"] ≠ some (.file content executable) := by
  have hsound : brokenTemplate.disk.Sound := by decide +kernel
  have hremoves : ∀ disk : Disk, disk.Removes "o" := fun disk =>
    removes_of_name ⟨by decide +kernel, ['o'], by decide +kernel, by decide, by decide⟩
  have hup : UpFirst "o" := upFirst_of_names (by decide +kernel)
  have hfails : ((brokenRun.run .standard).on brokenTemplate).1.isOk = false := by decide +kernel
  have hplanned : ((brokenRun.plan .standard).on brokenTemplate).1.isOk = true := by decide +kernel
  rcases hrun : (brokenRun.run .standard).on brokenTemplate with ⟨failure | ⟨⟩, after⟩
  · refine ⟨hsound, by decide +kernel, failure, after, rfl, ?_⟩
    rcases run_leaves_no_part .standard brokenRun brokenTemplate hsound rfl (hremoves _)
      (fun _ hclear => isNew_of_cleared hsound (hup.canClimb _) hclear) (fun _ _ _ _ => hremoves _) hrun with
      ⟨-, hplan | ⟨-, hfile⟩⟩ | ⟨cleared, failed, hbreaks, hgone, hwrites⟩
    · rw [hplan] at hplanned
      cases hplanned
    · cases hfile ["o"] .directory (by decide +kernel)
    · refine ⟨hgone, fun content executable hat => ?_⟩
      obtain ⟨rfl, -⟩ := (clearDirectory_ends _ _).done_of_ok hbreaks.cleared_eq
      have hbefore : (brokenTemplate.disk.removeDirectory "o").1.at? ["o", "a"] = none := by decide +kernel
      rcases hwrites.changed ["o", "a"] with heq | ⟨entry, hentry, -, rfl, -⟩
      · cases hat.symm.trans (heq.trans hbefore)
      · cases hat.symm.trans hentry
  · rw [hrun] at hfails
    cases hfails

/-- The files of an output behind a link that is not to be found before a directory was made are left in what the
link leads to. -/
example :
    let world : World := { disk := { brokenTemplate.disk with tree := [(["b"], .link "d"), (["d"], .directory)] ++
      brokenTemplate.disk.tree } }
    let ended := ({ brokenRun with output := "n/../b" }.run .standard).on world
    ended.1.isOk = false ∧ ended.2.disk.hasEntry "n/../b" = false ∧
      ended.2.disk.at? ["d", "a"] = some (.file "a".toUTF8 false) := by decide +kernel

end Stencil.DryRun
