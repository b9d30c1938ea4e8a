import Stencil.Proofs.Clearing
import Stencil.Proofs.Fill.Mirror
import Stencil.Proofs.Sources

/-!
# What a dry run spares

A dry run clears its output, fills the template into it, prunes it, and clears it again if something
goes wrong. None of this touches a file that is not in the directory that was cleared first: nothing
is there any more when the template is filled, so whatever is written, pruned or cleared later was
made by the dry run itself.

A file in that directory is lost. If the template itself lies there, all of it is, and there is
nothing left to fill (`DryRun.run_spares_template`).
-/

namespace Stencil.DryRun

open Files Files.Disk

variable {settings : Settings} {dryRun : DryRun} {world : World} {place : Place} {content : ByteArray}
  {executable : Bool}

/-- Finds out what is to be filled, and with what. -/
def plan (settings : Settings) (dryRun : DryRun) : Work (List String × Variables) := do
  let given ← loadVariables dryRun.variablesFrom
  let manifest ← readManifest settings dryRun.source
  let vars ← Work.ofExcept .binding (given.bind manifest)
  pure (manifest.ignorePatterns settings (dryRun.ownPaths (← Work.disk).directory), vars)

/-- Fills the template into the output. -/
def fillOutput (settings : Settings) (dryRun : DryRun) (patterns : List String) (vars : Variables) :
    Work Unit := do
  clearDirectory dryRun.output
  Work.onFailure
    (do
      fillDirectory dryRun.source patterns vars (.mirror dryRun.output)
      pruneDirectory dryRun.output patterns settings.internalMark)
    (clearDirectory dryRun.output)

theorem run_eq (settings : Settings) (dryRun : DryRun) :
    dryRun.run settings = (do
      let (patterns, vars) ← dryRun.plan settings
      if dryRun.inTerminal then fillDirectory dryRun.source patterns vars .terminal
      else dryRun.fillOutput settings patterns vars) := by
  simp [run, plan, fillOutput]

/-- Planning changes nothing. -/
theorem plan_ends (settings : Settings) (dryRun : DryRun) (world : World) :
    (dryRun.plan settings).Ends world (fun _ after => after = world) fun _ after =>
      after = world := by
  refine .bind ((loadVariables_ends _ world).mono ?_ fun _ _ h => h)
  rintro given _ rfl
  refine .bind ((readManifest_ends settings _ _).mono ?_ fun _ _ h => h)
  rintro manifest _ rfl
  exact .bind (.ofExcept (fun _ _ => .bind (.disk (.pure rfl))) fun _ _ => rfl)

/-! ## Files outside of what is cleared -/

/-- Whether a place lies in the directory that is cleared. -/
def Clears (disk : Disk) (output : String) (place : Place) : Prop :=
  ∃ outer entry, disk.find false output = .ok (outer, entry) ∧ entry.isDirectory = true ∧
    place.isWithin outer = true

/-- What is known of a disk that was cleared. -/
structure Cleared (output : String) (disk : Disk) : Prop where
  sound : disk.Sound
  missing : disk.has output = false
  free : disk.IsFree output

/-- While the output is filled, it leads to where nothing was when it was cleared. -/
theorem Cleared.at?_output {output : String} {cleared disk : Disk} (h : Cleared output cleared)
    (hmirrored : Fill.Mirrored output cleared disk) {root : Place}
    (hroot : disk.canonical output = .ok root) :
    cleared.at? root = none := by
  rcases hmirrored.free h.free with rfl | hfree
  · obtain ⟨entry, hfind⟩ := canonical_eq_ok.mp hroot
    have hthere := has_iff.mpr ⟨root, entry, hfind⟩
    rw [h.missing] at hthere
    exact absurd hthere (by simp)
  · exact hfree root hroot

/-- A file that was there is not in the output. -/
theorem Cleared.not_within {output : String} {cleared disk : Disk} (h : Cleared output cleared)
    (hmirrored : Fill.Mirrored output cleared disk) {root : Place}
    (hroot : disk.canonical output = .ok root)
    (hat : cleared.at? place = some (.file content executable)) : place.isWithin root = false := by
  rw [Bool.eq_false_iff]
  intro hin
  rw [h.sound.at?_within_eq_none (h.at?_output hmirrored hroot) hin] at hat
  exact absurd hat (by simp)

/-- A file that was there is still there after the output was pruned. -/
theorem Cleared.at?_prune {output mark : String} {patterns : List String} {set : IgnoreSet}
    {cleared disk : Disk} (h : Cleared output cleared) (hmirrored : Fill.Mirrored output cleared disk)
    (hset : IgnoreSet.ofPatterns output patterns = .ok set)
    (hat : cleared.at? place = some (.file content executable)) :
    (prune set mark disk).1.at? place = some (.file content executable) := by
  have hthere := hmirrored.at?_eq h.sound hat
  refine ((prune_left hmirrored.sound set mark).at?_eq ?_).trans hthere
  rintro ⟨root, hroot, hunwanted⟩
  rw [IgnoreSet.base_of_ofPatterns hset] at hroot
  have hwithin := hunwanted.isWithin
  rw [List.append_nil, h.not_within hmirrored hroot hat] at hwithin
  cases hwithin

/-- A file that was there is still there after the output, or what was left of it, was cleared again. -/
theorem Cleared.at?_clear {output : String} {cleared disk left : Disk} (h : Cleared output cleared)
    (hmirrored : Fill.Mirrored output cleared disk) (hsound : left.Sound) (hshrunk : Shrunk disk left)
    (hleft : left.at? place = some (.file content executable))
    (hat : cleared.at? place = some (.file content executable)) :
    (left.removeDirectory output).1.at? place = some (.file content executable) := by
  refine removeDirectory_left hsound hleft fun root entry hfind hdir => ?_
  have hlink : entry.isLink = false := by
    cases entry with
    | directory | history => rfl
    | file | link => exact absurd hdir (by simp [Entry.isDirectory])
  exact h.not_within hmirrored
    (canonical_grow hshrunk.grown (canonical_eq_ok.mpr ⟨entry, find_follow_last hfind hlink⟩)) hat

/-- What is done once the output was cleared spares the files that are there. -/
theorem onFailure_keeps (patterns : List String) (vars : Variables)
    (hcleared : Cleared dryRun.output world.disk)
    (hat : world.disk.at? place = some (.file content executable)) :
    (Work.onFailure
      (do
        fillDirectory dryRun.source patterns vars (.mirror dryRun.output)
        pruneDirectory dryRun.output patterns settings.internalMark)
      (clearDirectory dryRun.output)).Ends world
      (fun _ after => after.disk.at? place = some (.file content executable))
      fun _ after => after.disk.at? place = some (.file content executable) := by
  have hagain : ∀ (disk : Disk) (after : World), Fill.Mirrored dryRun.output world.disk disk →
      after.disk.Sound → Shrunk disk after.disk → after.disk.at? place = some (.file content executable) →
      (clearDirectory dryRun.output).Ends after
        (fun _ last => last.disk.at? place = some (.file content executable))
        fun _ last => last.disk.at? place = some (.file content executable) := by
    intro disk after hmirrored hsound hshrunk hleft
    have hlast := hcleared.at?_clear hmirrored hsound hshrunk hleft hat
    exact (clearDirectory_ends _ after).mono (fun _ last h => h.1 ▸ hlast) fun _ last h => h ▸ hlast
  have hfilled : ∀ after : World, Fill.Mirrored dryRun.output world.disk after.disk →
      (clearDirectory dryRun.output).Ends after
        (fun _ last => last.disk.at? place = some (.file content executable))
        fun _ last => last.disk.at? place = some (.file content executable) := fun after hmirrored =>
    hagain _ after hmirrored hmirrored.sound ⟨rfl, fun _ => Or.inl rfl⟩ (hmirrored.at?_eq hcleared.sound hat)
  have hmirrored :=
    Fill.fillDirectory_mirror dryRun.source patterns vars dryRun.output hcleared.sound hcleared.free
  have hfill :=
    Work.Ends.of_after (fun after => Fill.Mirrored dryRun.output world.disk after.disk) hmirrored
  refine .onFailure (.bind (hfill.mono (fun _ filled hmirrored => ?_) fun _ filled hmirrored =>
    hfilled filled hmirrored))
  refine (pruneDirectory_ends _ _ _ filled).mono ?_ ?_
  · rintro _ after ⟨set, hset, hprune⟩
    have hleft : (prune set settings.internalMark filled.disk).1.at? place = some (.file content executable) :=
      hcleared.at?_prune hmirrored hset hat
    rwa [hprune] at hleft
  · rintro _ after (rfl | ⟨set, hset, heq⟩)
    · exact hfilled after hmirrored
    · have hleft := prune_left hmirrored.sound set settings.internalMark
      exact hagain _ after hmirrored (heq ▸ hleft.sound hmirrored.sound) (heq ▸ hleft.shrunk)
        (heq ▸ hcleared.at?_prune hmirrored hset hat)

/-- **A file that is not cleared is still there when the output is filled**, or could not be. -/
theorem fillOutput_keeps (patterns : List String) (vars : Variables) (hsound : world.disk.Sound)
    (hfree : ∀ cleared, (clearDirectory dryRun.output).on world = (.ok (), cleared) →
      cleared.disk.IsFree dryRun.output)
    (hat : world.disk.at? place = some (.file content executable))
    (hout : ¬ Clears world.disk dryRun.output place) :
    (dryRun.fillOutput settings patterns vars).Ends world
      (fun _ after => after.disk.at? place = some (.file content executable))
      fun _ after => after.disk.at? place = some (.file content executable) := by
  have hleft : (world.disk.removeDirectory dryRun.output).1.at? place =
      some (.file content executable) := by
    refine removeDirectory_left hsound hat fun outer entry hfind hdir => ?_
    rw [Bool.eq_false_iff]
    exact fun hin => hout ⟨outer, entry, hfind, hdir, hin⟩
  have hclear := clearDirectory_ends dryRun.output world
  refine .bind ((Work.Ends.self _ world).mono (fun _ mid hon => ?_) fun _ mid hon => ?_)
  · obtain ⟨hmid, hgone⟩ := hclear.done_of_ok hon
    have hdisk : mid.disk = (world.disk.removeDirectory dryRun.output).1 := by rw [hmid]
    have hcleared : Cleared dryRun.output mid.disk := by
      refine ⟨hdisk ▸ hsound.removeDirectory _, ?_, hfree _ hon⟩
      rw [hdisk]
      exact has_removeDirectory hsound hgone
    exact onFailure_keeps patterns vars hcleared (hdisk ▸ hleft)
  · rw [hclear.failed_of_error hon]
    exact hleft

/-! ## A template in what is cleared -/

/-- Where a template is no longer there, nothing is filled. -/
theorem fillDirectory_missing {source : String} (patterns : List String) (vars : Variables)
    (mode : Fill.Mode)
    (hmissing : world.disk.has source = false) :
    (fillDirectory source patterns vars mode).Ends world (fun _ _ => False) fun _ after =>
      after = world := by
  refine .bind (.ask (fun root hroot => ?_) fun _ _ => rfl)
  obtain ⟨entry, hfind⟩ := canonical_eq_ok.mp hroot
  rw [has_iff.mpr ⟨root, entry, hfind⟩] at hmissing
  exact absurd hmissing (by simp)

/-- **If the template lies in what is cleared, all of it is lost**, and the dry run fails. -/
theorem fillOutput_loses (patterns : List String) (vars : Variables) {outer root : Place}
    {entry : Entry}
    (hfind : world.disk.find false dryRun.output = .ok (outer, entry))
    (hdir : entry.isDirectory = true)
    (hne : outer ≠ []) (hroot : world.disk.canonical dryRun.source = .ok root)
    (hin : root.isWithin outer = true)
    (hwhole : (world.disk.removeDirectory dryRun.output).2 = .ok () →
      (world.disk.removeDirectory dryRun.output).1.at? outer = none) :
    (dryRun.fillOutput settings patterns vars).Ends world (fun _ _ => False)
      fun _ after => ∀ place, place.isInside outer = true → after.disk.at? place = none := by
  have hclear := clearDirectory_ends dryRun.output world
  refine .bind ((Work.Ends.self _ world).mono (fun _ mid hon => ?_) fun _ mid hon => ?_)
  · obtain ⟨hmid, hgone⟩ := hclear.done_of_ok hon
    have hdisk : mid.disk = (world.disk.eraseInside outer).erase outer := by
      have hdone := hgone.resolve_right (removeDirectory_ne_missing hfind hdir)
      rw [hmid, removeDirectory_whole hfind hdir (hwhole hdone)]
    have hnone : ∀ place : Place, place ≠ [] → place.isWithin outer = true →
        mid.disk.at? place = none := by
      intro place hplace hwithin
      rw [hdisk, at?_erase, if_pos ⟨hplace, hwithin⟩]
    -- Nothing is where the template was, so nothing can be filled.
    have hshrunk : Shrunk world.disk mid.disk :=
      hdisk ▸ (shrunk_eraseInside _ outer).trans (shrunk_erase _ outer)
    have hrootNe : root ≠ [] := by
      rintro rfl
      obtain ⟨names, hnames⟩ := Place.exists_of_isWithin hin
      exact hne (by simpa using (List.append_eq_nil_iff.mp hnames.symm).1)
    obtain ⟨found, hfound⟩ := canonical_eq_ok.mp hroot
    have hmissing := has_eq_false_of_gone hfound hshrunk (hnone root hrootNe hin)
    refine .onFailure
      (.bind ((fillDirectory_missing patterns vars _ hmissing).mono (fun _ _ h => h.elim) ?_))
    rintro _ after rfl
    have hlast : ∀ place : Place, place.isInside outer = true →
        (after.disk.removeDirectory dryRun.output).1.at? place = none := by
      intro place hinside
      obtain ⟨names, hnames, rfl⟩ := Place.isInside_iff.mp hinside
      rcases (shrunk_removeDirectory after.disk dryRun.output).left (outer ++ names) with heq | hgone
      · rw [heq]
        exact hnone _ (by simp [hnames]) (Place.isWithin_append outer names)
      · exact hgone
    exact (clearDirectory_ends _ after).mono (fun _ last h => h.1 ▸ hlast) fun _ last h => h ▸ hlast
  · rw [hclear.failed_of_error hon]
    exact fun place hinside => removeDirectory_inside hfind hdir hinside

/-! ## The whole dry run -/

/-- A dry run that cannot be planned is over. -/
theorem run_on_error {failure : Failure} {mid : World}
    (h : (dryRun.plan settings).on world = (.error failure, mid)) :
    (dryRun.run settings).on world = (.error failure, world) := by
  obtain rfl : world = mid := ((plan_ends settings dryRun world).failed_of_error h).symm
  rw [run_eq, Work.on_bind, h]

/-- A dry run does what was planned. -/
theorem run_on_ok {patterns : List String} {vars : Variables} {mid : World}
    (h : (dryRun.plan settings).on world = (.ok (patterns, vars), mid)) :
    (dryRun.run settings).on world =
      (if dryRun.inTerminal then fillDirectory dryRun.source patterns vars .terminal
        else dryRun.fillOutput settings patterns vars).on world := by
  obtain rfl : world = mid := ((plan_ends settings dryRun world).done_of_ok h).symm
  rw [run_eq, Work.on_bind, h]

/-- A dry run that prints changes nothing. -/
theorem run_inTerminal (settings : Settings) (world : World) (hterminal : dryRun.inTerminal = true) :
    ((dryRun.run settings).on world).2.disk = world.disk := by
  cases hplan : (dryRun.plan settings).on world with
  | mk planned mid =>
      cases planned with
      | error failure => rw [run_on_error hplan]
      | ok planned =>
          obtain ⟨patterns, vars⟩ := planned
          rw [run_on_ok hplan, if_pos hterminal]
          exact Fill.fillDirectory_terminal _ _ _ world

theorem run_keeps (settings : Settings) (hsound : world.disk.Sound)
    (hterminal : dryRun.inTerminal = false)
    (hfree : ∀ cleared, (clearDirectory dryRun.output).on world = (.ok (), cleared) →
      cleared.disk.IsFree dryRun.output)
    (hat : world.disk.at? place = some (.file content executable))
    (hout : ¬ Clears world.disk dryRun.output place) :
    ((dryRun.run settings).on world).2.disk.at? place = some (.file content executable) := by
  cases hplan : (dryRun.plan settings).on world with
  | mk planned mid =>
      cases planned with
      | error failure => rw [run_on_error hplan, hat]
      | ok planned =>
          obtain ⟨patterns, vars⟩ := planned
          rw [run_on_ok hplan, if_neg (by simp [hterminal])]
          exact Work.Ends.always (fun after => after.disk.at? place = some (.file content executable))
            (fillOutput_keeps patterns vars hsound hfree hat hout)

/-- Whether the template lies in the directory that is cleared, and goes with it. -/
structure Swallows (dryRun : DryRun) (disk : Disk) (outer : Place) : Prop where
  found : ∃ entry, disk.find false dryRun.output = .ok (outer, entry) ∧ entry.isDirectory = true
  ne_root : outer ≠ []
  -- A path that leads through what is inside finds nothing to remove once that is gone.
  whole : (disk.removeDirectory dryRun.output).2 = .ok () →
    (disk.removeDirectory dryRun.output).1.at? outer = none
  source : ∃ root, disk.canonical dryRun.source = .ok root ∧ root.isWithin outer = true

theorem run_loses {outer : Place} (hterminal : dryRun.inTerminal = false)
    (hplan : ∃ planned, ((dryRun.plan settings).on world).1 = .ok planned)
    (h : dryRun.Swallows world.disk outer) :
    (∃ failure, ((dryRun.run settings).on world).1 = .error failure) ∧
      ∀ place, place.isInside outer = true →
        ((dryRun.run settings).on world).2.disk.at? place = none := by
  obtain ⟨⟨patterns, vars⟩, hplanned⟩ := hplan
  obtain ⟨entry, hfind, hdir⟩ := h.found
  obtain ⟨root, hroot, hin⟩ := h.source
  rw [run_on_ok (Prod.ext hplanned rfl), if_neg (by simp [hterminal])]
  have hends :=
    @fillOutput_loses settings dryRun world patterns vars _ _ _ hfind hdir h.ne_root hroot hin h.whole
  cases hon : (dryRun.fillOutput settings patterns vars).on world with
  | mk result after =>
      cases result with
      | ok => exact (hends.done_of_ok hon).elim
      | error failure => exact ⟨⟨failure, rfl⟩, hends.failed_of_error hon⟩

/-- **A dry run spares every file that is not in the directory that it clears**, and everything if it
prints or cannot be planned. A template in that directory is lost. -/
theorem run_spares_template (settings : Settings) (dryRun : DryRun) (world : World)
    (hsound : world.disk.Sound)
    (hfree : dryRun.inTerminal = false → ∀ cleared, (clearDirectory dryRun.output).on world =
      (.ok (), cleared) →
      cleared.disk.IsFree dryRun.output) :
    let result := (dryRun.run settings).on world
    let planned := ∃ planned, ((dryRun.plan settings).on world).1 = .ok planned
    (dryRun.inTerminal = true ∨ ¬ planned → result.2.disk = world.disk) ∧
    (∀ place content executable, world.disk.at? place = some (.file content executable) →
      ¬ Clears world.disk dryRun.output place →
      result.2.disk.at? place = some (.file content executable)) ∧
    (dryRun.inTerminal = false → planned → ∀ outer, dryRun.Swallows world.disk outer →
      (∃ failure, result.1 = .error failure) ∧
        ∀ place, place.isInside outer = true → result.2.disk.at? place = none) := by
  refine ⟨?_, fun place content executable hat hout => ?_, fun hterminal hplan outer h =>
    run_loses hterminal hplan h⟩
  · rintro (hterminal | hnot)
    · exact run_inTerminal settings world hterminal
    · cases hplan : (dryRun.plan settings).on world with
      | mk planned mid =>
          cases planned with
          | error failure => rw [run_on_error hplan]
          | ok planned => exact absurd ⟨planned, by rw [hplan]⟩ hnot
  · by_cases hterminal : dryRun.inTerminal = true
    · rw [run_inTerminal settings world hterminal, hat]
    · have hfiles : dryRun.inTerminal = false := by simpa using hterminal
      exact run_keeps settings hsound hfiles (hfree hfiles) hat hout

/-- A template with nothing in it but its manifest. -/
def templateDisk : Disk where
  tree := [(["t"], .directory), (["t", ".cloney.yaml"],
    .file "{name: a, template_version: 1.0.0, manifest_version: v1}".toUTF8 false)]
  directory := []

/-- A dry run that is to write where its template is. -/
def ownOutput : DryRun where
  source := "t"
  output := "t"
  variablesFrom := ""

theorem run_spares_template_output :
    (∃ failure, ((ownOutput.run .standard).on { disk := templateDisk }).1 = .error failure) ∧
      ((ownOutput.run .standard).on { disk := templateDisk }).2.disk.at?
        ["t", ".cloney.yaml"] = none := by
  have hfree : ((clearDirectory "t").on { disk := templateDisk }).2.disk.IsFree "t" := by
    decide +kernel
  obtain ⟨_, _, hloses⟩ := run_spares_template .standard ownOutput { disk := templateDisk }
    (by decide +kernel)
    fun _ cleared hclear => by
      rw [show ownOutput.output = "t" from rfl] at hclear ⊢
      rwa [hclear] at hfree
  have hplanned : ((ownOutput.plan .standard).on { disk := templateDisk }).1.isOk = true := by
    decide +kernel
  have hswallows : ownOutput.Swallows templateDisk ["t"] :=
    ⟨⟨.directory, by decide +kernel⟩, by simp, by decide +kernel, ["t"], by decide +kernel⟩
  have hplanned' : ∃ planned, ((ownOutput.plan .standard).on { disk := templateDisk }).1 =
    .ok planned := by
    cases hplan : ((ownOutput.plan .standard).on { disk := templateDisk }).1 with
    | ok planned => exact ⟨planned, rfl⟩
    | error failure =>
        rw [hplan] at hplanned
        exact absurd hplanned (by simp [Except.isOk, Except.toBool])
  obtain ⟨hfails, hgone⟩ := hloses rfl hplanned' ["t"] hswallows
  exact ⟨hfails, hgone _ (by decide)⟩

end Stencil.DryRun
