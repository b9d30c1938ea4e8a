import Stencil.Proofs.Files.Remaking
import Stencil.Proofs.Leftovers

/-!
# Dry runs again

A dry run clears its output before it fills the template, so what is there afterwards should not depend on what was
there before. It does not if two conditions are met. What the dry run reads first, which is the manifest and the
variables, has to be found without the output; and whatever there is at the output has to be taken away when that is
cleared. Two disks that differ in nothing else are the same then, and all that follows is (`run_independent_of_output`).

The dry run itself may change more than the output, for it makes directories around it. If no step up of the path is
taken behind what is missing, these are just the directories on the way. A second dry run finds them, and makes the
same of the output again, for the output alone is cleared and made once more (`run_again`). Steps up behind a missing
directory go elsewhere once that was made: what the first dry run has not cleared may be cleared by the second one.
-/

namespace Stencil.DryRun

open Files Files.Disk

variable {settings : Settings} {dryRun : DryRun} {world after : World} {disk disk' : Disk} {patterns : List String}
  {vars : Variables} {path : String} {room : Place}

/-! ## What is read first -/

/-- What a dry run reads to know what it is about. -/
def inputs (settings : Settings) (dryRun : DryRun) : List String :=
  Path.join dryRun.source settings.manifestFile :: (variablesFile? dryRun.variablesFrom).toList

/-- **Whether two disks tell a dry run the same** when it is planned. -/
structure PlansAlike (settings : Settings) (dryRun : DryRun) (disk disk' : Disk) : Prop where
  directory_eq : disk'.directory = disk.directory
  manifest : disk'.readText (Path.join dryRun.source settings.manifestFile) =
    disk.readText (Path.join dryRun.source settings.manifestFile)
  vars : ∀ path, variablesFile? dryRun.variablesFrom = some path →
    disk'.hasFile path = disk.hasFile path ∧ (disk.hasFile path = true → disk'.readText path = disk.readText path)

theorem PlansAlike.of_find (hdirectory : disk'.directory = disk.directory)
    (hfind : ∀ path ∈ dryRun.inputs settings, disk'.find true path = disk.find true path) :
    dryRun.PlansAlike settings disk disk' := by
  have htext : ∀ path ∈ dryRun.inputs settings, disk'.readText path = disk.readText path := fun path hpath => by
    simp only [readText, Disk.read, hfind path hpath]
  refine ⟨hdirectory, htext _ List.mem_cons_self, fun path hpath => ?_⟩
  have hmem : path ∈ dryRun.inputs settings := by simp [inputs, hpath]
  exact ⟨by simp only [hasFile, hfind path hmem], fun _ => htext path hmem⟩

theorem PlansAlike.plan_eq (h : dryRun.PlansAlike settings world.disk disk) :
    (dryRun.plan settings).on { world with disk } = (((dryRun.plan settings).on world).1, { world with disk }) := by
  simp only [plan, Work.on_bind, loadVariables_congr h.vars]
  rcases hload : (loadVariables dryRun.variablesFrom).on world with ⟨failure | given, mid⟩
  · rfl
  obtain rfl : mid = world := (loadVariables_ends _ world).done_of_ok hload
  simp only [readManifest_congr h.manifest]
  rcases hread : (readManifest settings dryRun.source).on mid with ⟨failure | manifest, last⟩
  · rfl
  obtain rfl : last = mid := (readManifest_ends settings _ mid).done_of_ok hread
  dsimp only
  cases given.bind manifest with
  | error fault => rfl
  | ok vars => simp [h.directory_eq]

/-- What was planned has a manifest. -/
theorem exists_find_of_plan (h : (dryRun.plan settings).on world = (.ok (patterns, vars), world)) :
    ∃ found, world.disk.find true (Path.join dryRun.source settings.manifestFile) = .ok found := by
  cases hfind : world.disk.find true (Path.join dryRun.source settings.manifestFile) with
  | ok found => exact ⟨found, rfl⟩
  | error fault =>
      have htext : world.disk.readText (Path.join dryRun.source settings.manifestFile) = .error fault := by
        simp only [readText, Disk.read, hfind]
      obtain ⟨manifest, hread, -⟩ := exists_manifest_of_plan h
      simp only [readManifest, readManifestText, Work.on_bind, Work.on_disk, htext] at hread
      cases fault <;> cases hread

/-- Whether what a dry run reads first is found as well once the output was cleared. It is not if it lies in the output,
or if its path leads through the output. -/
def ReadsAround (settings : Settings) (dryRun : DryRun) (disk : Disk) : Prop :=
  ∀ path ∈ dryRun.inputs settings, (disk.removeDirectory dryRun.output).1.find true path = disk.find true path

instance (settings : Settings) (dryRun : DryRun) (disk : Disk) : Decidable (dryRun.ReadsAround settings disk) :=
  inferInstanceAs (Decidable (∀ path ∈ dryRun.inputs settings,
    (disk.removeDirectory dryRun.output).1.find true path = disk.find true path))

/-! ## What is cleared -/

/-- **Whether two disks differ in nothing but what a path leads to**: for each of them that is a directory or
nothing, and if it is not there on both of them it goes when it is taken away. -/
structure DifferAt (path : String) (room : Place) (disk disk' : Disk) : Prop where
  directory_eq : disk'.directory = disk.directory
  around : ∀ place, place.isWithin room = false → disk'.at? place = disk.at? place
  held : disk.at? room = none ∨ ∃ entry, disk.find false path = .ok (room, entry) ∧ entry.isDirectory = true
  held' : disk'.at? room = none ∨ ∃ entry, disk'.find false path = .ok (room, entry) ∧ entry.isDirectory = true
  removed : disk'.at? room = disk.at? room ∨
    (disk.removeDirectory path).1.at? room = none ∧ (disk'.removeDirectory path).1.at? room = none

namespace DifferAt

theorem symm (h : DifferAt path room disk disk') : DifferAt path room disk' disk :=
  ⟨h.directory_eq.symm, fun place hout => (h.around place hout).symm, h.held', h.held,
    h.removed.imp Eq.symm And.symm⟩

/-- Without the room they are the same. -/
theorem erase_eq (h : DifferAt path room disk disk') (hsound : disk.Sound) (hsound' : disk'.Sound) :
    (disk'.eraseInside room).erase room = (disk.eraseInside room).erase room := by
  refine ((hsound.eraseInside room).erase room).eq_of_at? ((hsound'.eraseInside room).erase room) h.directory_eq
    fun place => ?_
  rw [at?_erase, at?_erase]
  split
  · rfl
  · rename_i hleft
    rw [at?_eraseInside, at?_eraseInside]
    split
    · rfl
    · by_cases hin : place.isWithin room = true
      · -- The root is left, whatever is done.
        obtain rfl : place = [] := not_not.mp fun hne => hleft ⟨hne, hin⟩
        rw [at?_root, at?_root]
      · exact h.around place (by simpa using hin)

/-- Where nothing is in the room there is nothing to clear. -/
theorem erase_of_none (hsound : disk.Sound) (hnone : disk.at? room = none) :
    (disk.eraseInside room).erase room = disk := by
  refine hsound.eq_of_at? ((hsound.eraseInside room).erase room) rfl fun place => ?_
  rw [at?_erase]
  split
  · rename_i hin
    exact (hsound.at?_within_eq_none hnone hin.2).symm
  · rw [at?_eraseInside]
    split
    · rename_i hin
      exact (hsound.at?_within_eq_none hnone (Bool.and_eq_true_iff.mp hin).1).symm
    · rfl

/-- If the two are not the same there, clearing the one takes away whatever is there. -/
theorem clear_of_ne (h : DifferAt path room world.disk disk') (hsound : world.disk.Sound)
    (hne : disk'.at? room ≠ world.disk.at? room) :
    (clearDirectory path).on world = (.ok (), { world with disk := (world.disk.eraseInside room).erase room }) := by
  obtain ⟨hgone, -⟩ := h.removed.resolve_left hne
  rcases h.held with hnone | ⟨entry, hfind, hdir⟩
  · -- The other one has a directory there, and what finds that finds nothing here.
    obtain ⟨entry, hfind, -⟩ := h.held'.resolve_left fun hnone' => hne (hnone'.trans hnone.symm)
    have hshrunk : Shrunk disk' world.disk := by
      refine ⟨h.directory_eq.symm, fun place => ?_⟩
      by_cases hin : place.isWithin room = true
      · exact Or.inr (hsound.at?_within_eq_none hnone hin)
      · exact Or.inl (h.around place (by simpa using hin)).symm
    have hmissing : world.disk.find false path = .error .notFound := by
      refine (hshrunk.find_or_missing hfind).resolve_left fun hthere => ?_
      rw [find_at? hthere] at hnone
      cases hnone
    rw [clearDirectory_on_missing hmissing, erase_of_none hsound hnone]
  · exact clearDirectory_on_done (removeDirectory_whole hfind hdir hgone)

/-- **Clearing makes them the same**, or does not succeed for either. -/
theorem clear_eq (h : DifferAt path room world.disk disk') (hsound : world.disk.Sound) (hsound' : disk'.Sound) :
    (clearDirectory path).on { world with disk := disk' } = (clearDirectory path).on world := by
  by_cases hroom : disk'.at? room = world.disk.at? room
  · rcases h.held with hnone | ⟨entry, hfind, hdir⟩
    · have hsame : disk' = world.disk := by
        rw [← erase_of_none hsound hnone, ← h.erase_eq hsound hsound',
          erase_of_none hsound' (hroom.trans hnone)]
      rw [hsame]
    · -- The same directory is there on both of them, so all that differs is inside of it.
      obtain ⟨entry', hfind', hdir'⟩ := h.held'.resolve_left fun hnone' => by
        rw [hroom, find_at? hfind] at hnone'
        cases hnone'
      have hinside : disk'.eraseInside room = world.disk.eraseInside room := by
        refine (hsound.eraseInside room).eq_of_at? (hsound'.eraseInside room) h.directory_eq fun place => ?_
        rw [at?_eraseInside, at?_eraseInside]
        split
        · rfl
        · rename_i hout
          by_cases hin : place.isWithin room = true
          · obtain rfl : place = room := by simpa [Place.isInside, hin] using hout
            exact hroom
          · exact h.around place (by simpa using hin)
      simp only [clearDirectory, Work.on_attempt, removeDirectory_of_directory hfind' hdir',
        removeDirectory_of_directory hfind hdir, hinside]
  · -- Otherwise whatever is there has to go, on either of them.
    rw [h.clear_of_ne hsound hroom, ← h.erase_eq hsound hsound']
    have hback : DifferAt path room (World.mk disk' world.printed world.complaints).disk world.disk := h.symm
    exact hback.clear_of_ne hsound' (Ne.symm hroom)

end DifferAt

/-! ## The same again -/

theorem deliver_silent (settings : Settings) (dryRun : DryRun) (patterns : List String) (vars : Variables) :
    (dryRun.deliver settings patterns vars).Silent :=
  .bind (Fill.fillDirectory_mirror_silent _ _ _ _) fun _ => pruneDirectory_silent _ _ _

/-- A dry run that succeeds has planned, cleared, and delivered. -/
theorem run_eq_ok (hfiles : dryRun.inTerminal = false) :
    (dryRun.run settings).on world = (.ok (), after) ↔ ∃ patterns vars cleared,
      (dryRun.plan settings).on world = (.ok (patterns, vars), world) ∧
        (clearDirectory dryRun.output).on world = (.ok (), cleared) ∧
          (dryRun.deliver settings patterns vars).on cleared = (.ok (), after) := by
  constructor
  · intro hrun
    rcases run_cases hfiles hrun with
      ⟨_, -, heq, -⟩ | ⟨patterns, vars, hplan, ⟨_, -, heq⟩ | ⟨cleared, hclear, ⟨hdeliver, -⟩ | ⟨_, _, -, heq, -⟩⟩⟩
    · cases heq
    · cases heq
    · exact ⟨patterns, vars, cleared, hplan, hclear, hdeliver⟩
    · cases heq
  · rintro ⟨patterns, vars, cleared, hplan, hclear, hdeliver⟩
    rw [run_on_ok hplan, if_neg (by simp [hfiles]), fillOutput_eq, Work.on_bind_of_ok hclear]
    exact Work.onFailure_on_ok _ hdeliver

/-- What is delivered was filled, and pruned. -/
theorem exists_of_deliver (h : (dryRun.deliver settings patterns vars).on world = (.ok (), after)) :
    ∃ filled set, (fillDirectory dryRun.source patterns vars (.mirror dryRun.output)).on world = (.ok (), filled) ∧
      IgnoreSet.ofPatterns dryRun.output patterns = .ok set ∧
        prune set settings.internalMark filled.disk = (after.disk, .ok ()) ∧
          (pruneDirectory dryRun.output patterns settings.internalMark).on filled = (.ok (), after) := by
  rw [deliver, Work.on_bind] at h
  rcases hfill : (fillDirectory dryRun.source patterns vars (.mirror dryRun.output)).on world with
    ⟨failure | ⟨⟩, filled⟩ <;> rw [hfill] at h
  · cases h
  · obtain ⟨set, hset, hprune⟩ := (pruneDirectory_ends _ _ _ filled).done_of_ok h
    exact ⟨filled, set, rfl, hset, hprune, h⟩

/-- **What was delivered to an output that was missing** is all that is inside of its directory, nothing of it is
unwanted, all that was there before is still there, and nothing is made but the directory and those around it. -/
structure Delivered (settings : Settings) (dryRun : DryRun) (patterns : List String) (root : Place)
    (old new : Disk) : Prop where
  sound : new.Sound
  canonical : (old.makeDirectories dryRun.output).1.canonical dryRun.output = .ok root
  around : SameAround root (old.makeDirectories dryRun.output).1 new
  kept : ∀ place entry, old.at? place = some entry → new.at? place = some entry
  clean : ∃ set, IgnoreSet.ofPatterns dryRun.output patterns = .ok set ∧ ∀ names entry,
    new.at? (root ++ names) = some entry → ∀ front, front ≠ [] → front <+: names →
      ¬ IsUnwantedPath set settings.internalMark front

theorem delivered_of_ok (hsound : world.disk.Sound) (hmissing : world.disk.hasEntry dryRun.output = false)
    (hclimb : world.disk.CanClimb dryRun.output)
    (h : (dryRun.deliver settings patterns vars).on world = (.ok (), after)) :
    ∃ root, dryRun.Delivered settings patterns root world.disk after.disk := by
  obtain ⟨filled, set, hfill, hset, hprune, -⟩ := exists_of_deliver h
  have hfree := isFree_of_missing hsound (has_of_no_entry hmissing) hclimb
  obtain ⟨hmirrored, root, hroot, hwrote⟩ :=
    (Fill.fillDirectory_mirror_ends dryRun.source patterns vars dryRun.output hsound hfree).done_of_ok hfill
  -- The directory that was made is reached by its path all the time, whatever comes to be inside.
  have hmade := reaches_made hsound hmissing hclimb hroot
  have hfilled := SameAround.of_writesOnly hwrote.2 hmade.holds
  have hreach : filled.disk.Reaches set.base root := by
    rw [IgnoreSet.base_of_ofPatterns hset]
    exact hmade.of_same hfilled
  have hpruned := prune_sameAround hmirrored.sound set settings.internalMark hreach.canonical_eq
  obtain ⟨new, heq, hclean⟩ := prune_eq hmirrored.sound hreach.find_eq rfl
    (canonical_prune hmirrored.sound settings.internalMark hreach)
  have hsound' := (prune_left hmirrored.sound set settings.internalMark).sound hmirrored.sound
  rw [hprune] at hpruned heq hsound'
  obtain ⟨rfl, -⟩ := Prod.mk.inj heq
  refine ⟨root, hsound', hroot, hfilled.trans hpruned, fun place entry hat => ?_, set, hset,
    fun names entry hat front hfront hprefix => ?_⟩
  · -- What was there before does not lie where nothing was.
    have hout : place.isInside root = false := by
      simp [Place.isInside, hsound.not_isWithin hat (hfree root hroot)]
    rw [hpruned.at?_eq place hout, hmirrored.at?_eq hsound hat]
  · have hne : names ≠ [] := by
      rintro rfl
      exact hfront (List.prefix_nil.mp hprefix)
    obtain ⟨hthere, hwanted⟩ := (hclean names entry hne).mp hat
    have hbase : set.base ≠ "" := (find_iff_leads.mp hreach.find_eq).1.ne_empty
    exact (not_prunes_iff hmirrored.sound hbase hthere).mp hwanted front hfront hprefix

/-- What a dry run has read it reads again, where all that was there still is. -/
theorem plansAlike_of_kept (hplan : (dryRun.plan settings).on world = (.ok (patterns, vars), world))
    (hreads : dryRun.ReadsAround settings world.disk) (hdirectory : disk.directory = world.disk.directory)
    (hkept : ∀ place entry, (world.disk.removeDirectory dryRun.output).1.at? place = some entry →
      disk.at? place = some entry)
    (hmissing : ∀ path, variablesFile? dryRun.variablesFrom = some path → world.disk.hasFile path = false →
      disk.hasFile path = false) : dryRun.PlansAlike settings world.disk disk := by
  -- A file that is found is found on what is left as well, and nothing of that is lost.
  have hfind : ∀ path ∈ dryRun.inputs settings, ∀ found, world.disk.find true path = .ok found →
      disk.find true path = world.disk.find true path := by
    intro path hpath found hfound
    have hcleared := (hreads path hpath).trans hfound
    have hdirectory' : disk.directory = (world.disk.removeDirectory dryRun.output).1.directory :=
      hdirectory.trans (shrunk_removeDirectory world.disk dryRun.output).directory_eq.symm
    rw [hfound, find_kept hdirectory' hkept hcleared]
  refine ⟨hdirectory, ?_, fun path hpath => ?_⟩
  · obtain ⟨found, hfound⟩ := exists_find_of_plan hplan
    simp only [readText, Disk.read, hfind _ List.mem_cons_self found hfound]
  · cases hthere : world.disk.hasFile path with
    | false => exact ⟨hmissing path hpath hthere, by simp⟩
    | true =>
        cases hfound : world.disk.find true path with
        | error fault => simp [hasFile, hfound] at hthere
        | ok found =>
            have heq := hfind path (by simp [inputs, hpath]) found hfound
            exact ⟨by simpa only [hasFile, heq] using hthere, fun _ => by simp only [readText, Disk.read, heq]⟩

/-- **A dry run that succeeds has delivered to its directory**, and makes the same of it again. -/
theorem run_again (hsound : world.disk.Sound) (hfiles : dryRun.inTerminal = false)
    (hclimb : (world.disk.removeDirectory dryRun.output).1.CanClimb dryRun.output)
    (hreads : dryRun.ReadsAround settings world.disk) (hrun : (dryRun.run settings).on world = (.ok (), after)) :
    ∃ root patterns vars, (dryRun.plan settings).on world = (.ok (patterns, vars), world) ∧
      after.disk.find false dryRun.output = .ok (root, .directory) ∧
      dryRun.Delivered settings patterns root (world.disk.removeDirectory dryRun.output).1 after.disk ∧
      ((∀ path, variablesFile? dryRun.variablesFrom = some path → world.disk.hasFile path = false →
        after.disk.hasFile path = false) → (dryRun.run settings).on after = (.ok (), after)) := by
  obtain ⟨patterns, vars, cleared, hplan, hclear, hdeliver⟩ := (run_eq_ok hfiles).mp hrun
  obtain ⟨hcleared, hsound', hnone⟩ := cleared_of_ok hsound hclear
  have hdisk : cleared.disk = (world.disk.removeDirectory dryRun.output).1 := by rw [hcleared]
  obtain ⟨root, hdelivered⟩ := delivered_of_ok hsound' hnone (hdisk ▸ hclimb) hdeliver
  obtain ⟨hfind, base, hgrown, hmake, hremove⟩ :=
    removeDirectory_of_made hsound' hnone (hdisk ▸ hclimb) hdelivered.canonical hdelivered.sound hdelivered.around
  refine ⟨root, patterns, vars, hplan, hfind, hdisk ▸ hdelivered, fun hmissing => ?_⟩
  -- Clearing once more leaves the disk that the directory was made on, with those around it. From there all goes as
  -- it did from the disk that was cleared first.
  have hafter : after = { cleared with disk := after.disk } := by
    have hsilent := deliver_silent settings dryRun patterns vars cleared
    rwa [hdeliver] at hsilent
  refine (run_eq_ok hfiles).mpr ⟨patterns, vars, { cleared with disk := base }, ?_, ?_, ?_⟩
  · have hdirectory : after.disk.directory = world.disk.directory := by
      rw [hdelivered.around.directory_eq, (hsound'.makeDirectories _).2.directory_eq, hdisk,
        (shrunk_removeDirectory world.disk dryRun.output).directory_eq]
    have hsame := (plansAlike_of_kept hplan hreads hdirectory (hdisk ▸ hdelivered.kept) hmissing).plan_eq
    have hworld : after = { world with disk := after.disk } := by
      rw [hcleared] at hafter
      exact hafter
    rwa [hplan, ← hworld] at hsame
  · rw [clearDirectory_on_done hremove]
    exact congrArg (fun last : World => (Except.ok (), { last with disk := base })) hafter
  · obtain ⟨filled, set, hfill, -, -, hpruned⟩ := exists_of_deliver hdeliver
    have hagain := Fill.fillDirectory_of_made hgrown hmake hfill
    rw [deliver, Work.on_bind_of_ok hagain]
    exact hpruned

/-- **What a dry run makes does not depend on what was at its output before**: on two disks that differ in nothing
else it ends with the same result, and in the same way if it succeeds. There is a directory then with nothing in it
that is unwanted, if the path of the output can climb once that was cleared, and from there a second dry run ends
where it has started. -/
theorem run_independent_of_output (settings : Settings) (dryRun : DryRun) (world : World) (disk' : Disk) (room : Place)
    (hfiles : dryRun.inTerminal = false) (hsound : world.disk.Sound) (hsound' : disk'.Sound)
    (hdiffer : DifferAt dryRun.output room world.disk disk') (hreads : dryRun.ReadsAround settings world.disk)
    (hreads' : dryRun.ReadsAround settings disk') :
    ((dryRun.run settings).on { world with disk := disk' }).1 = ((dryRun.run settings).on world).1 ∧
    ∀ after, (dryRun.run settings).on world = (.ok (), after) →
      (dryRun.run settings).on { world with disk := disk' } = (.ok (), after) ∧
      ((world.disk.removeDirectory dryRun.output).1.CanClimb dryRun.output →
        ∃ root patterns vars set, after.disk.find false dryRun.output = .ok (root, .directory) ∧
          (dryRun.plan settings).on world = (.ok (patterns, vars), world) ∧
          IgnoreSet.ofPatterns dryRun.output patterns = .ok set ∧
          (∀ names entry, after.disk.at? (root ++ names) = some entry → ∀ front, front ≠ [] → front <+: names →
            ¬ IsUnwantedPath set settings.internalMark front) ∧
          ((∀ path, variablesFile? dryRun.variablesFrom = some path → world.disk.hasFile path = false →
            after.disk.hasFile path = false) → (dryRun.run settings).on after = (.ok (), after))) := by
  have hclear := hdiffer.clear_eq hsound hsound'
  have hcleared : (disk'.removeDirectory dryRun.output).1 = (world.disk.removeDirectory dryRun.output).1 := by
    rw [← clearDirectory_disk dryRun.output world, ← hclear]
    exact (clearDirectory_disk dryRun.output { world with disk := disk' }).symm
  -- What is read is found on what is left, and that is the same for both.
  have hplan' := (PlansAlike.of_find hdiffer.directory_eq fun path hpath => by
    rw [← hreads path hpath, ← hreads' path hpath, hcleared] : dryRun.PlansAlike settings world.disk disk').plan_eq
  rcases hplan : (dryRun.plan settings).on world with ⟨failure | ⟨patterns, vars⟩, mid⟩ <;> rw [hplan] at hplan'
  · rw [run_on_error hplan, run_on_error hplan']
    refine ⟨rfl, fun after hrun => ?_⟩
    cases congrArg Prod.fst hrun
  · have hsame : (dryRun.run settings).on { world with disk := disk' } = (dryRun.run settings).on world := by
      rw [run_on_ok hplan, run_on_ok hplan', if_neg (by simp [hfiles]), fillOutput_eq, Work.on_bind, Work.on_bind,
        hclear]
    refine ⟨by rw [hsame], fun after hrun => ⟨hsame.trans hrun, fun hclimb => ?_⟩⟩
    obtain ⟨root, patterns, vars, hplanned, hfind, hdelivered, hagain⟩ := run_again hsound hfiles hclimb hreads hrun
    obtain ⟨set, hset, hclean⟩ := hdelivered.clean
    obtain rfl : mid = world := (plan_ends settings dryRun world).done_of_ok hplan
    exact ⟨root, patterns, vars, set, hfind, hplan ▸ hplanned, hset, hclean, hagain⟩

/-- A template with a file that only helps to make others, and with an output in it where an old file is. -/
def staleTemplate : World where
  disk := { directory := [], tree := [(["t"], .directory),
    (["t", ".cloney.yaml"], .file "{name: a, template_version: 1.0.0, manifest_version: v1}".toUTF8 false),
    (["t", "__p"], .file "p".toUTF8 false), (["t", "a"], .file "a".toUTF8 false), (["t", "o"], .directory),
    (["t", "o", "s"], .file "s".toUTF8 false)] }

/-- A dry run of it. -/
def staleRun : DryRun where
  source := "t"
  output := "t/o"
  variablesFrom := ""

theorem run_independent_of_output_stale :
    staleTemplate.disk.at? ["t", "o", "s"] = some (.file "s".toUTF8 false) ∧
      ∃ after root, (staleRun.run .standard).on staleTemplate = (.ok (), after) ∧
        (staleRun.run .standard).on { staleTemplate with disk := staleTemplate.disk.erase ["t", "o"] } =
          (.ok (), after) ∧
        after.disk.find false "t/o" = .ok (root, .directory) ∧ after.disk.at? (root ++ ["__p"]) = none ∧
        (staleRun.run .standard).on after = (.ok (), after) := by
  have hdiffer : DifferAt "t/o" ["t", "o"] staleTemplate.disk (staleTemplate.disk.erase ["t", "o"]) :=
    { directory_eq := rfl
      around := fun place hout => by rw [at?_erase, if_neg (by simp [hout])]
      held := Or.inr ⟨.directory, by decide +kernel, rfl⟩
      held' := Or.inl (by decide +kernel)
      removed := Or.inr ⟨by decide +kernel, by decide +kernel⟩ }
  have hdone : ((staleRun.run .standard).on staleTemplate).1 = .ok () := by decide +kernel
  obtain ⟨-, hruns⟩ := run_independent_of_output .standard staleRun staleTemplate (staleTemplate.disk.erase ["t", "o"])
    ["t", "o"] rfl (by decide +kernel) (by decide +kernel) hdiffer (by decide +kernel) (by decide +kernel)
  obtain ⟨hrun', hfull⟩ := hruns _ (Prod.ext hdone rfl)
  obtain ⟨root, patterns, vars, set, hfind, -, -, hclean, hagain⟩ :=
    hfull ((upFirst_of_names (by decide +kernel)).canClimb _)
  refine ⟨by decide +kernel, _, root, Prod.ext hdone rfl, hrun', hfind, ?_, hagain fun path hpath => ?_⟩
  · cases hat : ((staleRun.run .standard).on staleTemplate).2.disk.at? (root ++ ["__p"]) with
    | none => rfl
    | some entry =>
        exact absurd (Or.inl ⟨by decide, "__p", rfl, by decide +kernel⟩)
          (hclean ["__p"] entry hat ["__p"] (by simp) List.prefix_rfl)
  · cases (show variablesFile? "" = none by decide +kernel).symm.trans hpath

/-- Behind a directory that is missing at first a step up leads to something that only a second dry run clears. -/
example :
    let world : World := { disk := { staleTemplate.disk with tree := (["o"], .directory) ::
      (["o", "s"], .file "s".toUTF8 false) :: staleTemplate.disk.tree } }
    let once := ({ staleRun with output := "x/../o" }.run .standard).on world
    let twice := ({ staleRun with output := "x/../o" }.run .standard).on once.2
    once.1 = .ok () ∧ twice.1 = .ok () ∧ once.2.disk.at? ["o", "s"] = some (.file "s".toUTF8 false) ∧
      twice.2.disk.at? ["o", "s"] = none := by decide +kernel

end Stencil.DryRun
