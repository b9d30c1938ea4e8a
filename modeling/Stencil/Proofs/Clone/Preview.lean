import Stencil.Proofs.Clone.Removal
import Stencil.Proofs.Files.Pruning
import Stencil.Proofs.Fill.Intact
import Stencil.Proofs.Fill.Twins
import Stencil.Proofs.Planning

/-!
# What a dry run shows of a clone

A dry run and a clone do the same work in two ways. A dry run copies the template into its output as it is
filled, and prunes that by the patterns of the fill and by names; a clone takes the manifest out of what was
fetched, fills the rest in place, and prunes it by names only. All the same, either both fail, and for the same
reason, or both succeed, and what is not ignored is in the output as it is in the clone
(`DryRun.run_previews_clone`).

The two start from two directories with the same contents (`Disk.contents`), and what a fill is going to do
depends on nothing else (`Fill.Twins`). Each of the two ignores some files of its own, a dry run its output and
the file of the variables if they lie in the template, a clone whatever has the name of the file of the
variables. That must not matter (`AddsNothing`), and it does where a template has a file of that name and the
variables are somewhere else (`DryRun.preview_misses_namesake`).
-/

namespace Stencil

open Files Files.Disk

/-! ## Templates -/

namespace Files.Disk

variable {disk disk' : Disk} {root root' names : Place} {entry : Entry}

/-- What is in a directory, but for what belongs to a repository. -/
def contents (disk : Disk) (root : Place) : List (Place × Entry) :=
  (disk.tree.inside root).filter fun found => found.1.head? ≠ some storeName

theorem mem_contents (hsound : disk.Sound) : (names, entry) ∈ disk.contents root ↔
    names ≠ [] ∧ names.head? ≠ some storeName ∧ disk.at? (root ++ names) = some entry := by
  rw [contents, List.mem_filter, hsound.mem_inside, decide_eq_true_eq]
  exact ⟨fun h => ⟨h.1.1, h.2, h.1.2⟩, fun h => ⟨⟨h.1, h.2.2⟩, h.2.1⟩⟩

/-- Directories with the same contents have the same at the same names. -/
theorem at?_eq_of_contents (hsound : disk.Sound) (hsound' : disk'.Sound)
    (h : disk'.contents root' = disk.contents root) (hne : names ≠ [])
    (hstore : names.head? ≠ some storeName) : disk'.at? (root' ++ names) = disk.at? (root ++ names) := by
  refine Option.ext fun entry => ?_
  have hmem : (names, entry) ∈ disk.contents root ↔ _ := mem_contents hsound
  have hmem' : (names, entry) ∈ disk'.contents root' ↔ _ := mem_contents hsound'
  rw [h] at hmem'
  simpa [hne, hstore] using hmem'.symm.trans hmem

end Files.Disk

/-- Whether the text of a file, if it has one, is quiet. -/
def Files.Entry.IsQuiet : Entry → Prop
  | .file content _ => ∀ text ∈ String.fromUTF8? content, Fill.Quiet text
  | _ => True

instance : DecidablePred Files.Entry.IsQuiet
  | .file content _ => inferInstanceAs (Decidable (∀ text ∈ String.fromUTF8? content, Fill.Quiet text))
  | .directory | .link _ | .history _ => isTrue trivial

/-- **What a template has to be for its fill to be foreseen**: there are no links in it, it has a manifest, and
no other file mentions the function that writes files or the name of the writer. -/
structure IsPlain (settings : Settings) (files : List (Place × Entry)) : Prop where
  noLinks : ∀ found ∈ files, found.2.isLink = false
  manifest : ∃ content executable, ([settings.manifestFile], .file content executable) ∈ files
  quiet : ∀ found ∈ files, found.1 ≠ [settings.manifestFile] → found.2.IsQuiet

/-- **Whether settings keep a template's own files out of it**: the manifest and the repository are always
ignored, and no template can be loaded by the name of the manifest. -/
structure Settings.HidesOwn (settings : Settings) : Prop where
  hidden : settings.manifestFile.toList.head? = some '.'
  manifest : IgnoreSet.ignoredBy settings.knownIgnorePaths [settings.manifestFile] = true
  store : IgnoreSet.ignoredBy settings.knownIgnorePaths [storeName] = true

theorem Settings.standard_hidesOwn : Settings.standard.HidesOwn :=
  ⟨by decide +kernel, by decide +kernel, by decide +kernel⟩

/-- Whether some names lead to a part of a template that a clone has, too, when it is filled. -/
def IsShared (settings : Settings) (names : Place) : Prop :=
  names.head? ≠ some storeName ∧ names ≠ [settings.manifestFile]

/-- **Whether some patterns add nothing to others**: they can be read, and the files of a template that they
ignore are ignored anyway. -/
structure AddsNothing (own others : List String) (files : List (Place × Entry)) : Prop where
  readable : (IgnoreSet.parsePatterns own).isOk = true
  ignored : (IgnoreSet.parsePatterns others).isOk = true → ∀ found ∈ files, found.2.isFile = true →
    IgnoreSet.ignoredBy own found.1 = true → IgnoreSet.ignoredBy others found.1 = true

namespace AddsNothing

variable {own others : List String} {files : List (Place × Entry)} {names : Place} {entry : Entry}

theorem exists_parsed (h : AddsNothing own others files) :
    ∃ parsed, IgnoreSet.parsePatterns own = .ok parsed := by
  have hok := h.readable
  cases hparsed : IgnoreSet.parsePatterns own with
  | ok parsed => exact ⟨parsed, rfl⟩
  | error fault =>
      rw [hparsed] at hok
      cases hok

/-- A file of the template is ignored by all of the patterns if it is by the others. -/
theorem ignoredBy_eq (h : AddsNothing own others files) {parsed : List IgnorePattern}
    (hothers : IgnoreSet.parsePatterns others = .ok parsed) (hmem : (names, entry) ∈ files)
    (hfile : entry.isFile = true) :
    IgnoreSet.ignoredBy (own ++ others) names = IgnoreSet.ignoredBy others names := by
  obtain ⟨mine, hown⟩ := h.exists_parsed
  have hothersOk : (IgnoreSet.parsePatterns others).isOk = true := by
    rw [hothers]
    rfl
  have himp := h.ignored hothersOk (names, entry) hmem hfile
  rw [IgnoreSet.ignoredBy_append hown hothers, Bool.or_eq_right_iff_imp]
  exact himp

end AddsNothing

/-- What every template leaves out is left out by the patterns of each. -/
theorem Manifest.ignoredBy_of_known {settings : Settings} {extra : List String} {manifest : Manifest}
    {parsed : List IgnorePattern} {names : Place}
    (hparsed : IgnoreSet.parsePatterns (manifest.ignorePatterns settings extra) = .ok parsed)
    (h : IgnoreSet.ignoredBy settings.knownIgnorePaths names = true) :
    IgnoreSet.ignoredBy (manifest.ignorePatterns settings extra) names = true := by
  unfold ignorePatterns at hparsed ⊢
  obtain ⟨front, own, hfront, hown⟩ := IgnoreSet.exists_of_parsePatterns_append hparsed
  obtain ⟨mine, known, hmine, hknown⟩ := IgnoreSet.exists_of_parsePatterns_append hfront
  rw [IgnoreSet.ignoredBy_append hfront hown, IgnoreSet.ignoredBy_append hmine hknown, h]
  simp

/-- What is not ignored is shared. -/
theorem Settings.HidesOwn.isShared {settings : Settings} (h : settings.HidesOwn) {extra : List String}
    {manifest : Manifest} {parsed : List IgnorePattern} {names : Place}
    (hparsed : IgnoreSet.parsePatterns (manifest.ignorePatterns settings extra) = .ok parsed)
    (hkept : IgnoreSet.ignoredBy (manifest.ignorePatterns settings extra) names = false) :
    IsShared settings names := by
  have hnot : ∀ s, IgnoreSet.ignoredBy settings.knownIgnorePaths [s] = true → ¬ [s] <+: names := by
    intro s hs hprefix
    rw [Manifest.ignoredBy_of_known hparsed (IgnoreSet.ignoredBy_inner hs hprefix)] at hkept
    cases hkept
  refine ⟨fun hstore => ?_, fun hmanifest => ?_⟩
  · obtain ⟨rest, rfl⟩ := List.head?_eq_some_iff.mp hstore
    exact hnot _ h.store (by simp)
  · exact hnot _ h.manifest (hmanifest ▸ List.prefix_rfl)

/-! ## A dry run and a clone of the same template -/

namespace DryRun

variable {settings : Settings} {dryRun : DryRun} {clone : Clone} {files : List (Place × Entry)}
  {world fetched : World} {root out room names : Place} {manifest : Manifest} {vars given : Variables}
  {entry : Entry}

/-- **Whether a dry run and a clone are about the same template** with the same variables: the dry run can make
its output apart from the template, and the clone can be fetched. -/
structure Corresponds (settings : Settings) (dryRun : DryRun) (clone : Clone) (files : List (Place × Entry))
    (world fetched : World) (root out room : Place) : Prop where
  noTerminal : dryRun.inTerminal = false
  sameVariables : clone.variablesFrom = dryRun.variablesFrom
  plain : IsPlain settings files
  source : world.disk.find true dryRun.source = .ok (root, .directory)
  contents : world.disk.contents root = files
  outputMissing : world.disk.find false dryRun.output = .error .notFound
  apart : world.disk.IsApart dryRun.output root out
  destinationMissing : world.disk.has clone.destination = false
  vacant : world.disk.IsVacant clone.destination
  cloned : (clone.repository.cloneInto clone.destination).on world = (.ok (), fetched)
  destination : fetched.disk.canonical clone.destination = .ok room
  fetchedContents : fetched.disk.contents room = files

/-- **Whether a dry run is a preview of a clone**: what each of the two ignores for itself does not matter, either. -/
structure Previews (settings : Settings) (dryRun : DryRun) (clone : Clone) (files : List (Place × Entry))
    (world fetched : World) (root out room : Place) : Prop
    extends Corresponds settings dryRun clone files world fetched root out room where
  ownPaths : ∀ manifest, (readManifest settings dryRun.source).on world = (.ok manifest, world) →
    AddsNothing (dryRun.ownPaths world.disk.directory) (manifest.ignorePatterns settings []) files
  ownPatterns : ∀ manifest, (readManifest settings dryRun.source).on world = (.ok manifest, world) →
    AddsNothing clone.ownPatterns (manifest.ignorePatterns settings []) files

/-- **Whether a dry run and a clone come to the same**: either both fail before any command is run, and for the
same reason, or both succeed, and whatever is not ignored in every fill of the template is a file of the output
if and only if it is a file of the clone before its commands are run, with the same bytes and permissions. -/
def ComesToSame (settings : Settings) (dryRun : DryRun) (clone : Clone) (world : World) (out room : Place) :
    Prop :=
  (∃ failure, ((dryRun.run settings).on world).1 = .error failure ∧
    ∀ shell, ((clone.run settings shell).on world).1 = .error failure) ∨
  ∃ manifest after cloned, (readManifest settings dryRun.source).on world = (.ok manifest, world) ∧
    (dryRun.run settings).on world = (.ok (), after) ∧
    (∀ shell, (clone.run settings shell).on world =
      (runHooks shell clone.destination manifest.configuration.postCloneCommands).on cloned) ∧
    ∀ names content executable, names ≠ [] →
      IgnoreSet.ignoredBy (manifest.ignorePatterns settings []) names = false →
      (after.disk.at? (out ++ names) = some (.file content executable) ↔
        cloned.disk.at? (room ++ names) = some (.file content executable))

/-- What was fetched without its manifest. -/
def bare (settings : Settings) (fetched : World) (room : Place) : Disk :=
  fetched.disk.erase (room ++ [settings.manifestFile])

namespace Previews

variable (h : Previews settings dryRun clone files world fetched root out room) (hsound : world.disk.Sound)

include h hsound

theorem fetched_room : Repository.Fetched clone.destination room fetched.disk := by
  obtain ⟨there, hfetched⟩ := Clone.exists_fetched hsound h.vacant h.cloned
  have heq := h.destination
  rw [hfetched.reaches.canonical_eq, Except.ok.injEq] at heq
  exact heq ▸ hfetched

theorem bare_room : Repository.Fetched clone.destination room (bare settings fetched room) := by
  have hfetched := h.fetched_room hsound
  exact Clone.fetched_of_same hfetched (hfetched.sound.erase _)
    (.erase _ (Place.isInside_append _ (by simp)))

/-- What is in the template is in what was fetched. -/
theorem at?_fetched (hne : names ≠ []) (hstore : names.head? ≠ some storeName) :
    fetched.disk.at? (room ++ names) = world.disk.at? (root ++ names) :=
  at?_eq_of_contents hsound (h.fetched_room hsound).sound (h.fetchedContents.trans h.contents.symm) hne hstore

theorem mem_files : (names, entry) ∈ files ↔
    names ≠ [] ∧ names.head? ≠ some storeName ∧ world.disk.at? (root ++ names) = some entry :=
  h.contents ▸ mem_contents hsound

/-- Both have the same manifest, and it can be taken out. -/
theorem manifest_read : ∃ content,
    world.disk.read (Path.join dryRun.source settings.manifestFile) = .ok content ∧
    fetched.disk.read (Path.join clone.destination settings.manifestFile) = .ok content ∧
    fetched.disk.removeFile (Path.join clone.destination settings.manifestFile) =
      .ok (bare settings fetched room) := by
  obtain ⟨content, executable, hmem⟩ := h.plain.manifest
  obtain ⟨hne, hstore, hat⟩ := (h.mem_files hsound).mp hmem
  have hfetched := h.fetched_room hsound
  have hat' := (h.at?_fetched hsound hne hstore).trans hat
  refine ⟨content, ?_, ?_, ?_⟩
  · simp only [Disk.read, find_name hsound h.source hat]
  · simp only [Disk.read, find_name hfetched.sound hfetched.reaches.find_eq hat']
  · simp only [removeFile, find_name hfetched.sound hfetched.reaches.find_eq hat', Entry.isDirectory,
      Bool.false_eq_true, if_false, bare]

/-- Nothing is inside of the manifest. -/
theorem at?_manifest_inner (hne : names ≠ []) :
    world.disk.at? (root ++ settings.manifestFile :: names) = none := by
  obtain ⟨content, executable, hmem⟩ := h.plain.manifest
  obtain ⟨_, _, hat⟩ := (h.mem_files hsound).mp hmem
  cases hinner : world.disk.at? (root ++ settings.manifestFile :: names) with
  | none => rfl
  | some entry =>
      have hin : Place.isWithin (root ++ settings.manifestFile :: names) (root ++ [settings.manifestFile]) =
          true := Place.isWithin_iff.mpr ⟨names, by simp⟩
      have heq := hsound.eq_of_isWithin hat rfl hinner hin
      exact absurd (by simpa using heq) hne

/-- **The template and what was fetched are the same** as far as a fill is concerned. -/
theorem twins (hown : settings.HidesOwn) : Fill.Twins (IsShared settings) world.disk dryRun.source root
    (bare settings fetched room) clone.destination room := by
  have hbare := h.bare_room hsound
  refine ⟨hsound, hbare.sound, h.source, hbare.reaches.find_eq, fun names hnames => ⟨?_, ?_⟩,
    fun names hshared => ?_, fun names hshared target hlink => ?_⟩
  · intro hstore
    exact hnames storeName (List.mem_of_mem_head? (by rw [hstore]; rfl)) (by decide +kernel)
  · rintro rfl
    exact hnames settings.manifestFile List.mem_cons_self hown.hidden
  · by_cases hne : names = []
    · rw [hne, List.append_nil, List.append_nil, find_at? h.source, find_at? hbare.reaches.find_eq]
    · rw [bare, at?_erase]
      split
      · rename_i hwithin
        obtain ⟨more, hmore⟩ := Place.exists_of_isWithin hwithin.2
        obtain rfl : names = settings.manifestFile :: more := by simpa using hmore
        refine (h.at?_manifest_inner hsound fun hnil => hshared.2 ?_).symm
        rw [hnil]
      · exact h.at?_fetched hsound hne hshared.1
  · by_cases hne : names = []
    · rw [hne, List.append_nil, find_at? h.source] at hlink
      cases hlink
    · have hnot := h.plain.noLinks _ ((h.mem_files hsound).mpr ⟨hne, hshared.1, hlink⟩)
      cases hnot

omit hsound in
/-- A file is not at the directory itself. -/
theorem ne_nil_of_file (hfile : entry.isFile = true) (hat : world.disk.at? (root ++ names) = some entry) :
    names ≠ [] := by
  rintro rfl
  rw [List.append_nil, find_at? h.source, Option.some.injEq] at hat
  rw [← hat] at hfile
  cases hfile

/-- **A dry run and a clone fill the same files.** -/
theorem leaveSame (hown : settings.HidesOwn)
    (hmanifest : (readManifest settings dryRun.source).on world = (.ok manifest, world)) :
    Fill.LeaveSame (dryRun.patterns settings world.disk.directory manifest) world.disk root
      (clone.patterns settings manifest) (bare settings fetched room) room := by
  have hpaths := h.ownPaths manifest hmanifest
  have hpatterns := h.ownPatterns manifest hmanifest
  obtain ⟨mine, hmine⟩ := hpaths.exists_parsed
  obtain ⟨mine', hmine'⟩ := hpatterns.exists_parsed
  unfold Fill.LeaveSame patterns Clone.patterns
  rw [manifest.ignorePatterns_eq settings (dryRun.ownPaths _), manifest.ignorePatterns_eq settings
    clone.ownPatterns]
  have hset := IgnoreSet.ofPatterns_append root.render (manifest.ignorePatterns settings []) hmine
  have hset' := IgnoreSet.ofPatterns_append room.render (manifest.ignorePatterns settings []) hmine'
  cases hothers : IgnoreSet.parsePatterns (manifest.ignorePatterns settings []) with
  | error fault =>
      rw [hothers] at hset hset'
      rw [hset, hset']
      rfl
  | ok parsed =>
      rw [hothers] at hset hset'
      rw [hset, hset']
      intro names entry hfile
      rw [IgnoreSet.ignoresRelative_eq_ignoredBy hset, IgnoreSet.ignoresRelative_eq_ignoredBy hset']
      by_cases hignored : IgnoreSet.ignoredBy (manifest.ignorePatterns settings []) names = true
      · rw [IgnoreSet.ignoredBy_append hmine hothers, IgnoreSet.ignoredBy_append hmine' hothers, hignored]
        simp
      · have hshared := hown.isShared hothers (by simpa using hignored)
        rw [(h.twins hsound hown).same names hshared]
        refine and_congr_right fun hat => ?_
        have hmem := (h.mem_files hsound).mpr ⟨h.ne_nil_of_file hfile hat, hshared.1, hat⟩
        rw [hpaths.ignoredBy_eq hothers hmem hfile, hpatterns.ignoredBy_eq hothers hmem hfile]

/-- What is shared is quiet. -/
theorem quiet_of_shared {content : ByteArray} {executable : Bool} {text : String}
    (hshared : IsShared settings names)
    (hat : world.disk.at? (root ++ names) = some (.file content executable))
    (htext : String.fromUTF8? content = some text) : Fill.Quiet text := by
  have hmem := (h.mem_files hsound).mpr ⟨h.ne_nil_of_file rfl hat, hshared.1, hat⟩
  exact h.plain.quiet _ hmem hshared.2 text htext

theorem isQuietFill (hown : settings.HidesOwn) (manifest : Manifest) (vars : Variables) :
    Fill.IsQuietFill dryRun.source (dryRun.patterns settings world.disk.directory manifest) vars world.disk ∧
      Fill.IsQuietFill clone.destination (clone.patterns settings manifest) vars
        (bare settings fetched room) := by
  have htwins := h.twins hsound hown
  have hkept : ∀ {extra : List String} {base : String} {set : IgnoreSet},
      IgnoreSet.ofPatterns base (manifest.ignorePatterns settings extra) = .ok set →
      ∀ names : Place, set.ignoresRelative names.slashed = false → IsShared settings names := by
    intro extra base set hset names hnames
    rw [IgnoreSet.ignoresRelative_eq_ignoredBy hset] at hnames
    exact hown.isShared (IgnoreSet.parsePatterns_of_ofPatterns hset) hnames
  constructor
  · exact htwins.isQuietFill vars (fun set hset names _ _ _ => hkept hset names)
      fun names content executable text hshared => h.quiet_of_shared hsound hshared
  · refine htwins.symm.isQuietFill vars (fun set hset names _ _ _ => hkept hset names)
      fun names content executable text hshared hat => ?_
    rw [htwins.same names hshared] at hat
    exact h.quiet_of_shared hsound hshared hat

/-- The output has no template that the source does not have. -/
theorem missingStays (hown : settings.HidesOwn) (patterns : List String) (vars : Variables) :
    Fill.MissingStays dryRun.source patterns vars world.disk
      ((fillDirectory dryRun.source patterns vars (.mirror dryRun.output)).on world).2.disk := by
  intro root' visits hgather visit _ name _ hmissing
  have hroot := (Fill.gather_eq_ok.mp hgather).1
  rw [canonical_eq_ok.mpr ⟨_, h.source⟩, Except.ok.injEq] at hroot
  subst hroot
  obtain ⟨hfinal, hgrown, hsame⟩ := Fill.fillDirectory_mirror_spares vars hsound hgather h.apart
  have htwins := h.twins hsound hown
  have hstays : Fill.Twins (IsShared settings) world.disk dryRun.source root
      ((fillDirectory dryRun.source patterns vars (.mirror dryRun.output)).on world).2.disk dryRun.source
      root :=
    ⟨hsound, hfinal, h.source, find_directory_grow hgrown h.source, htwins.visible,
      fun names _ => hsame _ (Place.isWithin_append root names), htwins.noLinks⟩
  rw [hstays.templates_eq (Fill.plain dryRun.source vars root) (Fill.plain dryRun.source vars root) rfl rfl]
  exact hmissing

/-! ### What both come to -/

variable {done : List (Visit × Option String)} {shown filled : Disk} {content : ByteArray} {executable : Bool}

/-- **What is filled in the output is filled in the clone**, and both are files of the template. -/
theorem filled_iff (hown : settings.HidesOwn)
    (hmanifest : (readManifest settings dryRun.source).on world = (.ok manifest, world))
    (hforecast : Fill.forecast dryRun.source
      (dryRun.patterns settings world.disk.directory manifest) vars world.disk = .ok (root, done))
    (hinto : Fill.FilledInto dryRun.output root out done world.disk shown)
    (hinPlace : Fill.FilledInPlace room (done.map fun file => (file.1.moved room, file.2))
      (bare settings fetched room) filled)
    (hkept : IgnoreSet.ignoredBy (manifest.ignorePatterns settings []) names = false) :
    (shown.at? (out ++ names) = some (.file content executable) ↔
      filled.at? (room ++ names) = some (.file content executable)) ∧
    (shown.at? (out ++ names) = some (.file content executable) →
      ∃ found, (names, found) ∈ files ∧ found.isFile = true) := by
  obtain ⟨hgather, -⟩ := Fill.forecast_eq_ok hforecast
  obtain ⟨_, set, hset, hvisits⟩ := Fill.gather_eq_ok.mp hgather
  have hparsed := IgnoreSet.parsePatterns_of_ofPatterns hset
  rw [patterns, manifest.ignorePatterns_eq] at hparsed
  obtain ⟨_, _, _, hothers⟩ := IgnoreSet.exists_of_parsePatterns_append hparsed
  have hshared := hown.isShared hothers hkept
  have hsame := (h.twins hsound hown).same names hshared
  by_cases hdone : ∃ file ∈ done, file.1.names = names
  · obtain ⟨file, hfile, rfl⟩ := hdone
    obtain ⟨old, permission, hat, hshown⟩ := hinto.written file hfile
    have hsorted : ((done.map fun file => (file.1.moved room, file.2)).map fun file =>
        file.1.names).Pairwise (· < ·) := by
      rw [List.map_map]
      exact Fill.gather_sorted_fst hsound hgather
    have hfilled := hinPlace.at?_eq hsorted (List.mem_map_of_mem hfile) (hsame.trans hat)
    rw [hshown, show filled.at? (room ++ file.1.names) = _ from hfilled]
    exact ⟨Iff.rfl, fun _ =>
      ⟨_, (h.mem_files hsound).mpr ⟨h.ne_nil_of_file rfl hat, hshared.1, hat⟩, rfl⟩⟩
  · -- What was not filled in either way is not there.
    have hnone : ∀ content executable, world.disk.at? (root ++ names) ≠ some (.file content executable) := by
      intro content executable hat
      have hne := h.ne_nil_of_file rfl hat
      have hmem := (h.mem_files hsound).mpr ⟨hne, hshared.1, hat⟩
      have hunignored : set.ignoresRelative names.slashed = false := by
        rw [IgnoreSet.ignoresRelative_eq_ignoredBy hset, patterns, manifest.ignorePatterns_eq,
          (h.ownPaths manifest hmanifest).ignoredBy_eq hothers hmem rfl, hkept]
      have hvisit : { names, place := root ++ names, entry := .file content executable } ∈
          done.map Prod.fst :=
        (mem_filesOf_iff hsound (find_at? h.source) (IgnoreSet.base_of_ofPatterns hset) hvisits).mpr
          ⟨hne, rfl, hat, rfl, hunignored⟩
      obtain ⟨file, hfile, heq⟩ := List.mem_map.mp hvisit
      exact hdone ⟨file, hfile, by rw [heq]⟩
    have hshown : shown.at? (out ++ names) ≠ some (.file content executable) := by
      intro hat
      rcases hinto.inside names _ hat with ⟨hdir, _⟩ | ⟨file, hfile, heq⟩
      · cases hdir
      · exact hdone ⟨file, hfile, heq.symm⟩
    have hfilled : filled.at? (room ++ names) = world.disk.at? (root ++ names) := by
      refine (hinPlace.kept _ fun visit text hmem heq => ?_).trans hsame
      obtain ⟨file, hfile, hpair⟩ := List.mem_map.mp hmem
      obtain ⟨rfl, _⟩ := Prod.mk.inj hpair
      exact hdone ⟨file, hfile, (List.append_cancel_left heq).symm⟩
    rw [hfilled]
    exact ⟨⟨fun hat => absurd hat hshown, fun hat => absurd hat (hnone _ _)⟩, fun hat => absurd hat hshown⟩

/-- **What is kept in the output is kept in the clone.** -/
theorem kept_iff {after cloned : Disk} {set set' : IgnoreSet} (hown : settings.HidesOwn)
    (hmanifest : (readManifest settings dryRun.source).on world = (.ok manifest, world))
    (hforecast : Fill.forecast dryRun.source
      (dryRun.patterns settings world.disk.directory manifest) vars world.disk = .ok (root, done))
    (hinto : Fill.FilledInto dryRun.output root out done world.disk shown)
    (hinPlace : Fill.FilledInPlace room (done.map fun file => (file.1.moved room, file.2))
      (bare settings fetched room) filled)
    (hset : IgnoreSet.ofPatterns dryRun.output (dryRun.patterns settings world.disk.directory manifest) =
      .ok set)
    (hset' : IgnoreSet.ofPatterns clone.destination [] = .ok set')
    (hafter : IsPruned set settings.internalMark out shown after)
    (hcloned : IsPruned set' settings.internalMark room filled cloned)
    (hne : names ≠ []) (hkept : IgnoreSet.ignoredBy (manifest.ignorePatterns settings []) names = false) :
    after.at? (out ++ names) = some (.file content executable) ↔
      cloned.at? (room ++ names) = some (.file content executable) := by
  obtain ⟨hiff, hfile⟩ : _ ∧ (shown.at? (out ++ names) = some (.file content executable) → _) :=
    h.filled_iff hsound hown hmanifest hforecast hinto hinPlace hkept
  rw [hafter names _ hne, hcloned names _ hne, ← hiff]
  refine and_congr_right fun hthere => ?_
  obtain ⟨found, hmem, hisFile⟩ := hfile hthere
  -- Neither of the two ignores the file, and so it is all about its marks.
  have hparsed := IgnoreSet.parsePatterns_of_ofPatterns hset
  rw [patterns, manifest.ignorePatterns_eq] at hparsed
  obtain ⟨_, _, _, hothers⟩ := IgnoreSet.exists_of_parsePatterns_append hparsed
  have hshown : set.ignoresRelative names.slashed = false := by
    rw [IgnoreSet.ignoresRelative_eq_ignoredBy hset, patterns, manifest.ignorePatterns_eq,
      (h.ownPaths manifest hmanifest).ignoredBy_eq hothers hmem hisFile, hkept]
  obtain rfl : { base := clone.destination, patterns := [] } = set' := Except.ok.inj hset'
  exact not_congr (prunes_congr hshown (by simp [IgnoreSet.ignoresRelative, IgnoreSet.matchesAny]))

/-- **A dry run that can be filled** shows what was foretold, but for what is pruned. -/
theorem run_shown (hown : settings.HidesOwn)
    (hplan : (dryRun.plan settings).on world =
      (.ok (dryRun.patterns settings world.disk.directory manifest, vars), world))
    (hforecast : Fill.forecast dryRun.source
      (dryRun.patterns settings world.disk.directory manifest) vars world.disk = .ok (root, done)) :
    ∃ shown after set, (dryRun.run settings).on world = (.ok (), { world with disk := after }) ∧
      Fill.FilledInto dryRun.output root out done world.disk shown ∧
      IgnoreSet.ofPatterns dryRun.output (dryRun.patterns settings world.disk.directory manifest) = .ok set ∧
      IsPruned set settings.internalMark out shown after := by
  have htree : world.disk.hasFile dryRun.source = false := by simp [hasFile, h.source, Entry.isFile]
  have hgather := (Fill.forecast_eq_ok hforecast).1
  have hspares := Fill.fillDirectory_mirror_spares vars hsound hgather h.apart
  obtain ⟨shown, hmirror, hinto⟩ := Fill.fillDirectory_mirror_ok hsound htree
    (h.isQuietFill hsound hown manifest vars).1 (h.missingStays hsound hown _ vars) h.apart hforecast
  rw [hmirror] at hspares
  have houtput : shown.find true dryRun.output = .ok (out, .directory) := by
    obtain ⟨entry, hfind⟩ := canonical_eq_ok.mp hinto.canonical
    have hat : shown.at? (out ++ []) = some entry := by rw [List.append_nil, find_at? hfind]
    rcases hinto.inside [] entry hat with ⟨rfl, _⟩ | ⟨file, hfile, hnil⟩
    · exact hfind
    · exact absurd hnil.symm (Fill.names_ne_nil hsound htree hgather (List.mem_map_of_mem hfile))
  obtain ⟨_, set, hset, _⟩ := Fill.gather_eq_ok.mp hgather
  have hset' : IgnoreSet.ofPatterns dryRun.output (dryRun.patterns settings world.disk.directory manifest) =
      .ok { base := dryRun.output, patterns := set.patterns } := by
    rw [IgnoreSet.ofPatterns, IgnoreSet.parsePatterns_of_ofPatterns hset]
  -- All that was filled is inside of the output, which could be found before that.
  have hsame : SameAround out (world.disk.makeDirectories dryRun.output).1 shown := by
    refine ⟨hspares.2.1.directory_eq.trans (hsound.makeDirectories _).2.directory_eq.symm, fun place hout => ?_⟩
    by_cases hself : place = out
    · subst hself
      rw [h.apart.at?_room hsound, find_at? houtput]
    · exact hinto.around place (by simpa [Place.isInside, hself] using hout)
  have hreach := (h.apart.reaches hsound).of_same hsame
  obtain ⟨after, hprune, hpruned⟩ := @prune_eq shown out { base := dryRun.output, patterns := set.patterns }
    settings.internalMark _ hspares.1 houtput rfl (canonical_prune hspares.1 _ hreach)
  have hrun := run_on_filled hplan h.noTerminal h.outputMissing hmirror hset' hprune
  exact ⟨shown, after, _, hrun, hinto, hset', hpruned⟩

/-- **A clone that can be filled** comes to what was foretold, but for what is pruned. -/
theorem fill_cloned (hown : settings.HidesOwn)
    (hread : fetched.disk.read (Path.join clone.destination settings.manifestFile) = .ok content)
    (hremove : fetched.disk.removeFile (Path.join clone.destination settings.manifestFile) =
      .ok (bare settings fetched room))
    (hbound : bound settings given content = .ok (manifest, vars))
    (hforecast : Fill.forecast clone.destination (clone.patterns settings manifest) vars
      (bare settings fetched room) = .ok (room, done)) :
    ∃ filled cloned set, (clone.fill settings given).on fetched =
        (.ok manifest, { fetched with disk := cloned }) ∧
      Fill.FilledInPlace room done (bare settings fetched room) filled ∧
      IgnoreSet.ofPatterns clone.destination [] = .ok set ∧
      IsPruned set settings.internalMark room filled cloned := by
  have hbare := h.bare_room hsound
  have hfetched := @Clone.fillDirectory_fetched { fetched with disk := bare settings fetched room } room
    clone.destination (clone.patterns settings manifest) vars hbare
  obtain ⟨filled, hon, hinPlace⟩ := @Fill.fillDirectory_inPlace_ok clone.destination
    (clone.patterns settings manifest) vars room { fetched with disk := bare settings fetched room } done
    hbare.sound (h.isQuietFill hsound hown manifest vars).2 hforecast
  rw [hon] at hfetched
  obtain ⟨cloned, hprune, hpruned⟩ := @prune_eq filled room { base := clone.destination, patterns := [] }
    settings.internalMark _ hfetched.sound hfetched.reaches.find_eq rfl
    (canonical_prune hfetched.sound _ hfetched.reaches)
  have hcloned := Clone.fill_on_filled hread hremove hbound hon rfl hprune
  exact ⟨filled, cloned, _, hcloned, hinPlace, rfl, hpruned⟩

end Previews

/-- What is in a template with a file that has the name of a file of variables. -/
def namesakeFiles : List (Place × Entry) :=
  [([".cloney.yaml"], .file "{name: a, template_version: 1.0.0, manifest_version: v1}".toUTF8 false),
    (["a"], .file "\x7b\x7b x \x7d\x7d".toUTF8 true), (["v.yaml"], .file "\x7b\x7b x \x7d\x7d".toUTF8 false)]

/-- A world in which there is such a template, a repository of it, and two files of variables. -/
def namesakeWorld : World where
  disk := { directory := [], tree :=
    [(["o"], .directory), (["o", "objects"], .history { head := "main", tags := [], branches := [("main",
        [([".cloney.yaml"], .file "{name: a, template_version: 1.0.0, manifest_version: v1}".toUTF8 false),
          (["a"], .file "\x7b\x7b x \x7d\x7d".toUTF8 true),
          (["v.yaml"], .file "\x7b\x7b x \x7d\x7d".toUTF8 false)])] }), (["t"], .directory)] ++
      (namesakeFiles.map fun found => ("t" :: found.1, found.2)) ++
      [(["v.yaml"], .file "x: 1".toUTF8 false), (["w.yaml"], .file "x: 1".toUTF8 false)] }

/-- A dry run of the template with the variables of a file. -/
def namesakeDryRun (variablesFrom : String) : DryRun where
  source := "t"
  output := "d"
  variablesFrom

/-- A clone of the repository with the same variables. -/
def namesakeClone (variablesFrom : String) : Clone where
  repository := { url := "/o" }
  output? := some "c"
  variablesFrom

/-- What there is when the repository was fetched. -/
def namesakeFetched : World :=
  (((namesakeClone "").repository.cloneInto "c").on namesakeWorld).2

theorem namesake_corresponds (variablesFrom : String) :
    Corresponds .standard (namesakeDryRun variablesFrom) (namesakeClone variablesFrom) namesakeFiles
      namesakeWorld namesakeFetched ["t"] ["d"] ["c"] where
  noTerminal := rfl
  sameVariables := rfl
  plain := ⟨by decide +kernel, ⟨_, _, List.mem_cons_self⟩, by decide +kernel⟩
  source := show namesakeWorld.disk.find true "t" = .ok (["t"], .directory) by decide +kernel
  contents := by decide +kernel
  outputMissing := show namesakeWorld.disk.find false "d" = .error .notFound by decide +kernel
  apart := isApart_of_missing (by decide +kernel) (show namesakeWorld.disk.has "d" = false by decide +kernel)
    (upFirst_of_names (show Step.up ∉ (Route.ofString "d").steps by decide +kernel))
    (show (namesakeWorld.disk.makeDirectories "d").2 = .ok () by decide +kernel)
    (show (namesakeWorld.disk.makeDirectories "d").1.canonical "d" = .ok ["d"] by decide +kernel) (by decide)
  destinationMissing := show namesakeWorld.disk.has "c" = false by decide +kernel
  vacant := show namesakeWorld.disk.IsVacant "c" by decide +kernel
  cloned := Prod.ext (show (((namesakeClone "").repository.cloneInto "c").on namesakeWorld).1 = .ok () by
    decide +kernel) rfl
  destination := show namesakeFetched.disk.canonical "c" = .ok ["c"] by decide +kernel
  fetchedContents := by decide +kernel

/-- The manifest of the template leaves out what every template does, and has no commands. -/
theorem namesake_manifest {manifest : Manifest}
    (h : (readManifest .standard "t").on namesakeWorld = (.ok manifest, namesakeWorld)) :
    manifest.ignorePatterns .standard [] = Settings.standard.knownIgnorePaths ∧
      manifest.configuration.postCloneCommands = [] := by
  have hread : ((readManifest .standard "t").on namesakeWorld).1.map (fun manifest =>
      (manifest.ignorePatterns .standard [], manifest.configuration.postCloneCommands)) =
        .ok (Settings.standard.knownIgnorePaths, []) := by decide +kernel
  rw [h] at hread
  exact Prod.mk.inj (Except.ok.inj hread)

end DryRun

end Stencil
