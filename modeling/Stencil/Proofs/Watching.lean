import Stencil.Change
import Stencil.Proofs.Files.Finding
import Stencil.Proofs.Glob
import Stencil.Proofs.Ignore
import Stencil.Proofs.Path.Parts
import Stencil.Proofs.Sources
import Stencil.DryRun

/-!
# What is watched while the output is filled

After a change in a template the template is filled again. That is a change itself if the output lies in the template
and is watched, and then there is no end of it. So the output is among the patterns by which something is not watched.

Three things have to agree for that, and none of them follows from the others. The pattern is made from how the two
paths are spelled (`Path.IsSpelledBehind`), without looking where they lead; it is read as a pattern, so characters in
the names may mean something else (`Glob.IsLiteral`) or nothing at all (`tidyPattern`); and it is held against the
names that lead from the template to the output in the end. Where the three agree, everything in the output is ignored,
and whether it is depends on nothing else but the other patterns (`DryRun.watchSet_ignores_output`).
-/

namespace Stencil

open Files Files.Disk

variable {disk : Disk} {current root names : Place} {directory path : String} {set : IgnoreSet}

/-! ## How the output is spelled -/

namespace Path

/-- Whether a path is spelled like a directory with some names behind it, once it is clear where relative paths
start. -/
def IsSpelledBehind (current : Place) (directory path : String) (names : Place) : Prop :=
  ∃ base, absolute? (.root :: current.map .name) directory = some base ∧
    absolute? (.root :: current.map .name) path = some (base ++ names.map .name)

theorem relativeTo?_append {base more : Path} (hne : more ≠ []) : relativeTo? base (base ++ more) = some more := by
  have hlonger : base ++ more ≠ base := by simpa using hne
  unfold relativeTo? startsWith
  rw [if_pos (by simp [hlonger]), List.drop_left]

theorem render_names (hne : names ≠ []) : render (names.map .name) = "/".intercalate names := by
  obtain ⟨s, rest, rfl⟩ := List.exists_cons_of_ne_nil hne
  have htexts : ((s :: rest).map Part.name).map partText = s :: rest := by
    rw [List.map_map]
    exact List.map_id _
  show "/".intercalate (((s :: rest).map Part.name).map partText) = _
  rw [htexts]

/-- Names lead through themselves. -/
theorem filterMap_step?_names (names : Place) : (names.map Part.name).filterMap step? = names.map Step.name := by
  rw [List.filterMap_map, ← List.filterMap_eq_map]
  rfl

/-- What is spelled behind a directory is known by its names. -/
theorem IsSpelledBehind.patternBelow?_eq (h : IsSpelledBehind current directory path names) (hne : names ≠ []) :
    patternBelow? current directory path = some names.slashed := by
  obtain ⟨base, hdirectory, hpath⟩ := h
  simp only [patternBelow?, hdirectory, hpath, Option.bind_eq_bind, Option.bind_some,
    relativeTo?_append (List.map_eq_nil_iff.not.mpr hne), render_names hne]
  rfl

end Path

namespace Files.Disk

/-- Names that lead to a directory can be put in front of a path that starts there. -/
theorem Leads.behind_names {followLast ends : Bool} {links : Nat} {place : Place} {steps : List Step}
    {location : Location} (hsound : disk.Sound) (hholds : disk.Holds (place ++ names))
    (h : Leads disk.tree followLast links (place ++ names) steps ends location) :
    Leads disk.tree followLast links place (names.map .name ++ steps) ends location := by
  induction names generalizing place with
  | nil => rwa [List.append_nil] at h
  | cons s rest ih =>
      rw [← List.singleton_append, ← List.append_assoc] at hholds h
      obtain ⟨entry, hat, -⟩ := holds_iff.mp hholds
      obtain ⟨found, hfound, hdir⟩ : ∃ found, disk.at? (place ++ [s]) = some found ∧ found.isDirectory = true := by
        by_cases hrest : rest = []
        · subst hrest
          rw [List.append_nil] at hholds
          exact holds_iff.mp hholds
        · exact holds_iff.mp (hsound.outer_append hrest hat)
      have hsize := (hsound.storable hfound s (by simp)).size_le
      exact Leads.inner hsize hfound hdir (ih hholds h)

/-- A path leads to where its parts lead from the root. -/
theorem exists_leads_of_absolute {parts : Path} {place : Place} (hsound : disk.Sound)
    (hparts : Path.absolute? (.root :: disk.directory.map .name) path = some parts)
    (hplace : disk.canonical path = .ok place) :
    ∃ entry ends ends', Leads disk.tree true maxLinks [] (parts.filterMap Path.step?) ends
      ⟨place, some entry, ends'⟩ := by
  obtain ⟨entry, hfind⟩ := canonical_eq_ok.mp hplace
  obtain ⟨hcan, ends', hleads⟩ := find_iff_leads.mp hfind
  rw [Path.steps_eq] at hleads
  refine ⟨entry, (Route.ofString path).endsInDirectory, ends', ?_⟩
  unfold Path.absolute? at hparts
  rw [if_neg (by simpa using hcan.ne_empty), Option.some.injEq] at hparts
  subst hparts
  have hholds := hcan.holds
  unfold start at hleads hholds
  rw [Path.isAbsolute_eq] at hleads hholds
  unfold Path.resolve
  split at hleads
  · rename_i habs
    rwa [if_pos habs]
  · rename_i habs
    rw [if_neg habs] at hholds ⊢
    have hsteps : ((Path.ofString path).filter (· ≠ .current)).filterMap Path.step? =
        (Path.ofString path).filterMap Path.step? := by
      rw [List.filterMap_filter]
      refine List.filterMap_congr fun part _ => ?_
      cases part <;> simp [Path.step?]
    rw [List.cons_append, List.filterMap_cons_none rfl, List.filterMap_append, hsteps, Path.filterMap_step?_names]
    exact Leads.behind_names hsound hholds hleads

/-- **A path that is spelled behind a directory leads there in the end**, if there is no link on the way. -/
theorem canonical_of_spelled {outer : Place} (hsound : disk.Sound)
    (hspelled : Path.IsSpelledBehind disk.directory directory path names) (hne : names ≠ [])
    (hroot : disk.canonical directory = .ok root) (houter : disk.canonical path = .ok outer)
    (hlinks : ∀ front, front ≠ [] → front <+: names → ∀ target, disk.at? (root ++ front) ≠ some (.link target)) :
    outer = root ++ names := by
  obtain ⟨base, hbase, hpath⟩ := hspelled
  obtain ⟨entry, ends, ends', hfront⟩ := exists_leads_of_absolute hsound hbase hroot
  obtain ⟨found, ends₁, ends₂, hall⟩ := exists_leads_of_absolute hsound hpath houter
  rw [List.filterMap_append, Path.filterMap_step?_names] at hall
  obtain ⟨_, -, hrest⟩ := hfront.rest (by simp) (by simpa using hne) hall
  exact hrest.place_of_names names hlinks

end Files.Disk

/-! ## What the names mean as a pattern -/

namespace IgnoreSet

theorem slashed_ne_empty (hne : names ≠ []) (hnames : ∀ s ∈ names, IsName s) : names.slashed ≠ "" := by
  intro hempty
  have hchars := congrArg String.toList hempty
  rw [toList_slashed] at hchars
  obtain ⟨s, rest, rfl⟩ := List.exists_cons_of_ne_nil hne
  have hs := (hnames s List.mem_cons_self).toList_ne.1
  cases rest <;> simp [Text.joinWith, hs] at hchars

attribute [local irreducible] Glob.parse tidyPattern in
/-- A pattern that is tidy already is kept as it is. -/
theorem parsePatterns_singleton {text : String} {pieces : List Glob.Piece} (hempty : text ≠ "")
    (htidy : tidyPattern text = text) (hparse : Glob.parse text = .ok pieces) :
    parsePatterns [text] = .ok [{ text, pieces }] := by
  have hnil : parsePatterns [] = .ok [] := rfl
  rw [parsePatterns_cons, htidy, if_neg (by simpa using hempty), hparse, hnil]

/-- **A pattern without holes ignores its own text**, and whatever is behind a slash after it, and nothing else. -/
theorem ignoredBy_literal_iff {text : String} (hempty : text ≠ "") (hliteral : Glob.IsLiteral text)
    (htidy : tidyPattern text = text) : ignoredBy [text] names = true ↔
      names.slashed = text ∨ ∃ more, names.slashed.toList = text.toList ++ '/' :: more := by
  have hself : ∀ relative,
      matchesAny { base := "", patterns := [{ text, pieces := text.toList.map .literal }] } relative = true ↔
        relative = text := by
    intro relative
    simp [matchesAny, Glob.isMatch_literals]
  rw [ignoredBy, parsePatterns_singleton hempty htidy (Glob.parse_literals hliteral)]
  dsimp only
  rw [ignoresRelative, Bool.and_eq_true, Bool.or_eq_true, hself, List.any_eq_true]
  constructor
  · rintro ⟨-, heq | ⟨front, hfront, hmatch⟩⟩
    · exact Or.inl heq
    · obtain ⟨more, hmore⟩ := mem_ancestors.mp hfront
      have htext := (hself _).mp hmatch
      exact Or.inr ⟨more, by rw [hmore, ← htext, String.toList_ofList]⟩
  · rintro (heq | ⟨more, hmore⟩)
    · exact ⟨by simpa [heq] using hempty, Or.inl heq⟩
    · refine ⟨?_, Or.inr ⟨text.toList, mem_ancestors.mpr ⟨more, hmore⟩, (hself _).mpr String.ofList_toList⟩⟩
      rw [Bool.not_eq_true', Bool.eq_false_iff, ne_eq, String.isEmpty_iff]
      intro hnone
      rw [hnone] at hmore
      simp at hmore

/-- **Names without holes ignore themselves** if nothing of them is tidied away. -/
theorem ignoredBy_literal (hne : names ≠ []) (hnames : ∀ s ∈ names, IsName s) (hliteral : Glob.IsLiteral names.slashed)
    (htidy : tidyPattern names.slashed = names.slashed) : ignoredBy [names.slashed] names = true :=
  (ignoredBy_literal_iff (slashed_ne_empty hne hnames) hliteral htidy).mpr (Or.inl rfl)

/-- Whether everything at a place and inside of it is ignored. -/
def Covers (set : IgnoreSet) (room : Place) : Prop :=
  ∀ more : Place, (∀ s ∈ more, IsName s) → set.ignores (Place.render (room ++ more)) = true

/-- What names lead to from the base is ignored by its place, or from the base. -/
theorem ignores_render (hbase : set.base = root.render) (hroot : ∀ s ∈ root, IsName s) (hne : names ≠ [])
    (hnames : ∀ s ∈ names, IsName s) :
    set.ignores (Place.render (root ++ names)) = set.ignoresRelative names.slashed := by
  have hstart : set.base ≠ "" := by
    rw [hbase]
    simp [Place.render]
  rw [← Path.join_render hroot hnames hne, ← hbase, ignores_join hstart hne hnames]

/-- **Everything in a place is ignored as soon as the place is.** -/
theorem covers_iff (hbase : set.base = root.render) (hroot : ∀ s ∈ root, IsName s) (hne : names ≠ [])
    (hnames : ∀ s ∈ names, IsName s) : set.Covers (root ++ names) ↔ set.ignoresRelative names.slashed = true := by
  have hignores : ∀ more : Place, (∀ s ∈ more, IsName s) →
      set.ignores (Place.render (root ++ names ++ more)) = set.ignoresRelative (names ++ more).slashed := by
    intro more hmore
    have hall : ∀ s ∈ names ++ more, IsName s := fun s hs => (List.mem_append.mp hs).elim (hnames s) (hmore s)
    rw [List.append_assoc, ignores_render hbase hroot (by simp [hne]) hall]
  constructor
  · intro hcovers
    have hself := hcovers [] (by simp)
    rwa [hignores [] (by simp), List.append_nil] at hself
  · intro hself more hmore
    rw [hignores more hmore]
    exact ignoresRelative_slashed hself (List.prefix_append names more)

/-- A change in what is ignored does not count. -/
theorem Covers.isRelevant_eq {room : Place} (h : set.Covers room) (change : Change)
    (hpaths : ∀ path ∈ change.paths, ∃ more : Place, (∀ s ∈ more, IsName s) ∧ path = Place.render (room ++ more)) :
    change.isRelevant set = false := by
  unfold Change.isRelevant
  rw [Bool.and_eq_false_iff, List.any_eq_false]
  refine Or.inr fun path hpath => ?_
  obtain ⟨more, hmore, rfl⟩ := hpaths path hpath
  rw [h more hmore, Bool.not_true, Bool.and_false]
  exact Bool.false_ne_true

end IgnoreSet

/-! ## What is watched -/

namespace DryRun

variable {settings : Settings} {dryRun : DryRun} {world : World}

/-- The pattern that the output is known by in the template, if it has one. -/
def outputPattern (dryRun : DryRun) (current : Place) : List String :=
  (patternBelow? current dryRun.source dryRun.output).toList

/-- The patterns of what else is not watched: what is left out of every template, the manifest and the variables
apart, and what this one leaves out, as long as its manifest can be read. -/
def unwatched (settings : Settings) (dryRun : DryRun) (world : World) : List String :=
  (settings.knownIgnorePaths.filter fun path => path ≠ settings.manifestFile && path ≠ settings.variablesFile) ++
    match ((readManifest settings dryRun.source).on world).1 with
    | .ok manifest => manifest.configuration.ignorePaths
    | .error _ => []

/-- Asking for what is watched changes nothing, and the answer is known from where the template is and from these
patterns. -/
theorem watchSet_result (settings : Settings) (dryRun : DryRun) (world : World) :
    (dryRun.watchSet settings).on world =
      (match world.disk.canonical dryRun.source with
      | .error fault => .error (.files fault)
      | .ok root => (IgnoreSet.ofPatterns root.render
          (dryRun.outputPattern world.disk.directory ++ dryRun.unwatched settings world)).mapError .pattern,
        world) := by
  have hmanifest : ∀ {result : Except Failure Manifest} {after : World},
      (readManifest settings dryRun.source).on world = (result, after) → after = world := by
    intro result after hon
    cases result with
    | ok => exact (readManifest_ends settings _ world).done_of_ok hon
    | error => exact (readManifest_ends settings _ world).failed_of_error hon
  have hown : (tryCatch (do pure (← readManifest settings dryRun.source).configuration.ignorePaths)
      fun _ => pure [] : Work (List String)).on world =
      (.ok (match ((readManifest settings dryRun.source).on world).1 with
        | .ok manifest => manifest.configuration.ignorePaths
        | .error _ => []), world) := by
    rcases hon : (readManifest settings dryRun.source).on world with ⟨failure | manifest, after⟩
    · rw [Work.on_tryCatch, Work.on_bind, hon, hmanifest hon]
      rfl
    · rw [Work.on_tryCatch, Work.on_bind, hon, hmanifest hon]
      rfl
  unfold watchSet
  rw [Work.on_bind_of_ok (Work.on_disk world), Work.on_bind_of_ok hown, Work.on_bind, Work.on_ask]
  cases world.disk.canonical dryRun.source with
  | error fault => rfl
  | ok root =>
      dsimp only
      rw [List.append_assoc]
      show (Work.ofExcept .pattern (IgnoreSet.ofPatterns root.render
        (dryRun.outputPattern world.disk.directory ++ dryRun.unwatched settings world))).on world = _
      cases IgnoreSet.ofPatterns root.render
        (dryRun.outputPattern world.disk.directory ++ dryRun.unwatched settings world) <;> rfl

/-- What is watched is known from the directory of the template and from these patterns. -/
theorem watchSet_on (hset : ((dryRun.watchSet settings).on world).1 = .ok set) :
    ∃ root, world.disk.canonical dryRun.source = .ok root ∧
      IgnoreSet.ofPatterns root.render
        (dryRun.outputPattern world.disk.directory ++ dryRun.unwatched settings world) = .ok set := by
  rw [watchSet_result] at hset
  cases hroot : world.disk.canonical dryRun.source with
  | error fault =>
      rw [hroot] at hset
      cases hset
  | ok root =>
      rw [hroot] at hset
      dsimp only at hset
      refine ⟨root, rfl, ?_⟩
      cases hread : IgnoreSet.ofPatterns root.render
          (dryRun.outputPattern world.disk.directory ++ dryRun.unwatched settings world) with
      | error fault =>
          rw [hread] at hset
          cases hset
      | ok found =>
          rw [hread] at hset
          exact congrArg Except.ok (Except.ok.inj hset)

/-- **What is not watched** is known by two kinds of patterns. -/
theorem watchSet_ignores_iff (hsound : world.disk.Sound) (hset : ((dryRun.watchSet settings).on world).1 = .ok set)
    (hroot : world.disk.canonical dryRun.source = .ok root) (hne : names ≠ []) (hnames : ∀ s ∈ names, IsName s) :
    set.ignores (Place.render (root ++ names)) = true ↔
      IgnoreSet.ignoredBy (dryRun.outputPattern world.disk.directory) names = true ∨
        IgnoreSet.ignoredBy (dryRun.unwatched settings world) names = true := by
  obtain ⟨found, hfound, hread⟩ := watchSet_on hset
  obtain rfl : root = found := Except.ok.inj (hroot.symm.trans hfound)
  obtain ⟨entry, hfind⟩ := canonical_eq_ok.mp hroot
  obtain ⟨own, others, hown, hothers⟩ :=
    IgnoreSet.exists_of_parsePatterns_append (IgnoreSet.parsePatterns_of_ofPatterns hread)
  rw [IgnoreSet.ignores_render (IgnoreSet.base_of_ofPatterns hread) (hsound.isName (find_at? hfind)) hne hnames,
    IgnoreSet.ignoresRelative_eq_ignoredBy hread, IgnoreSet.ignoredBy_append hown hothers, Bool.or_eq_true]

/-- **What is written to the output is not watched if the output is known by its own names.** Let these be the names
that lead from the template to the output in the end. Everything in the output is ignored if, and only if, its pattern
ignores these names or one of the other patterns does. Its pattern does if the output is spelled like the template with
these names behind it, nothing of them is tidied away, and none of their characters makes a hole; and a path that is
spelled like that leads there, unless there is a link on the way. Where everything in the output is ignored, no change
of what is in there counts. -/
theorem watchSet_ignores_output (hsound : world.disk.Sound)
    (hset : ((dryRun.watchSet settings).on world).1 = .ok set)
    (hroot : world.disk.canonical dryRun.source = .ok root) (hne : names ≠ []) (hnames : ∀ s ∈ names, IsName s) :
    (set.Covers (root ++ names) ↔
      IgnoreSet.ignoredBy (dryRun.outputPattern world.disk.directory) names = true ∨
        IgnoreSet.ignoredBy (dryRun.unwatched settings world) names = true) ∧
    (Path.IsSpelledBehind world.disk.directory dryRun.source dryRun.output names →
      (Glob.IsLiteral names.slashed → tidyPattern names.slashed = names.slashed → set.Covers (root ++ names)) ∧
      ∀ outer, world.disk.canonical dryRun.output = .ok outer →
        (∀ front, front ≠ [] → front <+: names → ∀ target,
          world.disk.at? (root ++ front) ≠ some (.link target)) → outer = root ++ names) ∧
    (set.Covers (root ++ names) → ∀ change : Change,
      (∀ path ∈ change.paths, ∃ more : Place, (∀ s ∈ more, IsName s) ∧
        path = Place.render (root ++ names ++ more)) → change.isRelevant set = false) := by
  obtain ⟨found, hfound, hread⟩ := watchSet_on hset
  obtain rfl : root = found := Except.ok.inj (hroot.symm.trans hfound)
  obtain ⟨entry, hfind⟩ := canonical_eq_ok.mp hroot
  have hbase := IgnoreSet.base_of_ofPatterns hread
  have hroots := hsound.isName (find_at? hfind)
  have hiff : set.Covers (root ++ names) ↔
      IgnoreSet.ignoredBy (dryRun.outputPattern world.disk.directory) names = true ∨
        IgnoreSet.ignoredBy (dryRun.unwatched settings world) names = true := by
    rw [IgnoreSet.covers_iff hbase hroots hne hnames, ← IgnoreSet.ignores_render hbase hroots hne hnames]
    exact watchSet_ignores_iff hsound hset hroot hne hnames
  refine ⟨hiff, fun hspelled => ⟨fun hliteral htidy => hiff.mpr (Or.inl ?_), fun outer houter hlinks => ?_⟩,
    IgnoreSet.Covers.isRelevant_eq⟩
  · rw [outputPattern, hspelled.patternBelow?_eq hne]
    exact IgnoreSet.ignoredBy_literal hne hnames hliteral htidy
  · exact canonical_of_spelled hsound hspelled hne hroot houter hlinks

/-- A template with its output in it. -/
def nestedDisk : Disk where
  tree := [(["t"], .directory), (["t", ".cloney.yaml"],
    .file "{name: a, template_version: 1.0.0, manifest_version: v1}".toUTF8 false), (["t", "o"], .directory),
    (["t", "o", "x"], .file "x".toUTF8 false)]
  directory := []

/-- A dry run of it. -/
def nested : DryRun where
  source := "t"
  output := "t/o"
  variablesFrom := ""

theorem watchSet_ignores_output_nested :
    ∃ set, ((nested.watchSet .standard).on { disk := nestedDisk }).1 = .ok set ∧
      nestedDisk.canonical nested.output = .ok (["t"] ++ ["o"]) ∧ set.Covers (["t"] ++ ["o"]) ∧
      Change.isRelevant { kind := .modify, paths := ["/t/o/x"] } set = false := by
  have hdone : ((nested.watchSet .standard).on { disk := nestedDisk }).1.isOk = true := by decide +kernel
  cases hset : ((nested.watchSet .standard).on { disk := nestedDisk }).1 with
  | error failure =>
      rw [hset] at hdone
      cases hdone
  | ok set =>
      obtain ⟨-, hspelled, hrelevant⟩ := @watchSet_ignores_output ["t"] ["o"] set .standard nested
        { disk := nestedDisk } (by decide +kernel) hset (by decide +kernel) (by decide) (by decide +kernel)
      have hcovers := (hspelled ⟨[.root, .name "t"], by decide +kernel, by decide +kernel⟩).1 (by decide +kernel)
        (by decide +kernel)
      exact ⟨set, rfl, by decide +kernel, hcovers, hrelevant hcovers _ fun path hpath =>
        ⟨["x"], by decide +kernel, List.mem_singleton.mp hpath⟩⟩

/-- Spelled with a step up, the same output is watched. -/
example :
    (match (({ nested with output := "t/../t/o" }.watchSet .standard).on { disk := nestedDisk }).1 with
      | .ok set => set.ignores "/t/o/x"
      | .error _ => true) = false := by decide +kernel

end DryRun

end Stencil
