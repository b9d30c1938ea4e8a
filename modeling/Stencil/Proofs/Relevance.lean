import Stencil.Proofs.Planning
import Stencil.Proofs.Watching

/-!
# What is watched and what is filled

A change in a template is of interest if it can change what is filled. The patterns of what is watched and those of
what is filled are put together in two places, though, and they are not the same. The fill leaves out the manifest and
the file of the variables, and these are watched (`DryRun.rerunning`). In a terminal there is no output to leave out,
and yet it is not watched. All other patterns are shared.

Patterns are compared by what they ignore and not by where they stand, since their order plays no part. So everything
that is filled is watched unless it is an output that a terminal has no use for, and what is watched is filled unless
it is one of those files (`DryRun.watchSet_mirrors_fill`). That is no promise for the manifest and the variables
themselves: a pattern of the template that covers one of them keeps it from being watched.
-/

namespace Stencil

open Files Files.Disk

variable {names root : Place} {text : String} {texts : List String}

namespace IgnoreSet

/-! ## Patterns that are texts -/

/-- Whether a pattern means its own text and nothing else. -/
def IsVerbatim (text : String) : Prop := text ≠ "" ∧ Glob.IsLiteral text ∧ tidyPattern text = text

instance (text : String) : Decidable (IsVerbatim text) :=
  inferInstanceAs (Decidable (text ≠ "" ∧ Glob.IsLiteral text ∧ tidyPattern text = text))

/-- Whether names are those in a text, or lead on from there. -/
def IsNamedBy (names : Place) (text : String) : Prop :=
  names.slashed = text ∨ ∃ more, names.slashed.toList = text.toList ++ '/' :: more

theorem exists_of_parsePatterns_verbatim (hverbatim : ∀ text ∈ texts, IsVerbatim text) :
    ∃ patterns, parsePatterns texts = .ok patterns := by
  induction texts with
  | nil => exact ⟨[], rfl⟩
  | cons text rest ih =>
      obtain ⟨hempty, hliteral, htidy⟩ := hverbatim text List.mem_cons_self
      obtain ⟨patterns, hrest⟩ := ih fun other hother => hverbatim other (List.mem_cons_of_mem _ hother)
      refine ⟨{ text, pieces := text.toList.map .literal } :: patterns, ?_⟩
      rw [← List.singleton_append, parsePatterns_append,
        parsePatterns_singleton hempty htidy (Glob.parse_literals hliteral), hrest]
      rfl

/-- **Verbatim patterns ignore what they name** and what is in there. -/
theorem ignoredBy_verbatim_iff (hverbatim : ∀ text ∈ texts, IsVerbatim text) :
    ignoredBy texts names = true ↔ ∃ text ∈ texts, IsNamedBy names text := by
  obtain ⟨patterns, hparse⟩ := exists_of_parsePatterns_verbatim hverbatim
  rw [ignoredBy_iff_exists hparse]
  refine exists_congr fun text => and_congr_right fun htext => ?_
  obtain ⟨hempty, hliteral, htidy⟩ := hverbatim text htext
  exact ignoredBy_literal_iff hempty hliteral htidy

end IgnoreSet

namespace DryRun

open IgnoreSet

variable {settings : Settings} {dryRun : DryRun} {world : World} {manifest : Manifest} {current : Place}
  {set filled : IgnoreSet}

/-! ## The patterns of a fill -/

/-- The pattern that the file of the variables is known by in the template, if it has one. -/
def variablesPattern (dryRun : DryRun) (current : Place) : List String :=
  ((variablesFile? dryRun.variablesFrom).bind (patternBelow? current dryRun.source)).toList

/-- The patterns of what is not filled and watched all the same: the variables, and the files in which a manifest and
variables are unless said otherwise. -/
def rerunning (settings : Settings) (dryRun : DryRun) (current : Place) : List String :=
  dryRun.variablesPattern current ++
    settings.knownIgnorePaths.filter fun path => path = settings.manifestFile || path = settings.variablesFile

/-- The patterns of the occasion are those of the output, unless there is none, and of the variables. -/
theorem mem_ownPaths_iff (pattern : String) : pattern ∈ dryRun.ownPaths current ↔
    (dryRun.inTerminal = false ∧ pattern ∈ dryRun.outputPattern current) ∨
      pattern ∈ dryRun.variablesPattern current := by
  unfold ownPaths
  rw [List.mem_append]
  refine or_congr ?_ Iff.rfl
  cases dryRun.inTerminal with
  | true => simp
  | false => exact (and_iff_right rfl).symm

/-- A known path is watched or it is not. -/
theorem mem_knownIgnorePaths_iff (settings : Settings) (pattern : String) : pattern ∈ settings.knownIgnorePaths ↔
    pattern ∈ (settings.knownIgnorePaths.filter fun path =>
      path = settings.manifestFile || path = settings.variablesFile) ∨
    pattern ∈ (settings.knownIgnorePaths.filter fun path =>
      path ≠ settings.manifestFile && path ≠ settings.variablesFile) := by
  rw [List.mem_filter, List.mem_filter, ← and_or_left]
  refine (and_iff_left ?_).symm
  by_cases hfile : pattern = settings.manifestFile <;> simp [hfile, em]

/-- A fill has the patterns of what is not watched, except for that of the output in a terminal, and those for which
it is filled again. -/
theorem mem_patterns_iff (hmanifest : ((readManifest settings dryRun.source).on world).1 = .ok manifest)
    (pattern : String) : pattern ∈ dryRun.patterns settings world.disk.directory manifest ↔
      (dryRun.inTerminal = false ∧ pattern ∈ dryRun.outputPattern world.disk.directory) ∨
        pattern ∈ dryRun.rerunning settings world.disk.directory ∨ pattern ∈ dryRun.unwatched settings world := by
  have hunwatched : dryRun.unwatched settings world = (settings.knownIgnorePaths.filter fun path =>
      path ≠ settings.manifestFile && path ≠ settings.variablesFile) ++ manifest.configuration.ignorePaths := by
    rw [unwatched, hmanifest]
  rw [patterns, Manifest.ignorePatterns, hunwatched, rerunning, List.mem_append, List.mem_append, mem_ownPaths_iff,
    mem_knownIgnorePaths_iff, List.mem_append, List.mem_append]
  tauto

/-- **What is not filled** is known by three kinds of patterns. -/
theorem ignoredBy_patterns_iff (hmanifest : ((readManifest settings dryRun.source).on world).1 = .ok manifest)
    {parsed : List IgnorePattern}
    (hparsed : parsePatterns (dryRun.patterns settings world.disk.directory manifest) = .ok parsed) (names : Place) :
    ignoredBy (dryRun.patterns settings world.disk.directory manifest) names = true ↔
      (dryRun.inTerminal = false ∧ ignoredBy (dryRun.outputPattern world.disk.directory) names = true) ∨
        ignoredBy (dryRun.rerunning settings world.disk.directory) names = true ∨
          ignoredBy (dryRun.unwatched settings world) names = true := by
  have hmem := mem_patterns_iff hmanifest
  obtain ⟨_, hrerunning⟩ := exists_of_parsePatterns_subset hparsed fun pattern hpattern =>
    (hmem pattern).mpr (Or.inr (Or.inl hpattern))
  obtain ⟨_, hunwatched⟩ := exists_of_parsePatterns_subset hparsed fun pattern hpattern =>
    (hmem pattern).mpr (Or.inr (Or.inr hpattern))
  -- In a terminal the fill does not have the pattern of the output, and nothing says that it can be read.
  have houtput : dryRun.inTerminal = false → (ignoredBy (dryRun.outputPattern world.disk.directory) names = true ↔
      ∃ pattern ∈ dryRun.outputPattern world.disk.directory, ignoredBy [pattern] names = true) := by
    intro hfiles
    obtain ⟨_, hread⟩ := exists_of_parsePatterns_subset hparsed fun pattern hpattern =>
      (hmem pattern).mpr (Or.inl ⟨hfiles, hpattern⟩)
    exact ignoredBy_iff_exists hread names
  rw [ignoredBy_iff_exists hparsed, and_congr_right houtput, ignoredBy_iff_exists hrerunning,
    ignoredBy_iff_exists hunwatched]
  simp only [hmem, or_and_right, exists_or, and_assoc, exists_and_left]

/-! ## The patterns of what is watched -/

/-- **The patterns of what is watched can be read if those of the fill can**, but for that of an output that a terminal
has no use for. -/
theorem watchSet_isOk (hmanifest : ((readManifest settings dryRun.source).on world).1 = .ok manifest)
    (hroot : world.disk.canonical dryRun.source = .ok root) {parsed : List IgnorePattern}
    (hparsed : parsePatterns (dryRun.patterns settings world.disk.directory manifest) = .ok parsed) :
    ((dryRun.watchSet settings).on world).1.isOk = true ∨
      dryRun.inTerminal = true ∧ (parsePatterns (dryRun.outputPattern world.disk.directory)).isOk = false := by
  have hmem := mem_patterns_iff hmanifest
  obtain ⟨others, hothers⟩ := exists_of_parsePatterns_subset hparsed fun pattern hpattern =>
    (hmem pattern).mpr (Or.inr (Or.inr hpattern))
  cases houtput : parsePatterns (dryRun.outputPattern world.disk.directory) with
  | ok own =>
      left
      rw [watchSet_result, hroot]
      dsimp only
      rw [ofPatterns_append _ _ houtput, hothers]
      rfl
  | error fault =>
      refine Or.inr ⟨?_, rfl⟩
      cases hfiles : dryRun.inTerminal with
      | true => rfl
      | false =>
          -- The fill has this pattern as well, and its patterns can be read.
          obtain ⟨own, hown⟩ := exists_of_parsePatterns_subset hparsed fun pattern hpattern =>
            (hmem pattern).mpr (Or.inl ⟨hfiles, hpattern⟩)
          rw [houtput] at hown
          cases hown

/-- A change of what is not ignored counts, unless it is a backup. -/
theorem isRelevant_of_watched {path : String} {change : Change} (hkind : change.kind.isEdit = true)
    (hpath : path ∈ change.paths) (hbackup : isBackup path = false) (hwatched : set.ignores path = false) :
    change.isRelevant set = true := by
  rw [Change.isRelevant, hkind, Bool.true_and, List.any_eq_true]
  exact ⟨path, hpath, by rw [hbackup, hwatched]; rfl⟩

/-- **What is watched is what is filled, but for the files after which it is filled again** and for an output that a
terminal has no use for. If what is filled can be told by its patterns, then so can what is watched, unless it is that
output that cannot be read as a pattern. For everything in the template both are known by three kinds of patterns, and
they agree wherever none of those holds that only one of them has; the patterns of the manifest and of the variables
hold just there and behind if they are verbatim. So an edit of what is filled is a change that counts. The manifest and
the variables are watched as far as neither the output covers them nor any of the patterns that both have. -/
theorem watchSet_mirrors_fill (hsound : world.disk.Sound)
    (hmanifest : ((readManifest settings dryRun.source).on world).1 = .ok manifest)
    (hroot : world.disk.canonical dryRun.source = .ok root)
    (hfilled : ofPatterns root.render (dryRun.patterns settings world.disk.directory manifest) = .ok filled) :
    (((dryRun.watchSet settings).on world).1.isOk = true ∨
      dryRun.inTerminal = true ∧ (parsePatterns (dryRun.outputPattern world.disk.directory)).isOk = false) ∧
    ∀ set, ((dryRun.watchSet settings).on world).1 = .ok set → ∀ names, names ≠ [] → (∀ s ∈ names, IsName s) →
      let path := Place.render (root ++ names)
      let output := ignoredBy (dryRun.outputPattern world.disk.directory) names
      let reruns := ignoredBy (dryRun.rerunning settings world.disk.directory) names
      let others := ignoredBy (dryRun.unwatched settings world) names
      set.ignores path = (output || others) ∧
      filled.ignores path = ((!dryRun.inTerminal && output) || (reruns || others)) ∧
      ((∀ text ∈ dryRun.rerunning settings world.disk.directory, IsVerbatim text) →
        (reruns = true ↔ ∃ text ∈ dryRun.rerunning settings world.disk.directory, IsNamedBy names text)) ∧
      (reruns = false → (dryRun.inTerminal = true → output = false) → set.ignores path = filled.ignores path) ∧
      (filled.ignores path = false → (dryRun.inTerminal = true → output = false) → isBackup path = false →
        ∀ change : Change, change.kind.isEdit = true → path ∈ change.paths → change.isRelevant set = true) := by
  have hparsed := parsePatterns_of_ofPatterns hfilled
  refine ⟨watchSet_isOk hmanifest hroot hparsed, fun set hset names hne hnames => ?_⟩
  intro path output reruns others
  obtain ⟨entry, hfind⟩ := canonical_eq_ok.mp hroot
  have hwatched : set.ignores path = (output || others) := by
    rw [Bool.eq_iff_iff, Bool.or_eq_true]
    exact watchSet_ignores_iff hsound hset hroot hne hnames
  have hleft : filled.ignores path = ((!dryRun.inTerminal && output) || (reruns || others)) := by
    rw [ignores_render (base_of_ofPatterns hfilled) (hsound.isName (find_at? hfind)) hne hnames,
      ignoresRelative_eq_ignoredBy hfilled, Bool.eq_iff_iff, ignoredBy_patterns_iff hmanifest hparsed]
    simp only [Bool.or_eq_true, Bool.and_eq_true, Bool.not_eq_true', output, reruns, others]
  -- In both modes the output is left out of both or of none.
  have hagree : (dryRun.inTerminal = true → output = false) → (!dryRun.inTerminal && output) = output := by
    intro houtput
    cases hterminal : dryRun.inTerminal with
    | false => rfl
    | true => rw [houtput hterminal]; rfl
  refine ⟨hwatched, hleft, fun hverbatim => ignoredBy_verbatim_iff hverbatim, fun hreruns houtput => ?_,
    fun hfill houtput hbackup change hkind hpath => isRelevant_of_watched hkind hpath hbackup ?_⟩
  · rw [hwatched, hleft, hagree houtput, hreruns, Bool.false_or]
  · rw [hleft, hagree houtput, Bool.or_eq_false_iff, Bool.or_eq_false_iff] at hfill
    rw [hwatched, hfill.1, hfill.2.2, Bool.or_self]

/-- A dry run of a template with its output and its variables in it. -/
def nestedVariables : DryRun := { nested with variablesFrom := "t/v.yaml" }

theorem watchSet_mirrors_fill_nested :
    ∃ manifest set filled, ((readManifest .standard "t").on { disk := nestedDisk }).1 = .ok manifest ∧
      ((nestedVariables.watchSet .standard).on { disk := nestedDisk }).1 = .ok set ∧
      ofPatterns "/t" (nestedVariables.patterns .standard [] manifest) = .ok filled ∧
      set.ignores "/t/a" = filled.ignores "/t/a" ∧ filled.ignores "/t/v.yaml" = true ∧
      set.ignores "/t/v.yaml" = false := by
  have hread : (((readManifest .standard "t").on { disk := nestedDisk }).1.toOption.map fun manifest =>
      (ofPatterns "/t" (nestedVariables.patterns .standard [] manifest)).isOk) = some true := by decide +kernel
  cases hmanifest : ((readManifest .standard "t").on { disk := nestedDisk }).1 with
  | error failure =>
      rw [hmanifest] at hread
      cases hread
  | ok manifest =>
      rw [hmanifest] at hread
      cases hfilled : ofPatterns "/t" (nestedVariables.patterns .standard [] manifest) with
      | error fault =>
          simp [Except.toOption, hfilled, Except.isOk, Except.toBool] at hread
      | ok filled =>
          obtain ⟨hdone, hmirrors⟩ := @watchSet_mirrors_fill ["t"] .standard nestedVariables { disk := nestedDisk }
            manifest filled (by decide +kernel) hmanifest (by decide +kernel) hfilled
          cases hset : ((nestedVariables.watchSet .standard).on { disk := nestedDisk }).1 with
          | error failure =>
              rw [hset] at hdone
              rcases hdone with hdone | ⟨hterminal, -⟩
              · cases hdone
              · cases hterminal
          | ok set =>
              obtain ⟨-, -, -, hagrees, -⟩ := hmirrors set hset ["a"] (by simp) (by decide +kernel)
              obtain ⟨hwatched, hleft, -⟩ := hmirrors set hset ["v.yaml"] (by simp) (by decide +kernel)
              refine ⟨manifest, set, filled, rfl, rfl, hfilled, ?_, ?_, ?_⟩
              · exact hagrees (by decide +kernel) (by decide)
              · exact hleft.trans (by decide +kernel)
              · exact hwatched.trans (by decide +kernel)

/-- A template that leaves out whatever is written like its manifest. -/
def coveredDisk : Disk where
  tree := [(["t"], .directory), (["t", ".cloney.yaml"],
    .file ("name: a\ntemplate_version: 1.0.0\nmanifest_version: v1\n" ++
      "configuration:\n  ignore_paths: ['*.yaml']\n").toUTF8 false)]
  directory := []

/-- Its manifest is not watched, then. -/
example :
    (match ((nested.watchSet .standard).on { disk := coveredDisk }).1 with
      | .ok set => set.ignores "/t/.cloney.yaml"
      | .error _ => false) = true := by decide +kernel

end DryRun

end Stencil
