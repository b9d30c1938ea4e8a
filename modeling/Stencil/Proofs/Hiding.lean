import Stencil.Proofs.Files.Collecting
import Stencil.Proofs.Fill.Printing
import Stencil.Proofs.Relevance
import Stencil.Proofs.Rerun

/-!
# What a dry run keeps to itself

The file of the variables may lie in the template. It is not part of it then, and its pattern is to keep it from being
filled. In the terminal that is all there is to it: what is printed are the files that no pattern ignores. In the other
mode the output is pruned afterwards by the same patterns, so what they ignore is not there in the end, whoever has
written it: a template that asks for a file of that name, or a link in the output.

So all depends on whether the pattern ignores the file. It is made from how the two paths are spelled, as that of the
output is, and so it misses a file whose path takes a detour, or whose name means something else as a pattern.
-/

namespace Stencil.DryRun

open Files Files.Disk IgnoreSet Fill

variable {settings : Settings} {dryRun : DryRun} {world after cleared : World} {patterns : List String}
  {vars : Variables} {names root room : Place} {disk : Disk}

/-! ## What the patterns name -/

/-- A file that is spelled behind the template is known by its names. -/
theorem mem_rerunning_of_spelled {path : String} {current : Place}
    (hpath : variablesFile? dryRun.variablesFrom = some path) (hne : names ≠ [])
    (hspelled : Path.IsSpelledBehind current dryRun.source path names) :
    names.slashed ∈ dryRun.rerunning settings current := by
  refine List.mem_append_left _ ?_
  rw [variablesPattern, hpath, Option.bind_some, hspelled.patternBelow?_eq hne]
  exact List.mem_singleton_self _

/-- What a verbatim pattern of a fill names is ignored by the fill. -/
theorem ignoredBy_patterns_of_verbatim {manifest : Manifest} {text : String} {parsed : List IgnorePattern}
    (hmanifest : ((readManifest settings dryRun.source).on world).1 = .ok manifest)
    (hparsed : parsePatterns (dryRun.patterns settings world.disk.directory manifest) = .ok parsed)
    (hmem : text ∈ dryRun.rerunning settings world.disk.directory) (hverbatim : IsVerbatim text)
    (hnamed : IsNamedBy names text) :
    ignoredBy (dryRun.patterns settings world.disk.directory manifest) names = true := by
  refine (ignoredBy_iff_exists hparsed names).mpr
    ⟨text, (mem_patterns_iff hmanifest text).mpr (Or.inr (Or.inl hmem)), ?_⟩
  refine (ignoredBy_verbatim_iff fun other hother => ?_).mpr ⟨text, List.mem_singleton_self text, hnamed⟩
  exact List.mem_singleton.mp hother ▸ hverbatim

/-! ## In the terminal -/

/-- A file is among those that are gathered unless it is ignored. -/
theorem exists_visit_iff {given : String} {visits : List Visit} {content : ByteArray} {executable : Bool}
    (hsound : disk.Sound) (hgather : gather given patterns disk = .ok (root, visits)) (hne : names ≠ [])
    (hat : disk.at? (root ++ names) = some (.file content executable)) :
    (∃ visit ∈ visits, visit.names = names) ↔ ignoredBy patterns names = false := by
  obtain ⟨hroot, set, hset, hfiles⟩ := gather_eq_ok.mp hgather
  obtain ⟨entry, hfind⟩ := canonical_eq_ok.mp hroot
  have hbase := base_of_ofPatterns hset
  -- The patterns are asked from where the source leads to, and that leads to itself.
  have hself : disk.canonical set.base = .ok root := by
    rw [hbase]
    exact canonical_eq_ok.mpr ⟨entry, hsound.find_render (find_at? hfind) (by simp [hsound.not_isLink hfind])⟩
  have hstart : set.base ≠ "" := by
    rw [hbase]
    simp [Place.render]
  have hcollects := collects_filesOf hsound hfiles
  rw [← ignoresRelative_eq_ignoredBy hset]
  constructor
  · rintro ⟨visit, hvisit, rfl⟩
    obtain ⟨hmeets, -, hkept⟩ := (hcollects.mem_iff visit).mp hvisit
    rwa [Visit.ignores_path hstart (isName_of_meets hsound hmeets)] at hkept
  · intro hkept
    have hmeets : disk.Meets set.base (.behind root names (.file content executable)) := .inside hself hne hat
    refine ⟨.behind root names (.file content executable), (hcollects.mem_iff _).mpr ⟨hmeets, rfl, ?_⟩, rfl⟩
    rw [Visit.ignores_path hstart (isName_of_meets hsound hmeets)]
    exact hkept

/-! ## In another directory -/

/-- **What is ignored is not delivered**, whatever is in the output and whoever has written it. -/
theorem deliver_hides (hsound : world.disk.Sound)
    (hdeliver : (dryRun.deliver settings patterns vars).on world = (.ok (), after))
    (hignored : ignoredBy patterns names = true) (hroom : after.disk.canonical dryRun.output = .ok room) :
    after.disk.at? (room ++ names) = none := by
  obtain ⟨filled, set, hfill, hset, hprune, -⟩ := exists_of_deliver hdeliver
  obtain ⟨hfilled, -⟩ := (fillDirectory_grows dryRun.source patterns vars dryRun.output hsound).done_of_ok hfill
  have hbase := base_of_ofPatterns hset
  have hunwanted : IsUnwantedName set settings.internalMark names :=
    Or.inr ((ignoresRelative_eq_ignoredBy hset names).trans hignored)
  rw [← hbase] at hroom
  -- The output leads where it led before it was pruned.
  have hleft := prune_left hfilled set settings.internalMark
  rw [hprune] at hleft
  obtain ⟨found, hfind⟩ := canonical_eq_ok.mp (canonical_grow hleft.shrunk.grown hroom)
  cases hat : after.disk.at? (room ++ names) with
  | none => rfl
  | some entry =>
      -- What has been left was there before, so it lay in a directory, and that was pruned.
      obtain ⟨outer, houter, hdir⟩ :=
        holds_iff.mp (hfilled.outer_append hunwanted.ne_nil (hleft.shrunk.at?_eq_some hat))
      rw [find_at? hfind, Option.some.injEq] at houter
      obtain ⟨new, heq, hpruned⟩ := prune_eq hfilled hfind (houter ▸ hdir) (by rw [hprune]; exact hroom)
      rw [hprune] at heq
      obtain ⟨rfl, -⟩ := Prod.mk.inj heq
      obtain ⟨-, hnot⟩ := (hpruned names entry hunwanted.ne_nil).mp hat
      exact absurd ⟨names, hunwanted.ne_nil, List.prefix_rfl, hunwanted⟩ hnot

/-! ## The whole dry run -/

/-- A dry run that succeeds was planned. -/
theorem exists_plan_of_run (hrun : (dryRun.run settings).on world = (.ok (), after)) :
    ∃ patterns vars, (dryRun.plan settings).on world = (.ok (patterns, vars), world) := by
  rcases hplan : (dryRun.plan settings).on world with ⟨failure | ⟨patterns, vars⟩, mid⟩
  · rw [run_on_error hplan] at hrun
    cases hrun
  · obtain rfl : mid = world := (plan_ends settings dryRun world).done_of_ok hplan
    exact ⟨patterns, vars, rfl⟩

/-- **A dry run that succeeds prints what was gathered**, all of it and nothing else. -/
theorem prints_of_run (hterminal : dryRun.inTerminal = true)
    (hplan : (dryRun.plan settings).on world = (.ok (patterns, vars), world))
    (hrun : (dryRun.run settings).on world = (.ok (), after)) :
    ∃ root visits blocks, gather dryRun.source patterns world.disk = .ok (root, visits) ∧
      List.Forall₂ (fun visit text => (plain dryRun.source vars root).printedFor world.disk visit = .ok text)
        visits blocks ∧
      after = { world with printed := world.printed ++ String.join blocks } := by
  rw [run_on_ok hplan, if_pos hterminal] at hrun
  cases hgather : gather dryRun.source patterns world.disk with
  | error failure =>
      rw [fillDirectory_on_ungathered vars hgather] at hrun
      cases hrun
  | ok found =>
      obtain ⟨root, visits⟩ := found
      rcases fillDirectory_on_gathered vars hgather with ⟨blocks, hblocks, hon⟩ | ⟨_, _, _, _, _, -, -, -, hon⟩ <;>
        rw [hon] at hrun
      · exact ⟨root, visits, blocks, rfl, hblocks, (Prod.mk.inj hrun).2.symm⟩
      · cases hrun

/-- The patterns of a dry run that succeeds can be read. -/
theorem exists_parsed_of_run (hplan : (dryRun.plan settings).on world = (.ok (patterns, vars), world))
    (hrun : (dryRun.run settings).on world = (.ok (), after)) : ∃ parsed, parsePatterns patterns = .ok parsed := by
  cases hterminal : dryRun.inTerminal with
  | true =>
      obtain ⟨root, visits, -, hgather, -⟩ := prints_of_run hterminal hplan hrun
      obtain ⟨-, set, hset, -⟩ := gather_eq_ok.mp hgather
      exact ⟨_, parsePatterns_of_ofPatterns hset⟩
  | false =>
      obtain ⟨patterns', vars', cleared, hplan', -, hdeliver⟩ := (run_eq_ok hterminal).mp hrun
      obtain ⟨rfl, rfl⟩ : patterns' = patterns ∧ vars' = vars := by simpa [hplan] using hplan'.symm
      obtain ⟨-, set, -, hset, -⟩ := exists_of_deliver hdeliver
      exact ⟨_, parsePatterns_of_ofPatterns hset⟩

/-- **Variables keep out of the result as far as their file is ignored.** Let their file lie in the template by some
names. If the path of the file is spelled like the template with these names behind it, they are among the patterns of
the dry run, and so is the name that such files usually have; and what a verbatim pattern names is ignored. In the
terminal the file is not printed if it is ignored, and only then. In the other mode there is nothing in the output by
these names if it is ignored, whatever the templates ask for. -/
theorem run_hides_variables {path : String} {content : ByteArray} {executable : Bool} (hsound : world.disk.Sound)
    (hpath : variablesFile? dryRun.variablesFrom = some path)
    (hroot : world.disk.canonical dryRun.source = .ok root) (hne : names ≠ [])
    (hfile : world.disk.find true path = .ok (root ++ names, .file content executable))
    (hrun : (dryRun.run settings).on world = (.ok (), after)) :
    ∃ manifest, ((readManifest settings dryRun.source).on world).1 = .ok manifest ∧
      let current := world.disk.directory
      let patterns := dryRun.patterns settings current manifest
      (Path.IsSpelledBehind current dryRun.source path names → names.slashed ∈ dryRun.rerunning settings current) ∧
      (settings.variablesFile ∈ settings.knownIgnorePaths →
        settings.variablesFile ∈ dryRun.rerunning settings current) ∧
      (∀ text ∈ dryRun.rerunning settings current, IsVerbatim text → IsNamedBy names text →
        ignoredBy patterns names = true) ∧
      (dryRun.inTerminal = true → ∃ vars visits blocks, gather dryRun.source patterns world.disk = .ok (root, visits) ∧
        List.Forall₂ (fun visit text => (plain dryRun.source vars root).printedFor world.disk visit = .ok text)
          visits blocks ∧
        after = { world with printed := world.printed ++ String.join blocks } ∧
        ((∃ visit ∈ visits, visit.names = names) ↔ ignoredBy patterns names = false)) ∧
      (dryRun.inTerminal = false → ignoredBy patterns names = true → ∀ room,
        after.disk.canonical dryRun.output = .ok room → after.disk.at? (room ++ names) = none) := by
  obtain ⟨patterns, vars, hplan⟩ := exists_plan_of_run hrun
  obtain ⟨parsed, hparsed⟩ := exists_parsed_of_run hplan hrun
  obtain ⟨manifest, hread, rfl⟩ := exists_manifest_of_plan hplan
  have hmanifest : ((readManifest settings dryRun.source).on world).1 = .ok manifest := by rw [hread]
  refine ⟨manifest, hmanifest, mem_rerunning_of_spelled hpath hne, fun hknown => ?_,
    fun text => ignoredBy_patterns_of_verbatim hmanifest hparsed, fun hterminal => ?_, fun hfiles hignored room => ?_⟩
  · exact List.mem_append_right _ (List.mem_filter.mpr ⟨hknown, by simp⟩)
  · obtain ⟨found, visits, blocks, hgather, hblocks, hafter⟩ := prints_of_run hterminal hplan hrun
    obtain rfl : root = found := Except.ok.inj (hroot.symm.trans (gather_eq_ok.mp hgather).1)
    exact ⟨vars, visits, blocks, hgather, hblocks, hafter, exists_visit_iff hsound hgather hne (find_at? hfile)⟩
  · obtain ⟨patterns, vars', cleared, hplan', hclear, hdeliver⟩ := (run_eq_ok hfiles).mp hrun
    obtain ⟨rfl, rfl⟩ : patterns = dryRun.patterns settings world.disk.directory manifest ∧ vars' = vars := by
      simpa [hplan] using hplan'.symm
    obtain ⟨-, hsound', -⟩ := cleared_of_ok hsound hclear
    exact deliver_hides hsound' hdeliver hignored

/-- A template with variables that are nobody else's business. -/
def secretTemplate : World where
  disk := { directory := [], tree := [(["t"], .directory), (["t", ".cloney.yaml"],
    .file "{name: a, template_version: 1.0.0, manifest_version: v1}".toUTF8 false),
    (["t", "a"], .file "a".toUTF8 false), (["t", "v.yaml"], .file "x: secret".toUTF8 false)] }

/-- A dry run of it. -/
def secretRun : DryRun where
  source := "t"
  output := "o"
  variablesFrom := "t/v.yaml"

theorem run_hides_variables_secret :
    ∃ after, (secretRun.run .standard).on secretTemplate = (.ok (), after) ∧
      after.disk.at? ["o", "a"] = some (.file "a".toUTF8 false) ∧ after.disk.at? ["o", "v.yaml"] = none := by
  have hdone : ((secretRun.run .standard).on secretTemplate).1 = .ok () := by decide +kernel
  have hroom : ((secretRun.run .standard).on secretTemplate).2.disk.canonical "o" = .ok ["o"] := by decide +kernel
  have hfilled : ((secretRun.run .standard).on secretTemplate).2.disk.at? ["o", "a"] =
      some (.file "a".toUTF8 false) := by decide +kernel
  rcases hrun : (secretRun.run .standard).on secretTemplate with ⟨result, after⟩
  rw [hrun] at hdone hroom hfilled
  obtain rfl : result = .ok () := hdone
  obtain ⟨manifest, -, hspelled, -, hverbatim, -, hhides⟩ := @run_hides_variables .standard secretRun secretTemplate
    after ["v.yaml"] ["t"] "t/v.yaml" "x: secret".toUTF8 false (by decide +kernel) (by decide +kernel)
    (by decide +kernel) (by simp) (by decide +kernel) hrun
  have hmem := hspelled ⟨[.root, .name "t"], by decide +kernel, by decide +kernel⟩
  have hignored := hverbatim _ hmem (by decide +kernel) (Or.inl rfl)
  exact ⟨after, rfl, hfilled, hhides rfl hignored ["o"] hroom⟩

/-- With a detour on the way to the same file it is not hidden. -/
example :
    (({ secretRun with variablesFrom := "t/../t/v.yaml" }.run .standard).on secretTemplate).2.disk.at?
      ["o", "v.yaml"] = some (.file "x: secret".toUTF8 false) := by decide +kernel

end Stencil.DryRun
