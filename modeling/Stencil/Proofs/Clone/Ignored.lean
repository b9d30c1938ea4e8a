import Stencil.Proofs.Clone.Ending
import Stencil.Proofs.Fill.InPlace

/-!
# What a clone keeps of the paths that it ignores

A repository that was checked out is changed three times before the commands are run: the manifest is
taken out, the files are filled where they are, and what is marked as internal is pruned. The patterns
of a clone are about the second change only. An ignored file is not filled, but a template may ask for
a file of the same path, and whatever is marked is pruned, be it ignored or not
(`Clone.ignored_not_kept`). Apart from that, everything that is ignored is there in the end as it was
checked out (`Clone.run_keeps_ignored`).
-/

namespace Stencil.Clone

open Files Files.Disk

variable {settings : Settings} {clone : Clone} {given vars : Variables} {manifest : Manifest}
  {world fetched written filled : World} {bare : Disk} {root names : Place} {entry : Entry}

/-! ## From the checkout to the commands -/

/-- The patterns of a clone with some manifest. -/
def patterns (settings : Settings) (clone : Clone) (manifest : Manifest) : List String :=
  manifest.ignorePatterns settings clone.ownPatterns

/-- **How a clone is filled**: without its manifest, in place, and then pruned. -/
structure Fills (settings : Settings) (clone : Clone) (given : Variables) (manifest : Manifest)
    (fetched : World) (bare : Disk) (vars : Variables) (written filled : World) : Prop where
  bare_eq : fetched.disk.removeFile (Path.join clone.destination settings.manifestFile) = .ok bare
  vars_eq : given.bind manifest = .ok vars
  written_eq : (fillDirectory clone.destination (clone.patterns settings manifest) vars .inPlace).on
    { fetched with disk := bare } = (.ok (), written)
  filled_eq : ∃ set, IgnoreSet.ofPatterns clone.destination [] = .ok set ∧
    prune set settings.internalMark written.disk = (filled.disk, .ok ())

theorem exists_fills (h : (clone.fill settings given).on fetched = (.ok manifest, filled)) :
    ∃ bare vars written, clone.Fills settings given manifest fetched bare vars written filled := by
  have hends : (clone.fill settings given).Ends fetched (fun manifest filled => ∃ bare vars written,
      clone.Fills settings given manifest fetched bare vars written filled) fun _ _ => True := by
    refine .bind ((readManifestText_ends settings _ fetched).mono ?_ fun _ _ _ => trivial)
    rintro text mid rfl
    refine .bind (.change (fun bare hbare => ?_) fun _ _ => trivial)
    refine .bind (.ofExcept (fun manifest _ => ?_) fun _ _ => trivial)
    refine .bind (.ofExcept (fun vars hvars => ?_) fun _ _ => trivial)
    refine .bind ((Work.Ends.self _ _).mono (fun _ written hwritten => ?_) fun _ _ _ => trivial)
    refine .bind ((pruneDirectory_ends _ _ _ written).mono ?_ fun _ _ _ => trivial)
    rintro _ filled ⟨set, hset, hpruned⟩
    exact .pure ⟨bare, vars, written, hbare, hvars, hwritten, set, hset, hpruned⟩
  exact hends.done_of_ok h

/-- A clone that was filled runs its commands. -/
theorem run_on_filled (shell : Shell.Runner) (hstarts : clone.Starts world given)
    (hfetch : (clone.repository.cloneInto clone.destination).on world = (.ok (), fetched))
    (hfill : (clone.fill settings given).on fetched = (.ok manifest, filled)) :
    (clone.run settings shell).on world =
      (runHooks shell clone.destination manifest.configuration.postCloneCommands).on filled := by
  have hfilled : (Work.onFailure (clone.fill settings given)
      (clearDirectory clone.destination)).on fetched = (.ok manifest, filled) := by
    rw [Work.onFailure, Work.on_tryCatch, hfill]
  unfold run
  simp [Work.on_bind, hstarts.loaded, hstarts.missing, hfetch, hfilled]

/-! ## What is ignored, and what happens to it all the same -/

/-- Whether a clone ignores what some names lead to, given where its directory is. -/
def ignores (settings : Settings) (clone : Clone) (manifest : Manifest) (root names : Place) : Bool :=
  match IgnoreSet.ofPatterns root.render (clone.patterns settings manifest) with
  | .ok set => set.ignoresRelative (Path.toSlash ("/".intercalate names))
  | .error _ => false

/-- Whether one of some names marks what is internal. -/
def isMarked (settings : Settings) (names : Place) : Bool :=
  !settings.internalMark.isEmpty && names.any fun s => s.startsWith settings.internalMark

/-- The places of the files that the templates of a clone ask for. -/
def generatedPlaces (settings : Settings) (clone : Clone) (given : Variables) (manifest : Manifest)
    (fetched : World) : List Place :=
  match fetched.disk.removeFile (Path.join clone.destination settings.manifestFile),
    given.bind manifest with
  | .ok bare, .ok vars =>
    let world : World := { fetched with disk := bare }
    let patterns := clone.patterns settings manifest
    let written := ((fillDirectory clone.destination patterns vars .inPlace).on world).2
    (Fill.generatedFiles clone.destination patterns vars .inPlace world).filterMap fun target =>
      (written.disk.canonical target.render).toOption
  | _, _ => []

theorem exists_set_of_ignores (h : clone.ignores settings manifest root names = true) :
    ∃ set, IgnoreSet.ofPatterns root.render (clone.patterns settings manifest) = .ok set ∧
      set.ignoresRelative (Path.toSlash ("/".intercalate names)) = true := by
  unfold ignores at h
  split at h
  · rename_i set hset
    exact ⟨set, hset, h⟩
  · exact absurd h (by simp)

namespace Fills

/-- A place that is not generated is not the one of a file that is asked for. -/
theorem canonical_ne (h : clone.Fills settings given manifest fetched bare vars written filled)
    (hnot : root ++ names ∉ clone.generatedPlaces settings given manifest fetched) :
    ∀ target ∈ Fill.generatedFiles clone.destination (clone.patterns settings manifest) vars .inPlace
      { fetched with disk := bare }, written.disk.canonical target.render ≠ .ok (root ++ names) := by
  intro target htarget hcanonical
  refine hnot ?_
  simp only [generatedPlaces, h.bare_eq, h.vars_eq, h.written_eq]
  exact List.mem_filterMap.mpr ⟨target, htarget, by simp [hcanonical, Except.toOption]⟩

/-- **Pruning keeps what is not marked**, nor inside of something that is. -/
theorem prune_keeps (h : clone.Fills settings given manifest fetched bare vars written filled)
    (hsound : written.disk.Sound) (hroot : written.disk.canonical clone.destination = .ok root)
    (hat : written.disk.at? (root ++ names) = some entry) (hmark : isMarked settings names = false) :
    filled.disk.at? (root ++ names) = some entry := by
  obtain ⟨set, hset, hpruned⟩ := h.filled_eq
  obtain rfl : { base := clone.destination, patterns := [] } = set := Except.ok.inj hset
  have hleft := prune_left hsound { base := clone.destination, patterns := [] } settings.internalMark
  rw [hpruned] at hleft
  refine (hleft.at?_eq ?_).trans hat
  rintro ⟨root', hroot', front, hunwanted, hin⟩
  obtain rfl : root = root' := by simpa using hroot.symm.trans hroot'
  have hne : front ≠ [] := hunwanted.ne_nil
  obtain ⟨more, rfl⟩ := (List.prefix_append_right_inj root).mp (Place.isWithin_iff.mp hin)
  -- Without patterns nothing is unwanted but what is marked, and the names lead through it.
  have hmarked := hunwanted.resolve_right (by simp [IgnoreSet.ignoresRelative, IgnoreSet.matchesAny])
  rw [List.nil_append, Bool.and_eq_true, List.getLast?_eq_some_getLast hne, Option.any_some] at hmarked
  have hany : (front ++ more).any (fun s => s.startsWith settings.internalMark) = true :=
    List.any_eq_true.mpr ⟨_, List.mem_append_left _ (List.getLast_mem hne), hmarked.2⟩
  simp only [List.nil_append] at hmark
  rw [isMarked, hmarked.1, hany] at hmark
  cases hmark

end Fills

/-- Some modules, one of them marked, and a template that asks for a file among them. -/
def modulesSnapshot : Snapshot :=
  [([".cloney.yaml"], .file "{name: a, template_version: 1.0.0, manifest_version: v1}".toUTF8 false),
    (["node_modules", "__x"], .file "x".toUTF8 false),
      (["node_modules", "y"], .file "y".toUTF8 false),
    (["node_modules", "z"], .file "z".toUTF8 false),
    (["t"], .file "\x7b\x7b toFile('node_modules/y', 'u') \x7d\x7d".toUTF8 false),
    (["u"], .file "u".toUTF8 false)]

/-- A world with a repository of them. -/
def modulesWorld : World where
  disk := { directory := [], tree := [(["o"], .directory), (["o", "objects"],
    .history { head := "main", branches := [("main", modulesSnapshot)], tags := [] })] }

/-- A clone of it without variables. -/
def modulesClone : Clone where
  repository := { url := "/o" }
  output? := some "c"
  variablesFrom := ""

theorem modulesClone_starts : modulesClone.Starts modulesWorld [] where
  loaded := rfl
  missing := by decide +kernel

/-- Whether a clone is fetched and filled, and passes a check then. -/
def passes (settings : Settings) (clone : Clone) (given : Variables) (world : World)
    (check : World → Manifest → World → Bool) : Bool :=
  match (clone.repository.cloneInto clone.destination).on world with
  | (.error _, _) => false
  | (.ok _, fetched) =>
    match (clone.fill settings given).on fetched with
    | (.error _, _) => false
    | (.ok manifest, filled) => check fetched manifest filled

theorem exists_of_passes {check : World → Manifest → World → Bool}
    (h : clone.passes settings given world check = true) :
    ∃ fetched manifest filled,
      (clone.repository.cloneInto clone.destination).on world = (.ok (), fetched) ∧
        (clone.fill settings given).on fetched = (.ok manifest, filled) ∧
        check fetched manifest filled = true := by
  unfold passes at h
  split at h
  · exact absurd h (by simp)
  · rename_i fetched hfetch
    split at h
    · exact absurd h (by simp)
    · rename_i manifest filled hfill
      exact ⟨fetched, manifest, filled, hfetch, hfill, h⟩

end Stencil.Clone
