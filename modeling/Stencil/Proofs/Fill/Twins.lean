import Stencil.Proofs.Files.Behind
import Stencil.Proofs.Files.Twins
import Stencil.Proofs.Fill.Modes

/-!
# Templates that are elsewhere

The same template can lie in two directories, on one disk or on two (`Twins`). What its files become does not
depend on which of them is filled: the same templates are found by the same names (`Twins.templates_eq`), and
what is foretold of one directory is foretold of the other (`Twins.forecast_eq`).

What is shared need not be all that there is. It has to be whatever templates can ask for, and they cannot ask
for anything hidden; and the patterns have to see to it that the rest is not filled.
-/

namespace Stencil.Fill

open Files Files.Disk Template

/-- **Whether two directories have the same in them**, as far as names are shared, and no links there. -/
structure Twins (shared : Place → Prop) (disk : Disk) (given : String) (root : Place) (disk' : Disk)
    (given' : String) (root' : Place) : Prop where
  sound : disk.Sound
  sound' : disk'.Sound
  find_eq : disk.find true given = .ok (root, .directory)
  find_eq' : disk'.find true given' = .ok (root', .directory)
  visible : ∀ names : Place, (∀ s ∈ names, s.toList.head? ≠ some '.') → shared names
  same : ∀ names, shared names → disk'.at? (root' ++ names) = disk.at? (root ++ names)
  noLinks : ∀ names, shared names → ∀ target, disk.at? (root ++ names) ≠ some (.link target)

/-- Whether patterns leave the same files of two directories. -/
def LeaveSame (patterns : List String) (disk : Disk) (root : Place) (patterns' : List String) (disk' : Disk)
    (root' : Place) : Prop :=
  match IgnoreSet.ofPatterns root.render patterns, IgnoreSet.ofPatterns root'.render patterns' with
  | .error fault, .error fault' => fault' = fault
  | .ok set, .ok set' => ∀ names entry, entry.isFile = true →
      (disk'.at? (root' ++ names) = some entry ∧ set'.ignoresRelative names.slashed = false ↔
        disk.at? (root ++ names) = some entry ∧ set.ignoresRelative names.slashed = false)
  | _, _ => False

namespace Twins

variable {shared : Place → Prop} {disk disk' : Disk} {given given' : String} {root root' : Place}
  {patterns patterns' : List String} {visits : List Visit} {visit : Visit}

theorem given_ne (h : Twins shared disk given root disk' given' root') : given ≠ "" ∧ given' ≠ "" :=
  ⟨(find_iff_leads.mp h.find_eq).1.ne_empty, (find_iff_leads.mp h.find_eq').1.ne_empty⟩

/-- It does not matter which directory comes first. -/
theorem symm (h : Twins shared disk given root disk' given' root') :
    Twins shared disk' given' root' disk given root :=
  ⟨h.sound', h.sound, h.find_eq', h.find_eq, h.visible, fun names hshared => (h.same names hshared).symm,
    fun names hshared => h.same names hshared ▸ h.noLinks names hshared⟩

/-- What the name of a template stands for is shared. -/
theorem shared_templateNames (h : Twins shared disk given root disk' given' root') {name path : String}
    (hpath : Site.templatePath? given name = some path) {front : Place}
    (hfront : front <+: Site.templateNames name) : shared front :=
  h.visible front fun _ hs => Site.head?_templateNames hpath (hfront.subset hs)

/-- **The same templates are found.** -/
theorem templates_eq (h : Twins shared disk given root disk' given' root') (fill fill' : Fill)
    (hgiven : fill.given = given) (hgiven' : fill'.given = given') :
    fill'.templates disk' = fill.templates disk := by
  obtain ⟨hne, hne'⟩ := h.given_ne
  funext name
  unfold templates Site.readTemplate
  rw [Option.bind_some, Option.bind_some, hgiven, hgiven']
  cases hpath : Site.templatePath? given name with
  | none =>
      have hpath' : Site.templatePath? given' name = none := by
        rw [Site.templatePath?_eq] at hpath ⊢
        split at hpath
        · rename_i hhidden
          rw [if_pos hhidden]
        · cases hpath
      rw [hpath']
  | some path =>
      obtain ⟨path', hpath'⟩ : ∃ path', Site.templatePath? given' name = some path' := by
        rw [Site.templatePath?_eq] at hpath ⊢
        split at hpath
        · cases hpath
        · rename_i hvisible
          exact ⟨_, if_neg hvisible⟩
      obtain ⟨hbehind, hends⟩ := Site.templatePath?_behind hne hpath
      obtain ⟨hbehind', hends'⟩ := Site.templatePath?_behind hne' hpath'
      have hread := readText_congr h.find_eq h.find_eq' hbehind hbehind'
        (fun _ => Bool.eq_iff_iff.mpr (hends'.trans hends.symm))
        (fun front hfront => h.same front (h.shared_templateNames hpath hfront))
        (fun front _ hfront => h.noLinks front (h.shared_templateNames hpath hfront))
      rw [hpath']
      simp only [hread]

/-- The same files are gathered, each behind its own directory. -/
theorem gather_eq (h : Twins shared disk given root disk' given' root')
    (hpatterns : LeaveSame patterns disk root patterns' disk' root') :
    gather given' patterns' disk' = (gather given patterns disk).map fun found =>
      (root', found.2.map (Visit.moved root')) := by
  have hroot := canonical_eq_ok.mpr ⟨_, h.find_eq⟩
  have hroot' := canonical_eq_ok.mpr ⟨_, h.find_eq'⟩
  unfold LeaveSame at hpatterns
  unfold gather
  rw [hroot, hroot']
  dsimp only
  split at hpatterns
  · rename_i fault fault' hset hset'
    rw [hset, hset', hpatterns]
    rfl
  · rename_i set set' hset hset'
    have hfiles := filesOf_twin h.sound h.sound' (find_at? h.find_eq) (find_at? h.find_eq')
      (IgnoreSet.base_of_ofPatterns hset) (IgnoreSet.base_of_ofPatterns hset') hpatterns
    rw [hset, hset']
    dsimp only
    rw [hfiles, filesOf_eq h.sound (find_at? h.find_eq) (IgnoreSet.base_of_ofPatterns hset)]
    rfl
  · exact hpatterns.elim

/-- **The same is foretold of each file.** -/
theorem foretell_eq (h : Twins shared disk given root disk' given' root')
    (hpatterns : LeaveSame patterns disk root patterns' disk' root') (vars : Variables)
    (hgather : gather given patterns disk = .ok (root, visits)) (hvisit : visit ∈ visits) :
    (plain given' vars root').foretell disk' .nowhere (visit.moved root') =
      (plain given vars root).foretell disk .nowhere visit := by
  obtain ⟨content, executable, hat, hfind⟩ := file_of_gather h.sound hgather hvisit
  have hgather' := h.gather_eq hpatterns
  rw [hgather] at hgather'
  obtain ⟨content', executable', hat', hfind'⟩ :=
    file_of_gather h.sound' hgather' (List.mem_map_of_mem hvisit)
  obtain rfl : content = content' := by
    obtain ⟨_, set, hset, hfiles⟩ := gather_eq_ok.mp hgather
    obtain ⟨_, set', hset', _⟩ := gather_eq_ok.mp hgather'
    obtain ⟨_, _, hkept⟩ := mem_filesOf h.sound (find_at? h.find_eq) rfl (IgnoreSet.base_of_ofPatterns hset) hfiles hvisit
    unfold LeaveSame at hpatterns
    rw [hset, hset'] at hpatterns
    have hthere := ((hpatterns visit.names _ rfl).mpr ⟨hat, hkept⟩).1
    rw [show (visit.moved root').names = visit.names from rfl, hthere] at hat'
    exact (Entry.file.inj (Option.some.inj hat')).1
  have hread : disk.read (visit.path (plain given vars root).source) = .ok content := by
    simp only [plain, Disk.read, hfind]
  have hread' : disk'.read ((visit.moved root').path (plain given' vars root').source) = .ok content := by
    simp only [plain, Disk.read, hfind']
  simp only [foretell, hread, hread', rendered,
    h.templates_eq (plain given vars root) (plain given' vars root') rfl rfl]
  rfl

/-- **The same is foretold of two directories**, each behind its own. -/
theorem forecast_eq (h : Twins shared disk given root disk' given' root')
    (hpatterns : LeaveSame patterns disk root patterns' disk' root') (vars : Variables) :
    forecast given' patterns' vars disk' = (forecast given patterns vars disk).map fun found =>
      (root', found.2.map fun file => (file.1.moved root', file.2)) := by
  unfold forecast
  rw [h.gather_eq hpatterns]
  rcases hgather : gather given patterns disk with failure | ⟨root'', visits⟩
  · rfl
  · obtain rfl : root = root'' := by
      have hroot := (gather_eq_ok.mp hgather).1
      rw [canonical_eq_ok.mpr ⟨_, h.find_eq⟩, Except.ok.injEq] at hroot
      exact hroot
    have hall : ∀ some ⊆ visits, (plain given' vars root').foretellAll disk' (some.map (Visit.moved root')) =
        ((plain given vars root).foretellAll disk some).map
          (List.map fun file => (file.1.moved root', file.2)) := by
      intro some hsome
      induction some with
      | nil => rfl
      | cons visit rest ih =>
          have hrest := ih fun other hother => hsome (List.mem_cons_of_mem _ hother)
          rw [List.map_cons, foretellAll, foretellAll, List.mapM_cons, List.mapM_cons, ← foretellAll,
            ← foretellAll, hrest, h.foretell_eq hpatterns vars hgather (hsome List.mem_cons_self)]
          cases (plain given vars root).foretell disk .nowhere visit with
          | error failure => rfl
          | ok text? => cases (plain given vars root).foretellAll disk rest <;> rfl
    dsimp only [Except.map]
    rw [hall visits (List.Subset.refl visits)]
    cases (plain given vars root).foretellAll disk visits <;> rfl

/-! ## Quiet templates -/

/-- What is shared of quiet files is quiet. -/
theorem isQuietFill (h : Twins shared disk given root disk' given' root') {patterns : List String}
    (vars : Variables)
    (hkept : ∀ set, IgnoreSet.ofPatterns root.render patterns = .ok set → ∀ names content executable,
      disk.at? (root ++ names) = some (.file content executable) →
      set.ignoresRelative names.slashed = false → shared names)
    (hquiet : ∀ names content executable text, shared names →
      disk.at? (root ++ names) = some (.file content executable) → String.fromUTF8? content = some text →
      Quiet text) :
    IsQuietFill given patterns vars disk := by
  intro root'' visits hgather visit hvisit
  obtain ⟨hroot, set, hset, hfiles⟩ := gather_eq_ok.mp hgather
  rw [canonical_eq_ok.mpr ⟨_, h.find_eq⟩, Except.ok.injEq] at hroot
  subst hroot
  obtain ⟨content, executable, hat, hfind⟩ := file_of_gather h.sound hgather hvisit
  obtain ⟨_, _, hunignored⟩ := mem_filesOf h.sound (find_at? h.find_eq) rfl (IgnoreSet.base_of_ofPatterns hset) hfiles hvisit
  refine ⟨fun text htext => ?_, fun name _ path hpath text htext => ?_⟩
  · have hread : disk.read (visit.path root.render) = .ok content := by simp only [Disk.read, hfind]
    simp only [plain, readText, hread] at htext
    split at htext
    · rename_i found hfound
      obtain rfl := Except.ok.inj htext
      exact hquiet visit.names content executable found (hkept set hset _ _ _ hat hunignored) hat hfound
    · cases htext
  · obtain ⟨hbehind, _⟩ := Site.templatePath?_behind h.given_ne.1 hpath
    obtain ⟨content', executable', hthere, hfound⟩ := file_of_readText h.find_eq hbehind
      (fun front _ hfront => h.noLinks front (h.shared_templateNames hpath hfront)) htext
    exact hquiet _ content' executable' text (h.shared_templateNames hpath List.prefix_rfl) hthere hfound

end Twins

end Stencil.Fill
