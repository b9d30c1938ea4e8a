import Stencil.Proofs.Files.Order
import Stencil.Proofs.Ignore

/-!
# Directories with the same files

Leaving ignored directories out of a walk leaves out what is ignored and nothing else, because all that is
inside of them is ignored, too (`walkUnignored_eq`). So which files are taken is known file by file
(`mem_filesOf_iff`), and two directories with the same unignored files give the same files, in the same order
(`filesOf_twin`).
-/

namespace Stencil.Files

theorem Visit.isIgnored_inner {set : IgnoreSet} {outer inner : Visit} (h : outer.isIgnored set = true)
    (hin : inner.names.isWithin outer.names = true) : inner.isIgnored set = true :=
  IgnoreSet.ignoresRelative_slashed h (Place.isWithin_iff.mp hin)

/-- If what is inside of a dropped visit is dropped anyway, nothing else is left out with it. -/
theorem pruned_eq_filter {drop : Visit → Bool}
    (hinner : ∀ outer inner : Visit, drop outer = true → inner.names.isWithin outer.names = true →
      drop inner = true) (visits : List Visit) :
    pruned drop none visits = visits.filter (!drop ·) := by
  suffices h : ∀ skipped? : Option Place,
      (∀ names ∈ skipped?, ∀ visit : Visit, visit.names.isWithin names = true → drop visit = true) →
        pruned drop skipped? visits = visits.filter (!drop ·) from h none (by simp)
  intro skipped? hskipped
  induction visits generalizing skipped? with
  | nil => rfl
  | cons visit rest ih =>
      rw [pruned, List.filter_cons]
      split
      · rename_i hany
        have hdrop : drop visit = true := by
          cases skipped? with
          | none => cases hany
          | some names => exact hskipped names rfl visit hany
        rw [hdrop]
        exact ih _ hskipped
      · split
        · rename_i hdrop
          rw [hdrop]
          refine ih _ fun names hnames inner hin => ?_
          split at hnames
          · obtain rfl := Option.some.inj hnames
            exact hinner visit inner hdrop hin
          · cases hnames
        · rename_i hkeep
          rw [if_pos (by simpa using hkeep), ih none (by simp)]

namespace Disk

variable {disk new : Disk} {root root' : Place} {set set' : IgnoreSet} {visits : List Visit} {visit : Visit}

/-- The files of a directory that are taken. -/
theorem filesOf_eq (hsound : disk.Sound) (hat : disk.at? root = some .directory)
    (hbase : set.base = root.render) :
    disk.filesOf set = .ok ((disk.visitsInside root).filter fun visit =>
      visit.entry.isFile && !visit.isIgnored set) := by
  rw [filesOf, walkUnignored, hbase, walk_render hsound hat rfl]
  simp only [pruned_eq_filter fun _ _ => Visit.isIgnored_inner, List.filter_filter]
  rw [List.filter_cons, if_neg (by simp [Entry.isFile])]
  rfl

/-- **A file is taken if it is there and not ignored.** -/
theorem mem_filesOf_iff (hsound : disk.Sound) (hat : disk.at? root = some .directory)
    (hbase : set.base = root.render) (h : disk.filesOf set = .ok visits) :
    visit ∈ visits ↔ visit.names ≠ [] ∧ visit.place = root ++ visit.names ∧
      disk.at? (root ++ visit.names) = some visit.entry ∧ visit.entry.isFile = true ∧
      set.ignoresRelative visit.names.slashed = false := by
  rw [filesOf_eq hsound hat hbase, Except.ok.injEq] at h
  subst h
  rw [List.mem_filter, Bool.and_eq_true, Bool.not_eq_true']
  constructor
  · rintro ⟨hmem, hfile, hkept⟩
    obtain ⟨hne, hplace, hthere⟩ := mem_visitsInside hsound hmem
    exact ⟨hne, hplace, hplace ▸ hthere, hfile, hkept⟩
  · rintro ⟨hne, hplace, hthere, hfile, hkept⟩
    refine ⟨List.mem_map.mpr ⟨(visit.names, visit.entry), hsound.mem_inside.mpr ⟨hne, hthere⟩, ?_⟩, hfile,
      hkept⟩
    simp only [← hplace]

end Disk

/-- A visit behind another start. -/
def Visit.moved (root : Place) (visit : Visit) : Visit := { visit with place := root ++ visit.names }

namespace Disk

variable {disk new : Disk} {root root' : Place} {set set' : IgnoreSet} {visits : List Visit}

/-- **Two directories with the same unignored files give the same files**, each behind its own start. -/
theorem filesOf_twin (hsound : disk.Sound) (hnew : new.Sound) (hat : disk.at? root = some .directory)
    (hat' : new.at? root' = some .directory) (hbase : set.base = root.render)
    (hbase' : set'.base = root'.render)
    (hsame : ∀ names entry, entry.isFile = true →
      (new.at? (root' ++ names) = some entry ∧ set'.ignoresRelative names.slashed = false ↔
        disk.at? (root ++ names) = some entry ∧ set.ignoresRelative names.slashed = false)) :
    new.filesOf set' = (disk.filesOf set).map (List.map (Visit.moved root')) := by
  obtain ⟨visits, hvisits⟩ : ∃ visits, disk.filesOf set = .ok visits := ⟨_, filesOf_eq hsound hat hbase⟩
  obtain ⟨visits', hvisits'⟩ : ∃ visits, new.filesOf set' = .ok visits := ⟨_, filesOf_eq hnew hat' hbase'⟩
  rw [hvisits, hvisits']
  refine congrArg Except.ok ?_
  have hsorted := filesOf_sorted hnew hvisits'
  have hsorted' : (visits.map (Visit.moved root')).Pairwise fun a b => a.names < b.names :=
    List.pairwise_map.mpr (filesOf_sorted hsound hvisits)
  have hnodup : ∀ {all : List Visit}, all.Pairwise (fun a b => a.names < b.names) → all.Nodup := by
    intro all hall
    refine hall.imp fun {a b} hlt heq => ?_
    exact List.lt_irrefl b.names (heq ▸ hlt)
  refine List.Perm.eq_of_pairwise (fun a b _ _ hlt hgt => ?_) hsorted hsorted' ?_
  · exact absurd (List.lt_trans hlt hgt) (List.lt_irrefl _)
  · refine (List.perm_ext_iff_of_nodup (hnodup hsorted) (hnodup hsorted')).mpr fun visit => ?_
    rw [mem_filesOf_iff hnew hat' hbase' hvisits', List.mem_map]
    constructor
    · rintro ⟨hne, hplace, hthere, hfile, hkept⟩
      obtain ⟨hthere', hkept'⟩ := (hsame visit.names visit.entry hfile).mp ⟨hthere, hkept⟩
      refine ⟨{ visit with place := root ++ visit.names }, ?_, ?_⟩
      · exact (mem_filesOf_iff hsound hat hbase hvisits).mpr ⟨hne, rfl, hthere', hfile, hkept'⟩
      · rw [Visit.moved, ← hplace]
    · rintro ⟨other, hother, rfl⟩
      obtain ⟨hne, _, hthere, hfile, hkept⟩ := (mem_filesOf_iff hsound hat hbase hvisits).mp hother
      obtain ⟨hthere', hkept'⟩ := (hsame other.names other.entry hfile).mpr ⟨hthere, hkept⟩
      exact ⟨hne, rfl, hthere', hfile, hkept'⟩

end Disk

end Stencil.Files
