import Stencil.Files.Walk
import Stencil.Proofs.Files.Finding

/-!
# What walks visit

A walk visits what is there, each visit at its place: the start where the path leads, and everything
else behind the place that the path finds (`Disk.mem_walk`). Leaving out what is to be dropped leaves
nothing in that is to be dropped (`mem_pruned`).
-/

namespace Stencil.Files

open Disk

/-- Nothing is left that is to be dropped. -/
theorem mem_pruned {drop : Visit → Bool} {skipped? : Option Place} {visits : List Visit}
    {visit : Visit}
    (h : visit ∈ pruned drop skipped? visits) : visit ∈ visits ∧ drop visit = false := by
  induction visits generalizing skipped? with
  | nil => exact absurd h (by simp [pruned])
  | cons first rest ih =>
      rw [pruned] at h
      split at h
      · exact ⟨List.mem_cons_of_mem _ (ih h).1, (ih h).2⟩
      · split at h
        · exact ⟨List.mem_cons_of_mem _ (ih h).1, (ih h).2⟩
        · rename_i hkeep
          rcases List.mem_cons.mp h with rfl | h
          · exact ⟨List.mem_cons_self, by simpa using hkeep⟩
          · exact ⟨List.mem_cons_of_mem _ (ih h).1, (ih h).2⟩

namespace Disk

variable {disk : Disk} {place : Place} {entry : Entry} {start : String} {visits : List Visit}
  {visit : Visit}

theorem mem_visitsInside (hsound : disk.Sound) (h : visit ∈ disk.visitsInside place) :
    visit.names ≠ [] ∧ visit.place = place ++ visit.names ∧
      disk.at? visit.place = some visit.entry := by
  obtain ⟨⟨names, entry⟩, hinside, rfl⟩ := List.mem_map.mp h
  obtain ⟨hne, hat⟩ := hsound.mem_inside.mp hinside
  exact ⟨hne, rfl, hat⟩

/-- A walk visits nothing, or where its path leads and everything inside if it leads to a directory. -/
theorem walk_eq (h : disk.walk start = .ok visits) :
    visits = [] ∨ ∃ place entry root found, disk.find false start = .ok (place, entry) ∧
      disk.find true start = .ok (root, found) ∧
      visits = { names := [], place, entry } ::
        if found.isDirectory then disk.visitsInside root else [] := by
  unfold walk at h
  cases hfind : disk.find false start with
  | error fault =>
      rw [hfind] at h
      cases fault with
      | notFound => exact Or.inl (by simpa using h.symm)
      | _ => simp at h
  | ok found =>
      obtain ⟨place, entry⟩ := found
      rw [hfind] at h
      by_cases hlink : entry.isLink = true
      · cases entry with
        | file | directory | history => exact absurd hlink (by simp [Entry.isLink])
        | link target =>
            simp only at h
            cases htrue : disk.find true start with
            | error fault =>
                rw [htrue] at h
                cases fault with
                | notFound => exact Or.inl (by simpa using h.symm)
                | _ => simp at h
            | ok led =>
                obtain ⟨root, found⟩ := led
                rw [htrue, Except.ok.injEq] at h
                exact Or.inr ⟨place, _, root, found, rfl, rfl, h.symm⟩
      · -- What is no link is where the path leads in the end.
        have htrue := find_follow_last hfind (by simpa using hlink)
        refine Or.inr ⟨place, entry, place, entry, rfl, htrue, ?_⟩
        cases entry with
        | link => exact absurd rfl hlink
        | file | directory | history => exact (Except.ok.inj h).symm

/-- **A walk visits what is there**, behind the place that its start finds. -/
theorem mem_walk (hsound : disk.Sound) (h : disk.walk start = .ok visits) (hvisit : visit ∈ visits) :
    disk.at? visit.place = some visit.entry ∧
      (visit.names = [] ∧ disk.find false start = .ok (visit.place, visit.entry) ∨
        visit.names ≠ [] ∧ ∃ root, disk.canonical start = .ok root ∧
          visit.place = root ++ visit.names) := by
  rcases walk_eq h with rfl | ⟨place, entry, root, found, hfind, htrue, rfl⟩
  · exact absurd hvisit (by simp)
  · rcases List.mem_cons.mp hvisit with rfl | hmem
    · exact ⟨find_at? hfind, Or.inl ⟨rfl, hfind⟩⟩
    · split at hmem
      · obtain ⟨hne, hplace, hat⟩ := mem_visitsInside hsound hmem
        exact ⟨hat, Or.inr ⟨hne, root, canonical_eq_ok.mpr ⟨found, htrue⟩, hplace⟩⟩
      · exact absurd hmem (by simp)

/-- The files that are not ignored are there, and they are not ignored. -/
theorem mem_filesOf {set : IgnoreSet} {root : Place} (hsound : disk.Sound)
    (hat : disk.at? root = some entry)
    (hlink : entry.isLink = false) (hbase : set.base = root.render)
    (h : disk.filesOf set = .ok visits)
    (hvisit : visit ∈ visits) :
    visit.place = root ++ visit.names ∧
      (∃ content executable, disk.at? visit.place = some (.file content executable)) ∧
      visit.isIgnored set = false := by
  unfold filesOf walkUnignored at h
  rw [hbase] at h
  cases hwalk : disk.walk root.render with
  | error fault => simp [hwalk] at h
  | ok all =>
      rw [hwalk, Except.ok.injEq] at h
      subst h
      obtain ⟨hleft, hfile⟩ := List.mem_filter.mp hvisit
      obtain ⟨hall, hkept⟩ := mem_pruned hleft
      obtain ⟨hthere, hplace⟩ := mem_walk hsound hwalk hall
      have hfind : disk.find true root.render = .ok (root, entry) :=
        hsound.find_render hat (by simp [hlink])
      refine ⟨?_, ?_, hkept⟩
      · rcases hplace with ⟨hnames, hstart⟩ | ⟨_, root', hroot', hplace⟩
        · rw [hsound.find_render hat (by simp), Except.ok.injEq, Prod.mk.injEq] at hstart
          rw [hnames, List.append_nil, hstart.1]
        · rw [canonical_eq_ok.mpr ⟨entry, hfind⟩, Except.ok.injEq] at hroot'
          rw [hplace, hroot']
      · cases hentry : visit.entry with
        | file content executable => exact ⟨content, executable, hentry ▸ hthere⟩
        | directory | link | history => simp [hentry, Entry.isFile] at hfile

end Disk

/-! ## The paths of visits -/

namespace Visit

variable {visit : Visit} {root : Place}

theorem path_render (hnames : ∀ s ∈ root ++ visit.names, IsName s) :
    visit.path root.render = Place.render (root ++ visit.names) := by
  unfold path
  by_cases hempty : visit.names = []
  · simp [hempty]
  · rw [if_neg (by simpa using hempty)]
    exact Path.join_render (fun s hs => hnames s (List.mem_append_left _ hs))
      (fun s hs => hnames s (List.mem_append_right _ hs)) hempty

/-- Where a visit lies below a directory, its path behind another one lies there, too. -/
theorem spells_join (hroot : ∀ s ∈ root, IsName s) (hnames : ∀ s ∈ visit.names, IsName s) :
    Spells (Path.join root.render visit.relative) (root ++ visit.names) := by
  by_cases hempty : visit.names = []
  · rw [relative, hempty, List.append_nil, show "/".intercalate [] = "" from rfl, Path.join]
    have hrender := spells_render hroot
    have hne : root.render.isEmpty = false := by
      rw [Bool.eq_false_iff]
      simpa using hrender.ne_empty
    rw [hne, show "".startsWith "/" = false from by simp]
    simp only [Bool.or_self, Bool.false_eq_true, if_false, String.append_empty]
    split
    · exact hrender
    · exact hrender.append_slash
  · rw [relative, Path.join_render hroot hnames hempty]
    exact spells_render fun s hs => (List.mem_append.mp hs).elim (hroot s) (hnames s)

end Visit

end Stencil.Files
