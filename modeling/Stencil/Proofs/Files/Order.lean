import Mathlib.Data.List.Sort
import Stencil.Proofs.Files.Walk

/-!
# The order of a walk

What is inside a directory is listed in the order of its names (`inside_sorted`), so it is known from what is
there which list that is: two disks that agree on all that is at and inside a directory have the same walk
from it (`filesOf_congr`). Each file is met once, and in the order of paths (`filesOf_sorted`).
-/

namespace Stencil.Files

/-- Places behind the same place are in the order of what is behind it. -/
theorem Place.lt_of_append_lt {front a b : Place} (h : front ++ a < front ++ b) : a < b := by
  induction front with
  | nil => exact h
  | cons s front ih =>
      rw [List.cons_append, List.cons_append, List.cons_lt_cons_iff] at h
      exact ih (h.resolve_left (String.lt_irrefl s)).2

theorem pruned_sublist (drop : Visit → Bool) (skipped? : Option Place) (visits : List Visit) :
    (pruned drop skipped? visits).Sublist visits := by
  induction visits generalizing skipped? with
  | nil => exact .slnil
  | cons visit rest ih =>
      rw [pruned]
      split
      · exact (ih _).cons _
      · split
        · exact (ih _).cons _
        · exact (ih _).cons_cons _

namespace Disk

variable {disk new : Disk} {root : Place} {entry : Entry} {set : IgnoreSet} {visits : List Visit}

theorem Sound.inside_sorted (hsound : disk.Sound) (place : Place) :
    (disk.tree.inside place).Pairwise fun a b => a.1 < b.1 := by
  refine List.Pairwise.filterMap _ (fun a b hlt found hfound found' hfound' => ?_) hsound.sorted
  dsimp only at hfound hfound'
  split at hfound
  · rename_i hin
    split at hfound'
    · rename_i hin'
      obtain ⟨names, _, hnames⟩ := Place.isInside_iff.mp hin
      obtain ⟨names', _, hnames'⟩ := Place.isInside_iff.mp hin'
      obtain rfl := Option.some.inj hfound
      obtain rfl := Option.some.inj hfound'
      rw [hnames, hnames'] at hlt ⊢
      rw [List.drop_left, List.drop_left]
      exact Place.lt_of_append_lt hlt
    · cases hfound'
  · cases hfound

theorem mem_children (hsound : disk.Sound) {place : Place} {s : String} :
    s ∈ disk.children place ↔ ∃ entry, disk.at? (place ++ [s]) = some entry := by
  rw [Disk.children, List.mem_filterMap]
  constructor
  · rintro ⟨⟨found, entry⟩, hmem, hs⟩
    split at hs
    · rename_i hlength
      obtain ⟨t, rfl⟩ := List.length_eq_one_iff.mp hlength
      obtain rfl := Option.some.inj hs
      exact ⟨entry, (hsound.mem_inside.mp hmem).2⟩
    · cases hs
  · rintro ⟨entry, hat⟩
    exact ⟨([s], entry), hsound.mem_inside.mpr ⟨by simp, hat⟩, rfl⟩

theorem children_sorted (hsound : disk.Sound) (place : Place) : (disk.children place).Pairwise (· < ·) := by
  refine List.Pairwise.filterMap _ (fun a b hlt s hs t ht => ?_) (hsound.inside_sorted place)
  split at hs
  · split at ht
    · rename_i ha hb
      obtain ⟨s', hs'⟩ := List.length_eq_one_iff.mp ha
      obtain ⟨t', ht'⟩ := List.length_eq_one_iff.mp hb
      rw [hs'] at hs hlt
      rw [ht'] at ht hlt
      obtain rfl := Option.some.inj hs
      obtain rfl := Option.some.inj ht
      exact (List.cons_lt_cons_iff.mp hlt).resolve_right fun hnil => List.lt_irrefl _ hnil.2
    · cases ht
  · cases hs

/-- A listing has the names that have something in the directory. -/
theorem mem_listing {place : Place} {names : List String} {s : String} :
    (s, entry) ∈ names.filterMap (fun t => (disk.at? (place ++ [t])).map (t, ·)) ↔
      s ∈ names ∧ disk.at? (place ++ [s]) = some entry := by
  rw [List.mem_filterMap]
  constructor
  · rintro ⟨t, ht, hpair⟩
    obtain ⟨listed, hlisted, heq⟩ := Option.map_eq_some_iff.mp hpair
    obtain ⟨rfl, rfl⟩ := Prod.mk.inj heq
    exact ⟨ht, hlisted⟩
  · rintro ⟨hs, hat⟩
    exact ⟨s, hs, by rw [hat]; rfl⟩

/-- What is listed is in the directory that the path leads to. -/
theorem at?_of_list {path : String} {entries : List (String × Entry)} (h : disk.list path = .ok entries) :
    ∃ place outer, disk.find true path = .ok (place, outer) ∧
      ∀ s entry, (s, entry) ∈ entries → disk.at? (place ++ [s]) = some entry := by
  unfold Disk.list at h
  split at h
  · cases h
  · rename_i place outer hfind
    split at h
    · obtain rfl := Except.ok.inj h
      exact ⟨place, outer, hfind, fun s entry hmem => (mem_listing.mp hmem).2⟩
    · cases h

/-- What is in a directory is listed once, by its names. -/
theorem exists_list {path : String} {place : Place} {outer : Entry} (hsound : disk.Sound)
    (hfind : disk.find true path = .ok (place, outer)) (hdir : outer.isDirectory = true) :
    ∃ entries, disk.list path = .ok entries ∧
      (∀ s entry, (s, entry) ∈ entries ↔ disk.at? (place ++ [s]) = some entry) ∧
      entries.Pairwise fun a b => a.1 < b.1 := by
  refine ⟨_, by rw [Disk.list, hfind]; exact if_pos hdir, fun s entry => ?_, ?_⟩
  · rw [mem_listing]
    exact and_iff_right_of_imp fun hat => (mem_children hsound).mpr ⟨entry, hat⟩
  · refine List.Pairwise.filterMap _ (fun s t hlt a ha b hb => ?_) (children_sorted hsound place)
    obtain ⟨_, -, rfl⟩ := Option.map_eq_some_iff.mp ha
    obtain ⟨_, -, rfl⟩ := Option.map_eq_some_iff.mp hb
    exact hlt

/-- What is listed inside a place is known from what is there. -/
theorem inside_congr (hsound : disk.Sound) (hnew : new.Sound)
    (h : ∀ place, place.isWithin root = true → new.at? place = disk.at? place) :
    new.tree.inside root = disk.tree.inside root := by
  have hnodup : ∀ {other : Disk}, other.Sound → (other.tree.inside root).Nodup := by
    intro other hother
    refine (hother.inside_sorted root).imp fun {a b} hlt heq => ?_
    exact List.lt_irrefl b.1 (heq ▸ hlt)
  refine List.Perm.eq_of_pairwise (fun a b _ _ hlt hgt => ?_) (hnew.inside_sorted root)
    (hsound.inside_sorted root) ?_
  · exact absurd (List.lt_trans hlt hgt) (List.lt_irrefl _)
  · refine (List.perm_ext_iff_of_nodup (hnodup hnew) (hnodup hsound)).mpr ?_
    rintro ⟨names, entry⟩
    rw [hnew.mem_inside, hsound.mem_inside, h _ (Place.isWithin_append root names)]

theorem walk_render (hsound : disk.Sound) (hat : disk.at? root = some entry)
    (hlink : entry.isLink = false) :
    disk.walk root.render = .ok ({ names := [], place := root, entry } ::
      if entry.isDirectory then disk.visitsInside root else []) := by
  have hfind : disk.find false root.render = .ok (root, entry) := hsound.find_render hat (by simp)
  unfold walk
  rw [hfind]
  cases entry with
  | link => cases hlink
  | file | directory | history => rfl

/-- **The same files are met where the same is there.** -/
theorem filesOf_congr (hsound : disk.Sound) (hnew : new.Sound) (hat : disk.at? root = some entry)
    (hlink : entry.isLink = false) (hbase : set.base = root.render)
    (h : ∀ place, place.isWithin root = true → new.at? place = disk.at? place) :
    new.filesOf set = disk.filesOf set := by
  have hat' : new.at? root = some entry := (h root (Place.isWithin_self root)).trans hat
  have hinside : new.visitsInside root = disk.visitsInside root := by
    rw [visitsInside, visitsInside, inside_congr hsound hnew h]
  rw [filesOf, filesOf, walkUnignored, walkUnignored, hbase, walk_render hsound hat hlink,
    walk_render hnew hat' hlink, hinside]

theorem visitsInside_sorted (hsound : disk.Sound) (place : Place) :
    (disk.visitsInside place).Pairwise fun a b => a.names < b.names :=
  List.pairwise_map.mpr (hsound.inside_sorted place)

/-- The start of a walk comes before everything inside. -/
theorem walk_sorted (hsound : disk.Sound) (place root : Place) (entry : Entry) :
    (({ names := [], place, entry } : Visit) :: disk.visitsInside root).Pairwise fun a b => a.names < b.names := by
  refine List.pairwise_cons.mpr ⟨fun visit hvisit => ?_, visitsInside_sorted hsound root⟩
  obtain ⟨s, rest, hnames⟩ := List.exists_cons_of_ne_nil (mem_visitsInside hsound hvisit).1
  rw [hnames]
  exact List.nil_lt_cons s rest

/-- **Each file is met once, and in the order of paths.** -/
theorem filesOf_sorted (hsound : disk.Sound) (h : disk.filesOf set = .ok visits) :
    visits.Pairwise fun a b => a.names < b.names := by
  unfold filesOf walkUnignored at h
  cases hwalk : disk.walk set.base with
  | error fault => simp [hwalk] at h
  | ok all =>
      rw [hwalk, Except.ok.injEq] at h
      subst h
      refine List.Pairwise.sublist (List.filter_sublist.trans (pruned_sublist _ none all)) ?_
      rcases walk_eq hwalk with rfl | ⟨place, entry, root, found, _, _, rfl⟩
      · exact .nil
      · split
        · exact walk_sorted hsound place root entry
        · exact List.pairwise_singleton _ _

end Disk

end Stencil.Files
