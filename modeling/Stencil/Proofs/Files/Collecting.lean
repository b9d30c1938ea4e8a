import Mathlib.Data.List.Lex
import Stencil.Proofs.Files.Twins

/-!
# What is collected below a base

A walk goes from directory to directory, the names in each in order, and into a directory before the next name
(`PreOrder`). On a sound disk there is one such walk (`preOrder_iff`): each entry is met after the entries with
smaller names and before those with larger ones, at every depth, so the walk has the order of paths, and which
entries it meets is known from what is there. Since what is inside of something ignored is ignored, a walk that does
not look into ignored directories meets what a full one meets, less what is ignored.

`collected` says what that comes to for files and for directories.
-/

namespace Stencil.Files

/-- A walk over some names in a directory and all that is inside of those, where the directory lies behind a root:
`names` lead there, and the list has the names that are still to be met. What is to be dropped is not met, and not
looked into. -/
inductive PreOrder (disk : Disk) (root : Place) (drop : Visit → Bool) : Place → List String → List Visit → Prop
  | done {names : Place} : PreOrder disk root drop names [] []
  | dropped {names : Place} {s : String} {rest : List String} {entry : Entry} {visits : List Visit}
    (hat : disk.at? (root ++ (names ++ [s])) = some entry)
    (hdrop : drop (.behind root (names ++ [s]) entry) = true)
    (hrest : PreOrder disk root drop names rest visits) :
    PreOrder disk root drop names (s :: rest) visits
  | single {names : Place} {s : String} {rest : List String} {entry : Entry} {visits : List Visit}
    (hat : disk.at? (root ++ (names ++ [s])) = some entry)
    (hdrop : drop (.behind root (names ++ [s]) entry) = false)
    (hsingle : entry.isDirectory = false) (hrest : PreOrder disk root drop names rest visits) :
    PreOrder disk root drop names (s :: rest) (.behind root (names ++ [s]) entry :: visits)
  | directory {names : Place} {s : String} {rest : List String} {entry : Entry} {inner visits : List Visit}
    (hat : disk.at? (root ++ (names ++ [s])) = some entry)
    (hdrop : drop (.behind root (names ++ [s]) entry) = false)
    (hdir : entry.isDirectory = true)
    (hinner : PreOrder disk root drop (names ++ [s]) (disk.children (root ++ (names ++ [s]))) inner)
    (hrest : PreOrder disk root drop names rest visits) :
    PreOrder disk root drop names (s :: rest) (.behind root (names ++ [s]) entry :: (inner ++ visits))

variable {disk : Disk} {root names : Place} {drop : Visit → Bool} {children : List String} {visits : List Visit}

/-- Whether all that is inside of what is dropped is dropped, too. -/
def Closed (drop : Visit → Bool) : Prop :=
  ∀ outer inner : Visit, drop outer = true → inner.names.isWithin outer.names = true → drop inner = true

/-- Whether a visit is to what is there behind a root. -/
def Visit.IsThere (disk : Disk) (root : Place) (visit : Visit) : Prop :=
  visit.place = root ++ visit.names ∧ disk.at? visit.place = some visit.entry

theorem Visit.IsThere.eq_behind {visit : Visit} (h : visit.IsThere disk root) {entry : Entry}
    (hnames : visit.names = names) (hat : disk.at? (root ++ names) = some entry) : visit = .behind root names entry := by
  obtain ⟨found, place, entry'⟩ := visit
  obtain ⟨hplace, hthere⟩ := h
  dsimp only at hplace hthere hnames
  subst hnames hplace
  rw [hat] at hthere
  rw [Option.some.inj hthere, Visit.behind]

namespace PreOrder

/-- **What is met lies behind one of the names, and was not dropped.** -/
theorem mem_iff (hsound : disk.Sound) (hclosed : Closed drop)
    (h : PreOrder disk root drop names children visits) (visit : Visit) :
    visit ∈ visits ↔ (∃ s ∈ children, (names ++ [s]) <+: visit.names) ∧ visit.IsThere disk root ∧
      drop visit = false := by
  induction h with
  | done => simp
  | @dropped names s rest entry visits hat hdrop hrest ih =>
      rw [ih]
      refine and_congr_left fun ⟨hthere, hkept⟩ => ?_
      have hnot : ¬ (names ++ [s]) <+: visit.names := by
        intro hlead
        rw [hclosed _ visit hdrop (Place.isWithin_iff.mpr hlead)] at hkept
        cases hkept
      simp [hnot]
  | @single names s rest entry visits hat hdrop hsingle hrest ih =>
      rw [List.mem_cons, ih]
      constructor
      · rintro (rfl | ⟨⟨t, ht, hlead⟩, hthere⟩)
        · exact ⟨⟨s, List.mem_cons_self, List.prefix_rfl⟩, ⟨rfl, hat⟩, hdrop⟩
        · exact ⟨⟨t, List.mem_cons_of_mem s ht, hlead⟩, hthere⟩
      · rintro ⟨⟨t, ht, hlead⟩, hthere, hkept⟩
        rcases List.mem_cons.mp ht with rfl | ht
        · -- Nothing is inside of what is no directory.
          have hwithin : visit.place.isWithin (root ++ (names ++ [t])) = true := by
            rw [hthere.1]
            exact Place.isWithin_iff.mpr ((List.prefix_append_right_inj root).mpr hlead)
          have heq := hsound.eq_of_isWithin hat hsingle hthere.2 hwithin
          rw [hthere.1, List.append_cancel_left_eq] at heq
          exact Or.inl (hthere.eq_behind heq hat)
        · exact Or.inr ⟨⟨t, ht, hlead⟩, hthere, hkept⟩
  | @directory names s rest entry inner visits hat hdrop hdir hinner hrest ihInner ih =>
      rw [List.mem_cons, List.mem_append, ihInner, ih]
      constructor
      · rintro (rfl | ⟨⟨t, _, hlead⟩, hthere⟩ | ⟨⟨t, ht, hlead⟩, hthere⟩)
        · exact ⟨⟨s, List.mem_cons_self, List.prefix_rfl⟩, ⟨rfl, hat⟩, hdrop⟩
        · exact ⟨⟨s, List.mem_cons_self, (List.prefix_append _ _).trans hlead⟩, hthere⟩
        · exact ⟨⟨t, List.mem_cons_of_mem s ht, hlead⟩, hthere⟩
      · rintro ⟨⟨t, ht, hlead⟩, hthere, hkept⟩
        rcases List.mem_cons.mp ht with rfl | ht
        · obtain ⟨more, hmore⟩ := hlead
          cases more with
          | nil => exact Or.inl (hthere.eq_behind (by simpa using hmore.symm) hat)
          | cons u more =>
              have hsplit : (names ++ [t] ++ [u]) ++ more = visit.names := by rw [← hmore]; simp
              have hwithin : visit.place.isWithin (root ++ (names ++ [t]) ++ [u]) = true := by
                rw [hthere.1, ← hsplit]
                exact Place.isWithin_iff.mpr ⟨more, by simp⟩
              obtain ⟨found, hfound⟩ := hsound.exists_at? hthere.2 hwithin
              exact Or.inr (Or.inl ⟨⟨u, (Disk.mem_children hsound).mpr ⟨found, hfound⟩, ⟨more, hsplit⟩⟩, hthere,
                hkept⟩)
        · exact Or.inr (Or.inr ⟨⟨t, ht, hlead⟩, hthere, hkept⟩)

theorem lt_of_leads {s t : String} {a b : Place} (hlt : s < t) (ha : (names ++ [s]) <+: a)
    (hb : (names ++ [t]) <+: b) : a < b := by
  obtain ⟨more, rfl⟩ := ha
  obtain ⟨more', rfl⟩ := hb
  rw [List.append_assoc, List.append_assoc]
  exact List.append_left_lt (List.cons_lt_cons_iff.mpr (Or.inl hlt))

theorem lt_of_inner {u : String} {a : Place} (ha : (names ++ [u]) <+: a) : names < a := by
  obtain ⟨more, rfl⟩ := ha
  have hlt : names ++ [] < names ++ ([u] ++ more) := List.append_left_lt (List.nil_lt_cons u more)
  rwa [List.append_nil, ← List.append_assoc] at hlt

/-- **The names that lead to what is met are in order**, if those in each directory are. -/
theorem sorted (hsound : disk.Sound) (hclosed : Closed drop) (hchildren : children.Pairwise (· < ·))
    (h : PreOrder disk root drop names children visits) : visits.Pairwise fun a b => a.names < b.names := by
  induction h with
  | done => exact .nil
  | dropped _ _ _ ih => exact ih (List.pairwise_cons.mp hchildren).2
  | @single names s rest entry visits _ _ _ hrest ih =>
      obtain ⟨hfirst, hothers⟩ := List.pairwise_cons.mp hchildren
      refine List.pairwise_cons.mpr ⟨fun visit hvisit => ?_, ih hothers⟩
      obtain ⟨⟨t, ht, hlead⟩, -⟩ := (hrest.mem_iff hsound hclosed visit).mp hvisit
      exact lt_of_leads (hfirst t ht) List.prefix_rfl hlead
  | @directory names s rest entry inner visits _ _ _ hinner hrest ihInner ih =>
      obtain ⟨hfirst, hothers⟩ := List.pairwise_cons.mp hchildren
      have hbehind : ∀ visit ∈ inner, ∃ u, (names ++ [s] ++ [u]) <+: visit.names := by
        intro visit hvisit
        obtain ⟨⟨u, -, hlead⟩, -⟩ := (hinner.mem_iff hsound hclosed visit).mp hvisit
        exact ⟨u, hlead⟩
      have hlater : ∀ visit ∈ visits, ∃ t ∈ rest, (names ++ [t]) <+: visit.names := by
        intro visit hvisit
        obtain ⟨⟨t, ht, hlead⟩, -⟩ := (hrest.mem_iff hsound hclosed visit).mp hvisit
        exact ⟨t, ht, hlead⟩
      -- The directory, what is inside of it, the rest: what is known of the names of each is how they start.
      refine List.pairwise_cons.mpr ⟨fun visit hvisit => ?_, List.pairwise_append.mpr
        ⟨ihInner (Disk.children_sorted hsound _), ih hothers, fun visit hvisit other hother => ?_⟩⟩
      · rcases List.mem_append.mp hvisit with hvisit | hvisit
        · obtain ⟨u, hlead⟩ := hbehind visit hvisit
          exact lt_of_inner hlead
        · obtain ⟨t, ht, hlead⟩ := hlater visit hvisit
          exact lt_of_leads (hfirst t ht) List.prefix_rfl hlead
      · obtain ⟨u, hlead⟩ := hbehind visit hvisit
        obtain ⟨t, ht, hlead'⟩ := hlater other hother
        exact lt_of_leads (hfirst t ht) ((List.prefix_append _ _).trans hlead) hlead'

end PreOrder

/-- Walks are the same if the same is dropped of what is there. -/
theorem PreOrder.congr {drop' : Visit → Bool} (hsame : ∀ visit : Visit, visit.IsThere disk root → drop visit = drop' visit)
    (h : PreOrder disk root drop names children visits) : PreOrder disk root drop' names children visits := by
  induction h with
  | done => exact .done
  | dropped hat hdrop _ ih => exact .dropped hat (hsame (.behind root _ _) ⟨rfl, hat⟩ ▸ hdrop) ih
  | single hat hdrop hsingle _ ih =>
      exact .single hat (hsame (.behind root _ _) ⟨rfl, hat⟩ ▸ hdrop) hsingle ih
  | directory hat hdrop hdir _ _ ihInner ih =>
      exact .directory hat (hsame (.behind root _ _) ⟨rfl, hat⟩ ▸ hdrop) hdir ihInner ih

theorem nodup_of_sorted (h : visits.Pairwise fun a b => a.names < b.names) : visits.Nodup := by
  refine h.imp fun {a b} hlt heq => ?_
  exact List.lt_irrefl b.names (heq ▸ hlt)

/-- There is a walk over whatever is not deeper than some number. -/
theorem exists_preOrder (hsound : disk.Sound) (drop : Visit → Bool) (depth : Nat)
    (hdepth : ∀ more entry, disk.at? (root ++ (names ++ more)) = some entry → more.length ≤ depth)
    (hchildren : ∀ s ∈ children, ∃ entry, disk.at? (root ++ (names ++ [s])) = some entry) :
    ∃ visits, PreOrder disk root drop names children visits := by
  -- On the depth for what is inside, and on the names for what comes next.
  induction depth generalizing names children with
  | zero =>
      cases children with
      | nil => exact ⟨[], .done⟩
      | cons s rest =>
          obtain ⟨entry, hat⟩ := hchildren s List.mem_cons_self
          exact absurd (hdepth [s] entry hat) (by simp)
  | succ depth ih =>
      induction children with
      | nil => exact ⟨[], .done⟩
      | cons s rest ihRest =>
          obtain ⟨visits, hvisits⟩ := ihRest fun t ht => hchildren t (List.mem_cons_of_mem s ht)
          obtain ⟨entry, hat⟩ := hchildren s List.mem_cons_self
          by_cases hdrop : drop (.behind root (names ++ [s]) entry) = true
          · exact ⟨visits, .dropped hat hdrop hvisits⟩
          · have hkept := Bool.eq_false_iff.mpr hdrop
            cases hdir : entry.isDirectory with
            | false => exact ⟨_, .single hat hkept hdir hvisits⟩
            | true =>
                have hinside : ∀ more found, disk.at? (root ++ ((names ++ [s]) ++ more)) = some found →
                    more.length ≤ depth := by
                  intro more found hfound
                  have hle := hdepth (s :: more) found (by simpa using hfound)
                  simpa using hle
                have hthere : ∀ t ∈ disk.children (root ++ (names ++ [s])),
                    ∃ found, disk.at? (root ++ ((names ++ [s]) ++ [t])) = some found := by
                  intro t ht
                  simpa using (Disk.mem_children hsound).mp ht
                obtain ⟨inner, hinner⟩ := ih hinside hthere
                exact ⟨_, .directory hat hkept hdir hinner hvisits⟩

theorem mem_visitsInside_iff (hsound : disk.Sound) {visit : Visit} :
    visit ∈ disk.visitsInside root ↔ visit.names ≠ [] ∧ visit.IsThere disk root := by
  constructor
  · intro h
    exact Disk.mem_visitsInside hsound h
  · rintro ⟨hne, hplace, hat⟩
    refine List.mem_map.mpr ⟨(visit.names, visit.entry), hsound.mem_inside.mpr ⟨hne, hplace ▸ hat⟩, ?_⟩
    simp only [← hplace]

/-- **The walk over a directory lists what is inside, less what is dropped**, in order. -/
theorem preOrder_iff (hsound : disk.Sound) (hclosed : Closed drop) :
    PreOrder disk root drop [] (disk.children root) visits ↔ visits = (disk.visitsInside root).filter (!drop ·) := by
  have hunique : ∀ {visits}, PreOrder disk root drop [] (disk.children root) visits →
      visits = (disk.visitsInside root).filter (!drop ·) := by
    intro visits h
    have hsorted := h.sorted hsound hclosed (Disk.children_sorted hsound root)
    have hsorted' := (Disk.visitsInside_sorted hsound root).filter (!drop ·)
    refine List.Perm.eq_of_pairwise (fun a b _ _ hlt hgt => ?_) hsorted hsorted' ?_
    · exact absurd (List.lt_trans hlt hgt) (List.lt_irrefl _)
    · refine (List.perm_ext_iff_of_nodup (nodup_of_sorted hsorted) (nodup_of_sorted hsorted')).mpr fun visit => ?_
      rw [h.mem_iff hsound hclosed, List.mem_filter, mem_visitsInside_iff hsound, Bool.not_eq_true', and_assoc]
      refine and_congr_left fun ⟨hthere, _⟩ => ?_
      constructor
      · rintro ⟨s, -, hlead⟩ hnil
        rw [hnil] at hlead
        simp at hlead
      · intro hne
        obtain ⟨s, more, hnames⟩ := List.exists_cons_of_ne_nil hne
        have hwithin : visit.place.isWithin (root ++ [s]) = true := by
          rw [hthere.1, hnames]
          exact Place.isWithin_iff.mpr ⟨more, by simp⟩
        exact ⟨s, (Disk.mem_children hsound).mpr (hsound.exists_at? hthere.2 hwithin), more, hnames.symm⟩
  refine ⟨hunique, ?_⟩
  rintro rfl
  have hdepth : ∀ more entry, disk.at? (root ++ ([] ++ more)) = some entry → more.length ≤ disk.tree.depth := by
    intro more entry hat
    have hle := hsound.length_le_depth hat
    simp only [List.length_append] at hle
    omega
  obtain ⟨visits, hvisits⟩ := exists_preOrder hsound drop disk.tree.depth hdepth
    fun s hs => (Disk.mem_children hsound).mp hs
  exact hunique hvisits ▸ hvisits

end Stencil.Files

/-! ## Paths in order -/

namespace Stencil

open Files

/-- The order of parts: the root, a dot, a step up, and then names by their characters. -/
inductive Part.Before : Part → Part → Prop
  | root {part : Part} (h : part ≠ .root) : Before .root part
  | currentParent : Before .current .parent
  | currentName (s : String) : Before .current (.name s)
  | parentName (s : String) : Before .parent (.name s)
  | name {s t : String} (h : s < t) : Before (.name s) (.name t)

/-- The order of paths, part by part. -/
def Path.Before (path other : Path) : Prop := List.Lex Part.Before path other

theorem Path.before_append (front : Path) {a b : Place} (h : a < b) :
    Path.Before (front ++ a.map .name) (front ++ b.map .name) := by
  refine List.Lex.append_left _ ?_ front
  induction h with
  | nil => exact .nil
  | cons _ ih => exact .cons ih
  | rel hlt => exact .rel (.name hlt)

theorem Path.not_before_self (path : Path) : ¬ Path.Before path path :=
  List.lex_irrefl (fun part h => by
    cases h with
    | root hne => exact hne rfl
    | name hlt => exact String.lt_irrefl _ hlt) path

end Stencil

namespace Stencil.Files

/-! ## What is collected -/

/-- What there is to meet at and below a base: what its path leads to, no link followed at its end, and what is
inside of the directory that the path leads to in the end. -/
inductive Disk.Meets (disk : Disk) (base : String) : Visit → Prop
  | start {place : Place} {entry : Entry} (h : disk.find false base = .ok (place, entry)) :
    disk.Meets base { names := [], place, entry }
  | inside {root names : Place} {entry : Entry} (hroot : disk.canonical base = .ok root) (hne : names ≠ [])
    (hat : disk.at? (root ++ names) = some entry) : disk.Meets base (.behind root names entry)

/-- Whether visits are to all that is of some kind at and below a base and not ignored, each once and in the order of
paths, as one gets them from a walk that does not look into what is ignored, or from a full one less what is ignored. -/
structure Disk.Collects (disk : Disk) (set : IgnoreSet) (keep : Entry → Bool) (visits : List Visit) : Prop where
  mem_iff : ∀ visit, visit ∈ visits ↔ disk.Meets set.base visit ∧ keep visit.entry = true ∧
    set.ignores (visit.path set.base) = false
  nodup : (visits.map (·.path set.base)).Nodup
  increasing : (visits.map (·.path set.base)).Pairwise fun path other =>
    (Path.ofString path).Before (Path.ofString other)
  skipping : ∀ place entry root, disk.find false set.base = .ok (place, entry) → disk.canonical set.base = .ok root →
    ∃ inside, PreOrder disk root (fun visit => set.ignores (visit.path set.base)) [] (disk.children root) inside ∧
      visits = (({ names := [], place, entry } : Visit) :: inside).filter (keep ·.entry)
  filtering : ∀ place entry root, disk.find false set.base = .ok (place, entry) → disk.canonical set.base = .ok root →
    ∃ inside, PreOrder disk root (fun _ => false) [] (disk.children root) inside ∧
      visits = (({ names := [], place, entry } : Visit) :: inside).filter fun visit =>
        keep visit.entry && !set.ignores (visit.path set.base)

section Collected

variable {disk : Disk} {root : Place} {set : IgnoreSet} {keep : Entry → Bool} {visits : List Visit} {visit : Visit}

/-- A visit is ignored if its path is. -/
theorem Visit.ignores_path (hbase : set.base ≠ "") (h : ∀ s ∈ visit.names, IsName s) :
    set.ignores (visit.path set.base) = visit.isIgnored set := by
  unfold path isIgnored name relative
  by_cases hempty : visit.names = []
  · rw [if_pos (by simpa using hempty), IgnoreSet.ignores, Path.below?_self hbase, hempty]
    rfl
  · rw [if_neg (by simpa using hempty), IgnoreSet.ignores_join hbase hempty h]
    rfl

/-- The parts of the path of a visit. -/
theorem Visit.ofString_path {base : String} (hbase : base ≠ "") (h : ∀ s ∈ visit.names, IsName s) :
    Path.ofString (visit.path base) = Path.ofString base ++ visit.names.map .name := by
  unfold path
  by_cases hempty : visit.names = []
  · rw [if_pos (by simpa using hempty), hempty, List.map_nil, List.append_nil]
  · rw [if_neg (by simpa using hempty), relative, Path.ofString_join hbase hempty h]

namespace Disk

variable {base : String} {place : Place} {entry : Entry}

theorem visitsInside_eq_nil (hsound : disk.Sound) (h : ¬ disk.Holds root) : disk.visitsInside root = [] := by
  refine List.eq_nil_iff_forall_not_mem.mpr fun visit hvisit => ?_
  obtain ⟨hne, hplace, hat⟩ := mem_visitsInside hsound hvisit
  rw [hplace, hsound.at?_append_eq_none hne h] at hat
  cases hat

/-- A walk starts where its path leads, and goes on inside. -/
theorem walk_of_found (hsound : disk.Sound) (h : disk.find false base = .ok (place, entry))
    (hroot : disk.canonical base = .ok root) :
    disk.walk base = .ok ({ names := [], place, entry } :: disk.visitsInside root) := by
  obtain ⟨found, htrue⟩ := canonical_eq_ok.mp hroot
  have hinside : (if found.isDirectory then disk.visitsInside root else []) = disk.visitsInside root := by
    split
    · rfl
    · rename_i hdir
      refine (visitsInside_eq_nil hsound fun hholds => hdir ?_).symm
      obtain ⟨there, hthere, hdir⟩ := holds_iff.mp hholds
      rwa [Option.some.inj ((find_at? htrue).symm.trans hthere)]
  unfold walk
  rw [h]
  cases entry with
  | link target =>
      simp only [htrue]
      rw [hinside]
  | _ =>
      have hsame := find_follow_last h rfl
      rw [htrue, Except.ok.injEq, Prod.mk.injEq] at hsame
      obtain ⟨rfl, rfl⟩ := hsame
      simp only
      rw [hinside]

theorem walk_cases (hsound : disk.Sound) (h : disk.walk base = .ok visits) :
    (visits = [] ∧ ∀ root, disk.canonical base ≠ .ok root) ∨
      ∃ place entry root, disk.find false base = .ok (place, entry) ∧ disk.canonical base = .ok root ∧
        visits = { names := [], place, entry } :: disk.visitsInside root := by
  by_cases hroot : ∃ root, disk.canonical base = .ok root
  · obtain ⟨root, hroot⟩ := hroot
    obtain ⟨found, htrue⟩ := canonical_eq_ok.mp hroot
    obtain ⟨place, entry, hfalse⟩ := hasEntry_iff.mp (hasEntry_of_has (has_iff.mpr ⟨root, found, htrue⟩))
    rw [walk_of_found hsound hfalse hroot, Except.ok.injEq] at h
    exact Or.inr ⟨place, entry, root, hfalse, hroot, h.symm⟩
  · rcases walk_eq h with rfl | ⟨place, entry, root, found, -, htrue, -⟩
    · exact Or.inl ⟨rfl, not_exists.mp hroot⟩
    · exact absurd ⟨root, canonical_eq_ok.mpr ⟨found, htrue⟩⟩ hroot

theorem ne_empty_of_find {followLast : Bool} (h : disk.find followLast base = .ok (place, entry)) : base ≠ "" := by
  rintro rfl
  cases h

/-- What a walk meets, as it is known from what is there. -/
theorem meets_iff (h : disk.find false base = .ok (place, entry)) (hroot : disk.canonical base = .ok root) :
    disk.Meets base visit ↔
      visit = { names := [], place, entry } ∨ visit.names ≠ [] ∧ visit.IsThere disk root := by
  constructor
  · rintro (⟨hstart⟩ | ⟨hroot', hne, hat⟩)
    · rw [h, Except.ok.injEq, Prod.mk.injEq] at hstart
      obtain ⟨rfl, rfl⟩ := hstart
      exact Or.inl rfl
    · rw [hroot, Except.ok.injEq] at hroot'
      subst hroot'
      exact Or.inr ⟨hne, rfl, hat⟩
  · rintro (rfl | ⟨hne, hplace, hat⟩)
    · exact .start h
    · have hinside : disk.Meets base (.behind root visit.names visit.entry) := .inside hroot hne (hplace ▸ hat)
      rwa [Visit.behind, ← hplace] at hinside

/-- The names of what is met are names. -/
theorem isName_of_meets (hsound : disk.Sound) (h : disk.Meets base visit) : ∀ s ∈ visit.names, IsName s := by
  cases h with
  | start => exact fun s hs => absurd hs List.not_mem_nil
  | inside _ _ hat => exact fun s hs => hsound.isName hat s (List.mem_append_right _ hs)

/-- In the order of names, visits are in the order of their paths. -/
theorem increasing_paths (hsound : disk.Sound) (hbase : base ≠ "")
    (hmeets : ∀ visit ∈ visits, disk.Meets base visit) (hsorted : visits.Pairwise fun a b => a.names < b.names) :
    (visits.map (·.path base)).Pairwise fun path other => (Path.ofString path).Before (Path.ofString other) := by
  refine List.pairwise_map.mpr (hsorted.imp_of_mem fun {a b} ha hb hlt => ?_)
  rw [Visit.ofString_path hbase (isName_of_meets hsound (hmeets a ha)),
    Visit.ofString_path hbase (isName_of_meets hsound (hmeets b hb))]
  exact Path.before_append _ hlt

theorem mem_walk_iff (hsound : disk.Sound) (h : disk.find false base = .ok (place, entry))
    (hroot : disk.canonical base = .ok root) :
    visit ∈ ({ names := [], place, entry } : Visit) :: disk.visitsInside root ↔ disk.Meets base visit := by
  rw [List.mem_cons, mem_visitsInside_iff hsound, meets_iff h hroot]

/-- Nothing of a kind that no link is of is met where the path leads nowhere. -/
theorem not_meets (hkeep : ∀ target, keep (.link target) = false) (h : ∀ root, disk.canonical base ≠ .ok root)
    (hmeets : disk.Meets base visit) : keep visit.entry = false := by
  cases hmeets with
  | inside hroot => exact absurd hroot (h _)
  | @start place entry hstart =>
      cases entry with
      | link target => exact hkeep target
      | _ => exact absurd (canonical_eq_ok.mpr ⟨_, find_follow_last hstart rfl⟩) (h _)

theorem isIgnored_closed (set : IgnoreSet) : Closed (·.isIgnored set) := fun _ _ => Visit.isIgnored_inner

/-- What is kept of a walk from where there is something, less what is ignored. -/
theorem collects_of_found (hsound : disk.Sound) (keep : Entry → Bool)
    (hstart : disk.find false set.base = .ok (place, entry)) (hroot : disk.canonical set.base = .ok root) :
    disk.Collects set keep (((({ names := [], place, entry } : Visit) :: disk.visitsInside root).filter
      (!·.isIgnored set)).filter (keep ·.entry)) := by
  have hbase : set.base ≠ "" := ne_empty_of_find hstart
  have hignored : ∀ visit, disk.Meets set.base visit → set.ignores (visit.path set.base) = visit.isIgnored set :=
    fun visit hmeets => Visit.ignores_path hbase (isName_of_meets hsound hmeets)
  have hthere : ∀ visit : Visit, visit.IsThere disk root →
      visit.isIgnored set = set.ignores (visit.path set.base) := by
    intro visit hvisit
    refine (Visit.ignores_path hbase fun s hs => ?_).symm
    exact hsound.isName hvisit.2 s (hvisit.1 ▸ List.mem_append_right _ hs)
  have hroots : ∀ place' entry' root', disk.find false set.base = .ok (place', entry') →
      disk.canonical set.base = .ok root' → place' = place ∧ entry' = entry ∧ root' = root := by
    intro place' entry' root' hstart' hroot'
    rw [hstart, Except.ok.injEq, Prod.mk.injEq] at hstart'
    rw [hroot, Except.ok.injEq] at hroot'
    exact ⟨hstart'.1.symm, hstart'.2.symm, hroot'.symm⟩
  rw [List.filter_filter]
  have hsublist : (((({ names := [], place, entry } : Visit) :: disk.visitsInside root).filter fun visit =>
      keep visit.entry && !visit.isIgnored set)).Sublist ({ names := [], place, entry } :: disk.visitsInside root) :=
    List.filter_sublist
  have hincreasing := increasing_paths hsound hbase (fun visit hvisit => (mem_walk_iff hsound hstart hroot).mp
    (hsublist.subset hvisit)) ((walk_sorted hsound place root entry).sublist hsublist)
  refine ⟨fun visit => ?_, ?_, hincreasing, ?_, ?_⟩
  · rw [List.mem_filter, mem_walk_iff hsound hstart hroot, Bool.and_eq_true, Bool.not_eq_true']
    refine and_congr_right fun hmeets => ?_
    rw [hignored visit hmeets]
  · refine hincreasing.imp fun hbefore heq => ?_
    exact Path.not_before_self _ (heq ▸ hbefore)
  · intro place' entry' root' hstart' hroot'
    obtain ⟨rfl, rfl, rfl⟩ := hroots _ _ _ hstart' hroot'
    refine ⟨_, ((preOrder_iff hsound (isIgnored_closed set)).mpr rfl).congr hthere, ?_⟩
    have hkept : ({ names := [], place := place', entry := entry' } : Visit).isIgnored set = false := rfl
    rw [← List.filter_filter, List.filter_cons_of_pos (by rw [hkept]; rfl)]
  · intro place' entry' root' hstart' hroot'
    obtain ⟨rfl, rfl, rfl⟩ := hroots _ _ _ hstart' hroot'
    refine ⟨disk.visitsInside root', (preOrder_iff hsound fun _ _ h => absurd h (by simp)).mpr ?_, ?_⟩
    · exact (List.filter_eq_self.mpr fun _ _ => rfl).symm
    · refine List.filter_congr fun visit hvisit => ?_
      rw [hignored visit ((mem_walk_iff hsound hstart hroot).mp hvisit)]

/-- What is kept of a walk that leaves out what is ignored. -/
theorem collects (hsound : disk.Sound) (hkeep : ∀ target, keep (.link target) = false)
    (h : disk.walkUnignored set = .ok visits) : disk.Collects set keep (visits.filter (keep ·.entry)) := by
  unfold walkUnignored at h
  cases hwalk : disk.walk set.base with
  | error fault => rw [hwalk] at h; cases h
  | ok all =>
      rw [hwalk] at h
      dsimp only at h
      rw [pruned_eq_filter (isIgnored_closed set), Except.ok.injEq] at h
      subst h
      rcases walk_cases hsound hwalk with ⟨rfl, hnowhere⟩ | ⟨place, entry, root, hstart, hroot, rfl⟩
      · refine ⟨fun visit => ⟨fun hmem => absurd hmem List.not_mem_nil, ?_⟩, .nil, .nil,
          fun _ _ root _ hroot => absurd hroot (hnowhere root), fun _ _ root _ hroot => absurd hroot (hnowhere root)⟩
        rintro ⟨hmeets, hkept, -⟩
        rw [not_meets hkeep hnowhere hmeets] at hkept
        cases hkept
      · exact collects_of_found hsound keep hstart hroot

/-- The files that are not ignored are collected. -/
theorem collects_filesOf {files : List Visit} (hsound : disk.Sound) (h : disk.filesOf set = .ok files) :
    disk.Collects set Entry.isFile files := by
  unfold filesOf at h
  cases hwalk : disk.walkUnignored set with
  | error fault => rw [hwalk] at h; cases h
  | ok visits =>
      rw [hwalk] at h
      exact Except.ok.inj h ▸ collects hsound (fun _ => rfl) hwalk

/-- So are the directories. -/
theorem collects_directoriesOf {directories : List Visit} (hsound : disk.Sound)
    (h : disk.directoriesOf set = .ok directories) : disk.Collects set Entry.isDirectory directories := by
  unfold directoriesOf at h
  cases hwalk : disk.walkUnignored set with
  | error fault => rw [hwalk] at h; cases h
  | ok visits =>
      rw [hwalk] at h
      exact Except.ok.inj h ▸ collects hsound (fun _ => rfl) hwalk

/-- From where the base leads, something is met. -/
theorem exists_walkUnignored (hsound : disk.Sound) (hroot : disk.canonical set.base = .ok root) :
    ∃ visits, disk.walkUnignored set = .ok visits := by
  obtain ⟨found, htrue⟩ := canonical_eq_ok.mp hroot
  obtain ⟨place, entry, hstart⟩ := hasEntry_iff.mp (hasEntry_of_has (has_iff.mpr ⟨root, found, htrue⟩))
  exact ⟨_, by rw [walkUnignored, walk_of_found hsound hstart hroot]⟩

/-- **The files and the directories that are collected are those at and below the base that are not ignored**, each
once and in the order of paths, whether one looks into ignored directories or not. A base that leads somewhere has
files and directories, be it none. The base is among the directories if it is one, but not if it is a link to one. -/
theorem collected (hsound : disk.Sound) (set : IgnoreSet) :
    (∀ files, disk.filesOf set = .ok files → disk.Collects set Entry.isFile files) ∧
    (∀ directories, disk.directoriesOf set = .ok directories → disk.Collects set Entry.isDirectory directories) ∧
    ∀ root, disk.canonical set.base = .ok root →
      (∃ files, disk.filesOf set = .ok files) ∧ ∃ directories, disk.directoriesOf set = .ok directories := by
  refine ⟨fun files => collects_filesOf hsound, fun directories => collects_directoriesOf hsound, fun root hroot => ?_⟩
  obtain ⟨visits, hwalk⟩ := exists_walkUnignored hsound hroot
  exact ⟨⟨_, by rw [filesOf, hwalk]⟩, ⟨_, by rw [directoriesOf, hwalk]⟩⟩

/-- A directory, and a link to it. -/
def linkedBase : Disk where
  tree := [(["d"], .directory), (["d", "k"], .directory), (["d", "k", "y"], .file "y".toUTF8 false),
    (["d", "s"], .directory), (["d", "s", "x"], .file "x".toUTF8 false), (["l"], .link "d")]
  directory := []

/-- The patterns that leave out `k` below the link. -/
def linkedPatterns : IgnoreSet := { base := "/l", patterns := [{ text := "k", pieces := [.literal 'k'] }] }

theorem collected_linkedBase :
    linkedBase.Sound ∧ IgnoreSet.ofPatterns "/l" ["k"] = .ok linkedPatterns ∧
      linkedBase.Collects linkedPatterns Entry.isFile [.behind ["d"] ["s", "x"] (.file "x".toUTF8 false)] ∧
      linkedBase.Collects linkedPatterns Entry.isDirectory [.behind ["d"] ["s"] .directory] := by
  have hsound : linkedBase.Sound := by decide +kernel
  have hfiles : linkedBase.filesOf linkedPatterns = .ok [.behind ["d"] ["s", "x"] (.file "x".toUTF8 false)] := by
    decide +kernel
  have hdirectories : linkedBase.directoriesOf linkedPatterns = .ok [.behind ["d"] ["s"] .directory] := by
    decide +kernel
  exact ⟨hsound, by rfl, (collected hsound linkedPatterns).1 _ hfiles,
    (collected hsound linkedPatterns).2.1 _ hdirectories⟩

end Disk

end Collected

end Stencil.Files
