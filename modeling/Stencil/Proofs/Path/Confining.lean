import Mathlib.Data.List.Basic
import Mathlib.Data.List.Induction
import Stencil.Proofs.Path.Parts

/-!
# Confining below one root and below another

A path that is taken from a directory below a root goes some way up and then down again. How far up it goes
and which names are left in the end (its `Bearing`) is a matter of the path and the directory alone. The
root only decides what becomes of that: as many of its last names are taken away as the path goes up, and
the path must put the same names back.

So a path that never climbs above the root leads to the same place behind every root
(`confine_below_roots`), and one that does climb is judged by how the root is called: it is refused, unless
it comes back by name. Above `/` there is nothing to climb to.
-/

namespace Stencil.Path

open Files

/-! ## Bearings -/

/-- How far up a path goes from where it starts, and the names that it leaves from there. -/
structure Bearing where
  up : Nat
  names : Place
  deriving DecidableEq, Inhabited

/-- Goes on by one part. -/
def Bearing.next (bearing : Bearing) : Part → Bearing
  | .name s => { bearing with names := bearing.names ++ [s] }
  | .parent =>
    if bearing.names = [] then { bearing with up := bearing.up + 1 }
    else { bearing with names := bearing.names.dropLast }
  | _ => bearing

/-- The bearing of a path. -/
def bearing (path : Path) : Bearing := path.foldl Bearing.next ⟨0, []⟩

/-- Whether a part is a name. -/
def isNamePart : Part → Bool
  | .name _ => true
  | _ => false

/-- Whether a path is above its start somewhere on its way: some front of it has more steps up than
names. -/
def ClimbsAbove (path : Path) : Prop :=
  ∃ front, front <+: path ∧ front.countP isNamePart < front.count .parent

theorem bearing_concat (path : Path) (part : Part) :
    bearing (path ++ [part]) = (bearing path).next part := by
  rw [bearing, List.foldl_append]
  rfl

/-- Where no name is left, a step up goes above the start. -/
theorem next_parent_of_nil {b : Bearing} (h : b.names = []) :
    b.next .parent = { b with up := b.up + 1 } := if_pos h

/-- A step up takes the last name that is left. -/
theorem next_parent_of_ne_nil {b : Bearing} (h : b.names ≠ []) :
    b.next .parent = { b with names := b.names.dropLast } := if_neg h

theorem up_le_next (b : Bearing) (part : Part) : b.up ≤ (b.next part).up := by
  cases part with
  | parent =>
      by_cases h : b.names = []
      · rw [next_parent_of_nil h]
        exact Nat.le_succ _
      · exact Nat.le_of_eq (congrArg Bearing.up (next_parent_of_ne_nil h)).symm
  | root | current | name => exact Nat.le_refl _

/-- Going on never takes back how far up a path went. -/
theorem up_le_append (front rest : Path) : (bearing front).up ≤ (bearing (front ++ rest)).up := by
  induction rest using List.reverseRecOn with
  | nil => simp
  | append_singleton rest part ih =>
      rw [← List.append_assoc, bearing_concat]
      exact Nat.le_trans ih (up_le_next _ _)

/-- Every name is taken away by a step up or left, and every step up takes a name or goes up. -/
theorem countP_add_up (path : Path) :
    path.countP isNamePart + (bearing path).up = path.count .parent + (bearing path).names.length := by
  induction path using List.reverseRecOn with
  | nil => rfl
  | append_singleton path part ih =>
      rw [bearing_concat, List.countP_append, List.count_append]
      cases part with
      | name s =>
          simp only [Bearing.next, isNamePart, List.countP_singleton, List.count_singleton,
            List.length_append, List.length_singleton, reduceCtorEq, beq_iff_eq, if_true, if_false]
          omega
      | parent =>
          by_cases h : (bearing path).names = []
          · rw [next_parent_of_nil h]
            simp only [h, List.length_nil] at ih ⊢
            simp only [isNamePart, List.countP_singleton, List.count_singleton, beq_self_eq_true, if_true,
              Bool.false_eq_true, if_false]
            omega
          · have hpos : 0 < (bearing path).names.length := List.length_pos_of_ne_nil h
            rw [next_parent_of_ne_nil h]
            simp only [isNamePart, List.countP_singleton, List.count_singleton, beq_self_eq_true, if_true,
              Bool.false_eq_true, if_false, List.length_dropLast]
            omega
      | root | current => simpa [Bearing.next, isNamePart] using ih

/-- The first step above the start is one that finds no name before it. -/
theorem next_names_of_climb {b : Bearing} {part : Part} (h : b.up < (b.next part).up) :
    (b.next part).names = [] := by
  cases part with
  | parent =>
      by_cases hnames : b.names = []
      · rw [next_parent_of_nil hnames]
        exact hnames
      · rw [next_parent_of_ne_nil hnames] at h
        exact absurd h (Nat.lt_irrefl _)
  | root | current | name => exact absurd h (Nat.lt_irrefl _)

/-- **A path climbs above its start if and only if its bearing does.** -/
theorem climbsAbove_iff {path : Path} : ClimbsAbove path ↔ 0 < (bearing path).up := by
  constructor
  · rintro ⟨front, ⟨rest, rfl⟩, hfront⟩
    have hcount := countP_add_up front
    have hup := up_le_append front rest
    omega
  · intro hup
    induction path using List.reverseRecOn with
    | nil => exact absurd hup (Nat.lt_irrefl 0)
    | append_singleton path part ih =>
        by_cases hbefore : 0 < (bearing path).up
        · obtain ⟨front, hfront, hclimbs⟩ := ih hbefore
          exact ⟨front, hfront.trans (List.prefix_append _ _), hclimbs⟩
        · refine ⟨path ++ [part], List.prefix_rfl, ?_⟩
          have hcount := countP_add_up (path ++ [part])
          rw [bearing_concat] at hup hcount
          rw [next_names_of_climb (by omega), List.length_nil] at hcount
          omega

/-! ## Behind a root -/

/-- A step up takes the last name away, if there is one. -/
theorem pushPart_parent (names : Place) :
    pushPart (.root :: names.map Part.name).reverse .parent =
      (.root :: names.dropLast.map Part.name).reverse := by
  rcases List.eq_nil_or_concat names with rfl | ⟨front, last, rfl⟩
  · rfl
  · simp [pushPart]

/-- **Where a path leads from a directory**: up from there and then down. -/
theorem normalize_behind (place : Place) {path : Path} (hroot : .root ∉ path) :
    normalize (.root :: place.map Part.name ++ path) =
      .root :: (place.take (place.length - (bearing path).up) ++ (bearing path).names).map Part.name := by
  have hstack : (Part.root :: place.map Part.name ++ path).foldl pushPart [] =
      (.root :: (place.take (place.length - (bearing path).up) ++
        (bearing path).names).map Part.name).reverse := by
    induction path using List.reverseRecOn with
    | nil =>
        have hplace : ∀ names : Place,
            (Part.root :: names.map Part.name).foldl pushPart [] =
              (.root :: names.map Part.name).reverse := by
          intro names
          induction names using List.reverseRecOn with
          | nil => rfl
          | append_singleton names s ih =>
              rw [List.map_append, ← List.cons_append, List.foldl_append, ih]
              simp [pushPart]
        simpa [bearing] using hplace place
    | append_singleton path part ih =>
        rw [← List.append_assoc, List.foldl_append,
          ih fun h => hroot (List.mem_append_left _ h), bearing_concat, List.foldl_cons, List.foldl_nil]
        cases part with
        | root => exact absurd (List.mem_append_right _ (List.mem_singleton.mpr rfl)) hroot
        | current => rfl
        | name s => simp [pushPart, Bearing.next]
        | parent =>
            rw [pushPart_parent]
            by_cases hnames : (bearing path).names = []
            · rw [next_parent_of_nil hnames]
              simp only [hnames, List.append_nil, List.dropLast_eq_take, List.length_take, List.take_take]
              congr 4
              omega
            · rw [next_parent_of_ne_nil hnames, List.dropLast_append_of_ne_nil hnames]
  rw [normalize, hstack, List.reverse_reverse]

/-- Names behind a place that lies above another are behind the latter if they start with what is
missing. -/
theorem take_append_eq_iff {place names : Place} (up : Nat) {rest : Place} :
    place.take (place.length - up) ++ names = place ++ rest ↔
      names = place.drop (place.length - up) ++ rest := by
  have hplace : place ++ rest =
      place.take (place.length - up) ++ (place.drop (place.length - up) ++ rest) := by
    rw [← List.append_assoc, List.take_append_drop]
  rw [hplace]
  exact List.append_right_inj _

/-- A relative path that was read has no root in it. -/
theorem root_not_mem_ofString {text : String} (h : (ofString text).isAbsolute = false) :
    .root ∉ ofString text := by
  intro hroot
  obtain ⟨front, rest, heq, hfront, hrest⟩ := isTidy_ofString text
  rw [heq] at h hroot
  rcases List.mem_append.mp hroot with hroot | hroot
  · rcases hfront with rfl | rfl | rfl
    · exact absurd hroot (by simp)
    · exact absurd h (by simp [isAbsolute])
    · exact absurd hroot (by simp)
  · rcases hrest _ hroot with h | ⟨s, h, _⟩ <;> cases h

/-- What a path comes to does not depend on dots. -/
theorem bearing_filter (path : Path) : bearing (path.filter (· ≠ .current)) = bearing path := by
  induction path using List.reverseRecOn with
  | nil => rfl
  | append_singleton path part ih =>
      rw [List.filter_append, bearing_concat]
      by_cases hpart : part = .current
      · subst hpart
        simpa [Bearing.next] using ih
      · rw [List.filter_singleton]
        simp only [hpart, ne_eq, not_false_eq_true, decide_true, cond_true]
        rw [bearing_concat, ih]

/-- **What is confined to a root**, of a path that is taken from a directory below it: what is left behind
the names of the root that the path climbed over, if it starts with these names. -/
theorem confine_eq_some_iff {place : Place} {directory relative : String} {target : Path}
    (hdirectory : (ofString directory).isAbsolute = false)
    (hrelative : (ofString relative).isAbsolute = false) :
    confine (.root :: place.map .name) (resolve (.root :: place.map .name) (ofString directory))
        (ofString relative) = some target ↔
      ∃ rest, target = .root :: (place ++ rest).map .name ∧
        (bearing (ofString directory ++ ofString relative)).names =
          place.drop (place.length - (bearing (ofString directory ++ ofString relative)).up) ++ rest := by
  have hroot : .root ∉ (ofString directory).filter (· ≠ .current) ++
      (ofString relative).filter (· ≠ .current) := by
    intro h
    rcases List.mem_append.mp h with h | h
    · exact root_not_mem_ofString hdirectory (List.mem_filter.mp h).1
    · exact root_not_mem_ofString hrelative (List.mem_filter.mp h).1
  have hbearing : bearing ((ofString directory).filter (· ≠ .current) ++
      (ofString relative).filter (· ≠ .current)) = bearing (ofString directory ++ ofString relative) := by
    rw [← List.filter_append, bearing_filter]
  have htarget : normalize (resolve (resolve (.root :: place.map .name) (ofString directory))
      (ofString relative)) = .root :: (place.take (place.length -
        (bearing (ofString directory ++ ofString relative)).up) ++
          (bearing (ofString directory ++ ofString relative)).names).map Part.name := by
    simp only [resolve, hdirectory, hrelative, Bool.false_eq_true, if_false]
    rw [List.append_assoc, normalize_behind place hroot, hbearing]
  have hplace : normalize (.root :: place.map Part.name) = .root :: place.map Part.name := by
    simpa [bearing] using normalize_behind place (List.not_mem_nil : Part.root ∉ [])
  unfold confine
  simp only [htarget, hplace, startsWith, List.isPrefixOf_iff_prefix]
  constructor
  · intro h
    split at h
    · rename_i hprefix
      have hinjective : Function.Injective Part.name := fun _ _ h => Part.name.inj h
      obtain ⟨rest, hrest⟩ :=
        (List.prefix_map_iff_of_injective hinjective).mp (List.cons_prefix_cons.mp hprefix).2
      refine ⟨rest, ?_, (take_append_eq_iff _).mp hrest.symm⟩
      rw [hrest]
      exact (Option.some.inj h).symm
    · exact absurd h (by simp)
  · rintro ⟨rest, rfl, hnames⟩
    rw [(take_append_eq_iff _).mpr hnames, if_pos]
    rw [List.map_append]
    exact List.cons_prefix_cons.mpr ⟨rfl, List.prefix_append _ _⟩

/-- **Below every root alike.** A path that never climbs above the root on its way leads to the same place
behind each. One that does is confined only by coming back: if it puts back the names that it climbed over,
which depend on the root, and none of which there are above `/`. -/
theorem confine_below_roots {directory relative : String}
    (hdirectory : (ofString directory).isAbsolute = false)
    (hrelative : (ofString relative).isAbsolute = false) :
    (¬ ClimbsAbove (ofString directory ++ ofString relative) →
      ∃ names : Place, ∀ place : Place,
        confine (.root :: place.map .name) (resolve (.root :: place.map .name) (ofString directory))
            (ofString relative) = some (.root :: (place ++ names).map .name)) ∧
    (ClimbsAbove (ofString directory ++ ofString relative) →
      ∀ (place : Place) (target : Path),
        confine (.root :: place.map .name) (resolve (.root :: place.map .name) (ofString directory))
            (ofString relative) = some target ↔
          ∃ front back rest : Place, place = front ++ back ∧
            back.length = min (bearing (ofString directory ++ ofString relative)).up place.length ∧
            (bearing (ofString directory ++ ofString relative)).names = back ++ rest ∧
            target = .root :: (place ++ rest).map .name) := by
  constructor
  · intro hclimbs
    have hup : (bearing (ofString directory ++ ofString relative)).up = 0 :=
      Nat.eq_zero_of_not_pos (mt climbsAbove_iff.mpr hclimbs)
    refine ⟨(bearing (ofString directory ++ ofString relative)).names, fun place => ?_⟩
    refine (confine_eq_some_iff hdirectory hrelative).mpr ⟨_, rfl, ?_⟩
    rw [hup, Nat.sub_zero, List.drop_length, List.nil_append]
  · intro _ place target
    rw [confine_eq_some_iff hdirectory hrelative]
    constructor
    · rintro ⟨rest, htarget, hnames⟩
      refine ⟨_, _, rest, (List.take_append_drop _ place).symm, ?_, hnames, htarget⟩
      rw [List.length_drop]
      omega
    · rintro ⟨front, back, rest, rfl, hback, hnames, htarget⟩
      refine ⟨rest, htarget, ?_⟩
      have hfront : (front ++ back).length -
          (bearing (ofString directory ++ ofString relative)).up = front.length := by
        rw [List.length_append] at hback ⊢
        omega
      rw [hfront, List.drop_left, hnames]

/-- The path `../x` of a file in the directory `d` does not climb above the root. -/
theorem confine_below_roots_sibling :
    (ofString "d").isAbsolute = false ∧ (ofString "../x").isAbsolute = false ∧
      ¬ ClimbsAbove (ofString "d" ++ ofString "../x") ∧
      ∃ names : Place, ∀ place : Place,
        confine (.root :: place.map .name) (resolve (.root :: place.map .name) (ofString "d"))
            (ofString "../x") = some (.root :: (place ++ names).map .name) := by
  have hclimbs : ¬ ClimbsAbove (ofString "d" ++ ofString "../x") := by
    rw [climbsAbove_iff]
    decide
  exact ⟨by decide, by decide, hclimbs, (confine_below_roots (by decide) (by decide)).1 hclimbs⟩

/-- A path that leaves the root and comes back by its name is confined to a root of that name, and to no
other. -/
theorem confine_depends_on_root : ¬ ∀ (place place' : Place) (directory relative : String),
    (ofString directory).isAbsolute = false → .parent ∉ ofString directory →
    (ofString relative).isAbsolute = false →
    (∀ names : Place,
      confine (.root :: place.map .name) (resolve (.root :: place.map .name) (ofString directory))
          (ofString relative) = some (.root :: (place ++ names).map .name) ↔
        confine (.root :: place'.map .name) (resolve (.root :: place'.map .name) (ofString directory))
          (ofString relative) = some (.root :: (place' ++ names).map .name)) ∧
      (ClimbsAbove (ofString directory ++ ofString relative) →
        confine (.root :: place.map .name) (resolve (.root :: place.map .name) (ofString directory))
          (ofString relative) = none) := by
  intro h
  have hroots := (h ["a"] ["b"] "" "../a/x" (by decide) (by decide) (by decide)).1 ["x"]
  exact absurd hroots (by decide)

end Stencil.Path
