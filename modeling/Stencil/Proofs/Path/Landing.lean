import Mathlib
import Stencil.Proofs.Path.Confining
import Stencil.Proofs.Path.Plain

/-!
# Confinement is exact

Where an absolute path leads can be told from its text: the pieces between slashes are walked one after the
other, and what is left in the end are names (`landing`). Confinement does not look at the text. It has read the
parts of three paths, puts two of them behind each other and takes the steps up away.

Both come to the same (`normalize_resolve`). So a path is accepted exactly when the names of the root, as whole
names, come first among those that the joined text leads to; and where it leads is a place below the root that
is accepted again (`confine_exact`).
-/

namespace Stencil.Path

open Files

/-! ## Walking a text -/

/-- Goes from a place along one piece of a path's text. Above `/` there is nothing to go up to. -/
def walkPiece (place : Place) (piece : List Char) : Place :=
  if piece = [] ∨ piece = ['.'] then place
  else if piece = ['.', '.'] then place.dropLast
  else place ++ [String.ofList piece]

/-- The place that the text of an absolute path leads to. -/
def landing (text : String) : Place := (Text.splitOn '/' text.toList).foldl walkPiece []

/-- All that a walk leaves are names. -/
theorem isName_of_mem_landing {text s : String} (h : s ∈ landing text) : IsName s := by
  have hwalk : ∀ (pieces : List (List Char)) (place : Place), (∀ piece ∈ pieces, '/' ∉ piece) →
      (∀ s ∈ place, IsName s) → ∀ s ∈ pieces.foldl walkPiece place, IsName s := by
    intro pieces
    induction pieces with
    | nil => exact fun place _ hplace => hplace
    | cons piece rest ih =>
        intro place hpieces hplace
        refine ih _ (fun piece' hmem => hpieces piece' (List.mem_cons_of_mem piece hmem)) fun s hs => ?_
        unfold walkPiece at hs
        split at hs
        · exact hplace s hs
        rename_i hsilent
        split at hs
        · exact hplace s (List.mem_of_mem_dropLast hs)
        rename_i hup
        rcases List.mem_append.mp hs with hs | hs
        · exact hplace s hs
        · obtain rfl := List.mem_singleton.mp hs
          have hpart : Step.ofPiece? piece = some (.name (String.ofList piece)) := by
            simp [Step.ofPiece?, not_or.mp hsilent, hup]
          exact (isName_of_ofPiece? (hpieces piece List.mem_cons_self) hpart).1
  exact hwalk _ [] (fun piece hmem => Text.not_mem_of_mem_splitOn hmem) (by simp) s h

/-- Taking parts onto the stack walks along the pieces that they were read from. -/
theorem foldl_pushPart (place : Place) (pieces : List (List Char)) :
    (pieces.filterMap part?).foldl pushPart (.root :: place.map Part.name).reverse =
      (.root :: (pieces.foldl walkPiece place).map Part.name).reverse := by
  induction pieces generalizing place with
  | nil => rfl
  | cons piece rest ih =>
      rw [List.foldl_cons, ← ih, List.filterMap_cons]
      unfold part? walkPiece
      by_cases hsilent : piece = [] ∨ piece = ['.']
      · rw [if_pos (by simpa using hsilent), if_pos hsilent]
      rw [if_neg (by simpa using hsilent), if_neg hsilent]
      by_cases hup : piece = ['.', '.']
      · rw [if_pos hup, if_pos hup]
        simp only [List.foldl_cons, pushPart_parent]
      · rw [if_neg hup, if_neg hup]
        simp [pushPart]

/-! ## Paths that were read -/

variable {root directory relative : String}

theorem exists_of_startsWith_slash {text : String} (h : text.startsWith "/" = true) :
    ∃ rest, text.toList = '/' :: rest := by
  rw [String.startsWith_string_iff] at h
  obtain ⟨rest, hrest⟩ := h
  exact ⟨rest, hrest.symm⟩

/-- The parts of an absolute path are those of its pieces, behind the root. -/
theorem ofString_of_absolute (h : directory.startsWith "/" = true) :
    ofString directory = .root :: (Text.splitOn '/' directory.toList).filterMap part? := by
  obtain ⟨rest, hrest⟩ := exists_of_startsWith_slash h
  simp [ofString, hrest, head, Text.splitOn, part?]

theorem isAbsolute_of_startsWith (h : directory.startsWith "/" = true) :
    (ofString directory).isAbsolute = true := by
  rw [ofString_of_absolute h]
  rfl

/-- A dot in front of a relative path says nothing where it is put behind another one. -/
theorem filter_ofString_of_relative (h : relative.startsWith "/" = false) :
    (ofString relative).isAbsolute = false ∧
      (ofString relative).filter (· ≠ .current) = (Text.splitOn '/' relative.toList).filterMap part? := by
  have hinner : ∀ pieces : List (List Char),
      (pieces.filterMap part?).filter (· ≠ .current) = pieces.filterMap part? := by
    intro pieces
    refine List.filter_eq_self.mpr fun part hpart => ?_
    obtain ⟨piece, _, hpiece⟩ := List.mem_filterMap.mp hpart
    unfold part? at hpiece
    split at hpiece
    · cases hpiece
    · split at hpiece <;> cases hpiece <;> rfl
  have hroot : ∀ pieces : List (List Char), Path.isAbsolute (pieces.filterMap part?) = false := by
    intro pieces
    rw [Path.isAbsolute, Bool.eq_false_iff, ne_eq, beq_iff_eq]
    intro hhead
    obtain ⟨piece, _, hpiece⟩ := List.mem_filterMap.mp (List.mem_of_head? hhead)
    exact part?_ne_root piece hpiece
  rw [ofString]
  rcases head_cases relative.toList with ⟨rest, hchars, -⟩ | ⟨hchars, hhead⟩ | ⟨rest, hchars, hhead⟩ |
      ⟨-, hhead⟩
  · rw [String.startsWith_string_eq_false_iff, hchars] at h
    exact absurd (List.cons_prefix_cons.mpr ⟨rfl, List.nil_prefix⟩) h
  · rw [hhead, hchars]
    decide
  · rw [hhead, hchars]
    refine ⟨rfl, ?_⟩
    have hdot : Text.splitOn '/' ('.' :: '/' :: rest) = ['.'] :: Text.splitOn '/' rest := by
      simp [Text.splitOn]
    have hslash : Text.splitOn '/' ('/' :: rest) = [] :: Text.splitOn '/' rest := by
      simp [Text.splitOn]
    dsimp only
    rw [hdot, hslash, List.filter_append, hinner]
    rfl
  · rw [hhead]
    exact ⟨hroot _, hinner _⟩

/-- A text behind a directory is walked from where the directory leads; an absolute one is walked by
itself. -/
theorem landing_join (h : directory.startsWith "/" = true) (relative : String) :
    landing (join directory relative) =
      if relative.startsWith "/" then landing relative
      else (Text.splitOn '/' relative.toList).foldl walkPiece (landing directory) := by
  obtain ⟨rest, hrest⟩ := exists_of_startsWith_slash h
  have hempty : directory.isEmpty = false := by
    rw [Bool.eq_false_iff]
    intro hempty
    rw [String.isEmpty_iff.mp hempty] at hrest
    cases hrest
  unfold join
  rw [hempty, Bool.or_false]
  split
  · rfl
  split
  · -- The slash between them is the last one of the directory.
    rename_i hslash
    rw [String.endsWith, String.Slice.endsWith_string_iff, String.copy_toSlice,
      show "/".toList = ['/'] by simp] at hslash
    obtain ⟨chars, hchars⟩ := hslash
    have hlanding : landing directory = (Text.splitOn '/' chars).foldl walkPiece [] := by
      rw [landing, ← hchars, Text.splitOn_append_mark, List.foldl_append]
      simp [walkPiece]
    rw [landing, String.toList_append, ← hchars, List.append_assoc, List.singleton_append,
      Text.splitOn_append, List.foldl_append, hlanding]
  · rw [landing, String.toList_append, String.toList_append, show "/".toList = ['/'] by simp,
      List.append_assoc, List.singleton_append, Text.splitOn_append, List.foldl_append]
    rfl

theorem normalize_of_absolute (h : root.startsWith "/" = true) :
    normalize (ofString root) = .root :: (landing root).map .name := by
  rw [ofString_of_absolute h, normalize, List.foldl_cons]
  exact (congrArg List.reverse (foldl_pushPart [] _)).trans (List.reverse_reverse _)

/-- **Putting paths behind each other and taking the steps up away leads where the joined text does.** -/
theorem normalize_resolve (h : directory.startsWith "/" = true) (relative : String) :
    normalize (resolve (ofString directory) (ofString relative)) =
      .root :: (landing (join directory relative)).map .name := by
  rw [landing_join h, resolve]
  cases hrelative : relative.startsWith "/" with
  | true => rw [isAbsolute_of_startsWith hrelative, if_pos rfl, if_pos rfl, normalize_of_absolute hrelative]
  | false =>
      obtain ⟨habsolute, hfilter⟩ := filter_ofString_of_relative hrelative
      rw [habsolute, if_neg Bool.false_ne_true, if_neg Bool.false_ne_true, hfilter, normalize, List.foldl_append]
      have hdirectory := congrArg List.reverse (normalize_of_absolute h)
      rw [normalize, List.reverse_reverse] at hdirectory
      rw [hdirectory, foldl_pushPart, List.reverse_reverse]

/-! ## Confining -/

/-- Names behind the root start with other names behind the root as the places do: by whole names. -/
theorem startsWith_places (place base : Place) :
    startsWith (.root :: place.map .name) (.root :: base.map .name) = true ↔ base <+: place := by
  have hinjective : Function.Injective Part.name := fun _ _ h => Part.name.inj h
  rw [startsWith, List.isPrefixOf_iff_prefix, List.cons_prefix_cons,
    List.prefix_map_iff_of_injective hinjective, and_iff_right rfl]

/-- What confinement comes to: the place where the joined text leads, if the root's place is around it. -/
theorem confine_eq (hroot : root.startsWith "/" = true) (hdirectory : directory.startsWith "/" = true)
    (relative : String) (target : Path) :
    confine (ofString root) (ofString directory) (ofString relative) = some target ↔
      landing root <+: landing (join directory relative) ∧
        target = .root :: (landing (join directory relative)).map .name := by
  unfold confine
  simp only [normalize_resolve hdirectory, normalize_of_absolute hroot]
  rw [Option.ite_none_right_eq_some, startsWith_places, Option.some.injEq, eq_comm (a := target)]

/-- Every name is walked into. -/
theorem foldl_walkPiece_names {names : Place} (h : ∀ s ∈ names, IsName s) (place : Place) :
    (names.map String.toList).foldl walkPiece place = place ++ names := by
  induction names generalizing place with
  | nil => simp
  | cons s rest ih =>
      obtain ⟨hempty, hdot, hdots⟩ := (h s List.mem_cons_self).toList_ne
      rw [List.map_cons, List.foldl_cons, ih fun t ht => h t (List.mem_cons_of_mem s ht)]
      simp [walkPiece, hempty, hdot, hdots]

/-- The text of a place leads to it. -/
theorem landing_render {place : Place} (h : ∀ s ∈ place, IsName s) : landing place.render = place := by
  rw [landing, splitOn_render h, List.foldl_cons]
  have hnames := foldl_walkPiece_names h []
  split
  · rename_i hnil
    rw [hnil]
    rfl
  · simpa [walkPiece] using hnames

/-- **Confinement is exact.** What is accepted is the place where the joined text leads, if the names of the
root come first there; no dots are left in its text, and that is accepted again. -/
theorem confine_exact (hroot : root.startsWith "/" = true) (hdirectory : directory.startsWith "/" = true)
    (relative : String) (target : Path) :
    (confine (ofString root) (ofString directory) (ofString relative) = some target ↔
      landing root <+: landing (join directory relative) ∧
        target = .root :: (landing (join directory relative)).map .name) ∧
    (confine (ofString root) (ofString directory) (ofString relative) = some target →
      (∀ piece ∈ Text.splitOn '/' target.render.toList, piece ≠ ['.'] ∧ piece ≠ ['.', '.']) ∧
        confine (ofString root) (ofString root) (ofString target.render) = some target) := by
  refine ⟨confine_eq hroot hdirectory relative target, fun h => ?_⟩
  obtain ⟨hbelow, rfl⟩ := (confine_eq hroot hdirectory relative target).mp h
  have hnames : ∀ s ∈ landing (join directory relative), IsName s := fun s hs => isName_of_mem_landing hs
  generalize landing (join directory relative) = place at hbelow hnames
  rw [render_place]
  constructor
  · intro piece hpiece
    rw [splitOn_render hnames] at hpiece
    rcases List.mem_cons.mp hpiece with rfl | hpiece
    · decide
    split at hpiece
    · obtain rfl := List.mem_singleton.mp hpiece
      decide
    · obtain ⟨s, hs, rfl⟩ := List.mem_map.mp hpiece
      exact (hnames s hs).toList_ne.2
  · rw [confine_eq hroot hroot, landing_join hroot, if_pos (startsWith_render place), landing_render hnames]
    exact ⟨hbelow, rfl⟩

/-- Through a sibling whose name starts like the root's and back again. -/
theorem confine_exact_sibling :
    "/a/../tmpl".startsWith "/" = true ∧ "/tmpl/x".startsWith "/" = true ∧
      landing "/a/../tmpl" = ["tmpl"] ∧ landing (join "/tmpl/x" ".././/../tmpl-other/../tmpl/b") = ["tmpl", "b"] ∧
      confine (ofString "/a/../tmpl") (ofString "/tmpl/x") (ofString ".././/../tmpl-other/../tmpl/b") =
        some [.root, .name "tmpl", .name "b"] ∧
      confine (ofString "/a/../tmpl") (ofString "/a/../tmpl") (ofString "/tmpl/b") =
        some [.root, .name "tmpl", .name "b"] ∧
      confine (ofString "/a/../tmpl") (ofString "/tmpl/x") (ofString "../../tmpl-other/b") = none := by
  have hroot : "/a/../tmpl".startsWith "/" = true := by decide +kernel
  have hdirectory : "/tmpl/x".startsWith "/" = true := by decide +kernel
  have hbase : landing "/a/../tmpl" = ["tmpl"] := by decide +kernel
  have hjoined : landing (join "/tmpl/x" ".././/../tmpl-other/../tmpl/b") = ["tmpl", "b"] := by decide +kernel
  have hother : landing (join "/tmpl/x" "../../tmpl-other/b") = ["tmpl-other", "b"] := by decide +kernel
  have hinside := (confine_exact hroot hdirectory ".././/../tmpl-other/../tmpl/b"
    [.root, .name "tmpl", .name "b"]).1.mpr (by rw [hbase, hjoined]; exact ⟨by decide, rfl⟩)
  have hagain := ((confine_exact hroot hdirectory ".././/../tmpl-other/../tmpl/b"
    [.root, .name "tmpl", .name "b"]).2 hinside).2
  refine ⟨hroot, hdirectory, hbase, hjoined, hinside, hagain, Option.eq_none_iff_forall_ne_some.mpr fun target h => ?_⟩
  have hbelow := ((confine_exact hroot hdirectory "../../tmpl-other/b" target).1.mp h).1
  rw [hbase, hother] at hbelow
  exact absurd hbelow (by decide)

end Stencil.Path
