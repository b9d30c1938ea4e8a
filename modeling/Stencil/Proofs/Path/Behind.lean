import Mathlib.Data.List.Basic
import Stencil.Proofs.Path.Text

/-!
# Names behind a path

Whatever a path looks like, names that are joined to it stand behind its parts (`ofString_join`), and cutting the
path off again leaves the names (`below?_join`). Both come from one fact about the pieces between slashes: joining
keeps the pieces of the path except for those at the end that say nothing (`exists_pieces_join`).
-/

namespace Stencil.Path

open Files

variable {base : String} {names : Place} {chars more : List Char} {pieces rest : List (List Char)}

/-! ## Pieces that say nothing -/

theorem isSilent_iff {piece : List Char} : isSilent piece = true ↔ part? piece = none := by
  unfold isSilent part?
  split
  · rename_i h
    simpa using h
  · rename_i h
    simp only [h, Bool.false_eq_true, false_iff]
    split <;> simp

theorem isSilent_name {s : String} (h : IsName s) : isSilent s.toList = false := by
  rw [Bool.eq_false_iff, ne_eq, isSilent_iff, part?_name h]
  simp

theorem filterMap_part?_names (h : ∀ s ∈ names, IsName s) :
    (names.map String.toList).filterMap part? = names.map .name := by
  rw [List.filterMap_map, ← List.filterMap_eq_map]
  exact List.filterMap_congr fun s hs => part?_name (h s hs)

theorem filterMap_part?_silent (h : ∀ piece ∈ pieces, isSilent piece = true) : pieces.filterMap part? = [] :=
  List.filterMap_eq_nil_iff.mpr fun piece hpiece => isSilent_iff.mp (h piece hpiece)

/-- Names in front are not dropped. -/
theorem dropWhile_isSilent_names (hsilent : ∀ piece ∈ pieces, isSilent piece = true) (h : ∀ s ∈ names, IsName s) :
    (pieces ++ names.map String.toList).dropWhile isSilent = names.map String.toList := by
  rw [List.dropWhile_append_of_pos hsilent]
  cases names with
  | nil => rfl
  | cons s rest => rw [List.map_cons, List.dropWhile_cons_of_neg (by simp [isSilent_name (h s List.mem_cons_self)])]

/-- Names at the end are not dropped. -/
theorem trimEnd_names (h : ∀ s ∈ names, IsName s) : trimEnd (names.map String.toList) = names.map String.toList := by
  have hreverse : ([] ++ names.reverse.map String.toList).dropWhile isSilent = names.reverse.map String.toList :=
    dropWhile_isSilent_names (by simp) fun s hs => h s (List.mem_reverse.mp hs)
  rw [List.nil_append, List.map_reverse] at hreverse
  rw [trimEnd, hreverse, List.reverse_reverse]

/-- Cutting off the parts of some pieces leaves what is behind them. -/
theorem cutParts?_append (pieces rest : List (List Char)) :
    ∃ silent : List (List Char), (∀ piece ∈ silent, isSilent piece = true) ∧
      cutParts? (pieces.filterMap part?) (pieces ++ rest) = some (silent ++ rest) := by
  induction pieces with
  | nil => exact ⟨[], by simp, rfl⟩
  | cons piece more ih =>
      obtain ⟨silent, hsilent, hcut⟩ := ih
      cases hpart : part? piece with
      | some part =>
          have hloud : isSilent piece = false := by
            rw [Bool.eq_false_iff, ne_eq, isSilent_iff, hpart]
            simp
          refine ⟨silent, hsilent, ?_⟩
          rw [List.filterMap_cons_some hpart, List.cons_append, cutParts?,
            List.dropWhile_cons_of_neg (by simp [hloud])]
          dsimp only
          rw [if_pos hpart, hcut]
      | none =>
          have hpiece : isSilent piece = true := isSilent_iff.mpr hpart
          rw [List.filterMap_cons_none hpart, List.cons_append]
          cases hparts : more.filterMap part? with
          | nil =>
              refine ⟨piece :: more, fun p hp => ?_, rfl⟩
              rcases List.mem_cons.mp hp with rfl | hp
              · exact hpiece
              · exact isSilent_iff.mpr (List.filterMap_eq_nil_iff.mp hparts p hp)
          | cons part parts =>
              refine ⟨silent, hsilent, ?_⟩
              rw [hparts, cutParts?] at hcut
              rw [cutParts?, List.dropWhile_cons_of_pos hpiece, hcut]

/-! ## What joining does to the text -/

/-- What is joined to a path comes behind what stands in front of its names. -/
theorem head_append (hne : chars ≠ []) (h : chars = ['.'] → ∃ rest, more = '/' :: rest) :
    head (chars ++ more) = ((head chars).1, (head chars).2 ++ more) := by
  fun_cases head chars with
  | case1 rest => rfl
  | case2 =>
      obtain ⟨rest, rfl⟩ := h rfl
      rfl
  | case3 rest => rfl
  | case4 _ hslash hdot hdots =>
      obtain ⟨c, rest, rfl⟩ := List.exists_cons_of_ne_nil hne
      rw [List.cons_append, head]
      · exact fun rest' heq => hslash rest (by rw [(List.cons.inj heq).1])
      · intro heq
        obtain ⟨rfl, hnil⟩ := List.cons.inj heq
        exact hdot (by rw [(List.append_eq_nil_iff.mp hnil).1])
      · intro rest' heq
        obtain ⟨rfl, hrest⟩ := List.cons.inj heq
        cases rest with
        | nil => exact hdot rfl
        | cons d rest => exact hdots rest (by rw [(List.cons.inj hrest).1])

/-- A path with more text joined to it has the pieces of the path, up to some at the end that say nothing, and those of
the text. -/
theorem exists_pieces_join_text {text : String} (hbase : base ≠ "") (htext : text.startsWith "/" = false) :
    ∃ pieces silent : List (List Char), (∀ piece ∈ silent, isSilent piece = true) ∧
      Text.splitOn '/' (head base.toList).2 = pieces ++ silent ∧
      (head (join base text).toList).1 = (head base.toList).1 ∧
      Text.splitOn '/' (head (join base text).toList).2 = pieces ++ Text.splitOn '/' text.toList := by
  have hchars : base.toList ≠ [] := fun hnil => hbase (String.toList_inj.mp hnil)
  have hempty : base.isEmpty = false := by simpa using hbase
  by_cases hslash : base.endsWith "/" = true
  · obtain ⟨front, hfront⟩ : ∃ front, base.toList = front ++ ['/'] := by
      rw [String.endsWith, String.Slice.endsWith_string_iff, String.copy_toSlice,
        show "/".toList = ['/'] by simp] at hslash
      obtain ⟨front, hfront⟩ := hslash
      exact ⟨front, hfront.symm⟩
    have hjoin : (join base text).toList = base.toList ++ text.toList := by
      simp [join, htext, hempty, hslash]
    have hmore : base.toList ≠ ['.'] := by
      rw [hfront]
      intro hdot
      simpa using congrArg List.getLast? hdot
    have hhead := @head_append base.toList text.toList hchars fun hdot => absurd hdot hmore
    have hfst : (head (join base text).toList).1 = (head base.toList).1 := by rw [hjoin, hhead]
    have hsnd : (head (join base text).toList).2 = (head base.toList).2 ++ text.toList := by rw [hjoin, hhead]
    by_cases hfrontEmpty : front = []
    · have hroot : (head base.toList).2 = [] := by
        rw [hfront, hfrontEmpty]
        rfl
      exact ⟨[], [[]], by simp [isSilent], by rw [hroot]; rfl, hfst, by rw [hsnd, hroot]; rfl⟩
    · have hfrontHead := @head_append front ['/'] hfrontEmpty fun _ => ⟨[], rfl⟩
      rw [← hfront] at hfrontHead
      refine ⟨Text.splitOn '/' (head front).2, [[]], by simp [isSilent], ?_, hfst, ?_⟩
      · rw [hfrontHead, Text.splitOn_append_mark]
      · rw [hsnd, hfrontHead, List.append_assoc, List.singleton_append, Text.splitOn_append]
  · have hjoin : (join base text).toList = base.toList ++ '/' :: text.toList := by
      simp [join, htext, hempty, hslash]
    have hhead := @head_append base.toList ('/' :: text.toList) hchars fun _ => ⟨_, rfl⟩
    refine ⟨_, [], by simp, (List.append_nil _).symm, ?_, ?_⟩
    · rw [hjoin, hhead]
    · rw [hjoin, hhead, Text.splitOn_append]

/-- A path with names joined to it has the pieces of the path, up to some at the end that say nothing, and the
names. -/
theorem exists_pieces_join (hbase : base ≠ "") (hne : names ≠ []) (h : ∀ s ∈ names, IsName s) :
    ∃ pieces silent : List (List Char), (∀ piece ∈ silent, isSilent piece = true) ∧
      Text.splitOn '/' (head base.toList).2 = pieces ++ silent ∧
      (head (join base ("/".intercalate names)).toList).1 = (head base.toList).1 ∧
      Text.splitOn '/' (head (join base ("/".intercalate names)).toList).2 = pieces ++ names.map String.toList := by
  have hsplit : Text.splitOn '/' ("/".intercalate names).toList = names.map String.toList := by
    have hjoin : ("/".intercalate names).toList = Text.joinWith '/' (names.map String.toList) := by
      simp [String.toList_intercalate, ← Text.intercalate_eq_joinWith]
    rw [hjoin, Text.splitOn_joinWith (by simpa using hne)]
    intro piece hpiece
    obtain ⟨s, hs, rfl⟩ := List.mem_map.mp hpiece
    exact (h s hs).noSlash
  obtain ⟨pieces, silent, hsilent, hpieces, hfront, hjoined⟩ := exists_pieces_join_text hbase (not_startsWith_slash h)
  exact ⟨pieces, silent, hsilent, hpieces, hfront, hsplit ▸ hjoined⟩

/-! ## Parts behind a path -/

/-- **Names that are joined to a path stand behind its parts.** -/
theorem ofString_join (hbase : base ≠ "") (hne : names ≠ []) (h : ∀ s ∈ names, IsName s) :
    ofString (join base ("/".intercalate names)) = ofString base ++ names.map .name := by
  obtain ⟨pieces, silent, hsilent, hpieces, hfront, hjoined⟩ := exists_pieces_join hbase hne h
  simp only [ofString]
  rw [hfront, hjoined, hpieces, List.filterMap_append, List.filterMap_append, filterMap_part?_names h,
    filterMap_part?_silent hsilent, List.append_nil, List.append_assoc]

/-- If nothing stands in front of the pieces, the first of them says something. -/
theorem exists_splitOn_of_head (hne : chars ≠ []) (hfront : (head chars).1 = []) :
    (head chars).2 = chars ∧ ∃ piece rest, Text.splitOn '/' chars = piece :: rest ∧ piece ≠ [] ∧ piece ≠ ['.'] := by
  have hhead : (head chars).2 = chars ∧ (∀ rest, chars ≠ '/' :: rest) ∧ chars ≠ ['.'] ∧
      ∀ rest, chars ≠ '.' :: '/' :: rest := by
    revert hfront
    fun_cases head chars with
    | case4 _ hslash hdot hdots => exact fun _ => ⟨rfl, hslash, hdot, hdots⟩
    | _ => exact fun hfront => absurd hfront (by simp)
  obtain ⟨hrest, hslash, hdot, hdots⟩ := hhead
  obtain ⟨piece, more, hsplit⟩ := List.exists_cons_of_ne_nil (Text.splitOn_ne_nil '/' chars)
  have htext : Text.joinWith '/' (piece :: more) = chars := by rw [← hsplit, Text.joinWith_splitOn]
  refine ⟨hrest, piece, more, hsplit, ?_, ?_⟩ <;> rintro rfl
  · cases more with
    | nil => exact hne htext.symm
    | cons next more => exact hslash _ htext.symm
  · cases more with
    | nil => exact hdot htext.symm
    | cons next more => exact hdots _ htext.symm

/-- A path that starts with neither the root nor a dot starts with something else. -/
theorem exists_part_of_head (hbase : base ≠ "") (hfront : (head base.toList).1 = []) :
    ∃ part parts, ofString base = part :: parts ∧ part ≠ .root ∧ part ≠ .current := by
  have hchars : base.toList ≠ [] := fun hnil => hbase (String.toList_inj.mp hnil)
  obtain ⟨hrest, piece, more, hsplit, hpiece⟩ := exists_splitOn_of_head hchars hfront
  have hparts : ofString base = (piece :: more).filterMap part? := by
    simp only [ofString, hfront, hrest, hsplit, List.nil_append]
  by_cases hup : piece = ['.', '.']
  · have hpart : part? piece = some .parent := by simp [part?, hup]
    exact ⟨_, _, by rw [hparts, List.filterMap_cons_some hpart], by simp, by simp⟩
  · have hpart : part? piece = some (.name (String.ofList piece)) := by simp [part?, hpiece, hup]
    exact ⟨_, _, by rw [hparts, List.filterMap_cons_some hpart], by simp, by simp⟩

/-- What is left of a text that goes on with the pieces of a base. -/
theorem below?_of_pieces {text : String} (hbase : base ≠ "")
    (hparts : ofString base = (head base.toList).1 ++ pieces.filterMap part?)
    (hfront : (head text.toList).1 = (head base.toList).1)
    (hpieces : Text.splitOn '/' (head text.toList).2 = pieces ++ names.map String.toList) (h : ∀ s ∈ names, IsName s) :
    below? base text = some ("/".intercalate names) := by
  obtain ⟨skipped, hskipped, hcut⟩ := cutParts?_append pieces (names.map String.toList)
  have htext : String.ofList (Text.joinWith '/' (trimEnd
      ((skipped ++ names.map String.toList).dropWhile isSilent))) = "/".intercalate names := by
    rw [dropWhile_isSilent_names hskipped h, trimEnd_names h, ← Text.intercalate_eq_joinWith, ← String.toList_inj]
    simp
  simp only [below?, hfront, hpieces]
  by_cases hhead : (head base.toList).1 = []
  · obtain ⟨part, parts, hbaseParts, hroot, hcurrent⟩ := exists_part_of_head hbase hhead
    rw [hhead, List.nil_append] at hparts
    rw [← hparts, hbaseParts] at hcut
    simp only [hbaseParts, hroot, hcurrent, decide_false, Bool.or_self, Bool.false_eq_true, if_false, hhead, if_true,
      hcut, Option.map_some, htext]
  · have hone : (head base.toList).1 = [.root] ∨ (head base.toList).1 = [.current] := by
      revert hhead
      fun_cases head base.toList <;> simp
    rcases hone with hone | hone <;>
      simp only [hparts, hone, List.singleton_append, decide_true, Bool.true_or, Bool.or_true, if_true, hcut,
        Option.map_some, htext]

/-- **What is left of a path behind its base are the names that were joined to it.** -/
theorem below?_join (hbase : base ≠ "") (hne : names ≠ []) (h : ∀ s ∈ names, IsName s) :
    below? base (join base ("/".intercalate names)) = some ("/".intercalate names) := by
  obtain ⟨pieces, silent, hsilent, hpieces, hfront, hjoined⟩ := exists_pieces_join hbase hne h
  refine below?_of_pieces hbase ?_ hfront hjoined h
  simp only [ofString]
  rw [hpieces, List.filterMap_append, filterMap_part?_silent hsilent, List.append_nil]

/-- Nothing is left of a base behind itself. -/
theorem below?_self (hbase : base ≠ "") : below? base base = some "" := by
  have hself : below? base base = some ("/".intercalate []) :=
    below?_of_pieces hbase rfl rfl (List.append_nil _).symm (by simp)
  exact hself

end Stencil.Path
