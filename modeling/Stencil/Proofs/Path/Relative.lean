import Mathlib.Data.List.DropRight
import Stencil.Proofs.Path.Behind
import Stencil.Proofs.Path.Parts

/-!
# What is left of a path behind a base

Cutting a base off the front of a path works on the text, and so does all that is done with what is left. But whether
anything is cut off is a matter of the parts: a path lies behind a base if it starts with its parts, and what is left
has the other parts (`exists_below?`, `ofString_of_below?`). So nothing is left only of the base itself, in
whichever way it is written.

If a path goes on, so does what is left of it, by a slash and more (`below?_join_text`). The root is an exception: it
lies behind the empty path, and what is left of it is a slash that need not be followed by another.
-/

namespace Stencil.Path

variable {base path relative text : String} {parts : Path} {pieces silent rest more : List (List Char)}

/-! ## Dropping what says nothing -/

theorem filterMap_dropWhile_isSilent (pieces : List (List Char)) :
    (pieces.dropWhile isSilent).filterMap part? = pieces.filterMap part? := by
  induction pieces with
  | nil => rfl
  | cons piece rest ih =>
      by_cases hsilent : isSilent piece = true
      · rw [List.dropWhile_cons_of_pos hsilent, List.filterMap_cons_none (isSilent_iff.mp hsilent), ih]
      · rw [List.dropWhile_cons_of_neg hsilent]

theorem trimEnd_leads (pieces : List (List Char)) : trimEnd pieces <+: pieces :=
  List.rdropWhile_prefix isSilent pieces

theorem filterMap_trimEnd (pieces : List (List Char)) : (trimEnd pieces).filterMap part? = pieces.filterMap part? := by
  rw [trimEnd, List.filterMap_reverse, filterMap_dropWhile_isSilent, ← List.filterMap_reverse, List.reverse_reverse]

theorem trimEnd_append_silent (hsilent : ∀ piece ∈ silent, isSilent piece = true) (pieces : List (List Char)) :
    trimEnd (pieces ++ silent) = trimEnd pieces := by
  rw [trimEnd, List.reverse_append,
    List.dropWhile_append_of_pos fun piece hpiece => hsilent piece (List.mem_reverse.mp hpiece), trimEnd]

/-- What is not dropped is not dropped before more either. -/
theorem trimEnd_prefix_append (pieces more : List (List Char)) : trimEnd pieces <+: trimEnd (pieces ++ more) := by
  rw [trimEnd, trimEnd, List.reverse_append, List.dropWhile_append]
  split
  · exact List.prefix_rfl
  · rw [List.reverse_append, List.reverse_reverse]
    exact (trimEnd_leads pieces).trans (List.prefix_append _ _)

/-- The empty piece stays if something stays behind it. -/
theorem trimEnd_nil_cons (pieces : List (List Char)) :
    trimEnd ([] :: pieces) = if trimEnd pieces = [] then [] else [] :: trimEnd pieces := by
  simp only [trimEnd, List.reverse_cons, List.dropWhile_append, List.reverse_eq_nil_iff, List.isEmpty_iff]
  split
  · rfl
  · rw [List.reverse_append, List.reverse_singleton, List.singleton_append]

/-- What is in front of more is dropped as far as it was before, if it says anything. -/
theorem dropWhile_isSilent_append (h : pieces.filterMap part? ≠ []) (more : List (List Char)) :
    (pieces ++ more).dropWhile isSilent = pieces.dropWhile isSilent ++ more := by
  rw [List.dropWhile_append, if_neg]
  intro hempty
  rw [← filterMap_dropWhile_isSilent, List.isEmpty_iff.mp hempty] at h
  exact h rfl

/-! ## Cutting parts off -/

/-- What is cut off first is the first piece that says something. -/
theorem cutParts?_cons_eq_some {part : Part} (h : cutParts? (part :: parts) pieces = some rest) :
    ∃ piece others, pieces.dropWhile isSilent = piece :: others ∧ part? piece = some part ∧
      cutParts? parts others = some rest := by
  rw [cutParts?] at h
  cases hloud : pieces.dropWhile isSilent with
  | nil =>
      rw [hloud] at h
      cases h
  | cons piece others =>
      rw [hloud] at h
      dsimp only at h
      split at h
      · rename_i hpart
        exact ⟨piece, others, rfl, hpart, h⟩
      · cases h

/-- What is cut off and what is left make up the parts. -/
theorem filterMap_of_cutParts? (h : cutParts? parts pieces = some rest) :
    pieces.filterMap part? = parts ++ rest.filterMap part? := by
  induction parts generalizing pieces with
  | nil =>
      rw [← Option.some.inj h]
      rfl
  | cons part parts ih =>
      obtain ⟨piece, others, hloud, hpart, hcut⟩ := cutParts?_cons_eq_some h
      rw [← filterMap_dropWhile_isSilent, hloud, List.filterMap_cons_some hpart, ih hcut, List.cons_append]

/-- What is left stands at the end. -/
theorem suffix_of_cutParts? (h : cutParts? parts pieces = some rest) : rest <:+ pieces := by
  induction parts generalizing pieces with
  | nil =>
      obtain rfl := Option.some.inj h
      exact List.suffix_rfl
  | cons part parts ih =>
      obtain ⟨piece, others, hloud, -, hcut⟩ := cutParts?_cons_eq_some h
      have hsuffix := List.dropWhile_suffix (l := pieces) isSilent
      rw [hloud] at hsuffix
      exact (ih hcut).trans ((List.suffix_cons piece others).trans hsuffix)

/-- Parts that stand in front can be cut off. -/
theorem exists_cutParts? (h : parts <+: pieces.filterMap part?) : ∃ rest, cutParts? parts pieces = some rest := by
  induction parts generalizing pieces with
  | nil => exact ⟨pieces, rfl⟩
  | cons part parts ih =>
      rw [← filterMap_dropWhile_isSilent] at h
      rw [cutParts?]
      cases hloud : pieces.dropWhile isSilent with
      | nil =>
          rw [hloud] at h
          exact absurd (List.prefix_nil.mp h) (by simp)
      | cons piece others =>
          -- The first piece that is not dropped stands for a part.
          have hpiece : isSilent piece = false := by
            simpa [hloud] using List.head?_dropWhile_not isSilent pieces
          obtain ⟨first, hfirst⟩ : ∃ first, part? piece = some first := by
            refine Option.ne_none_iff_exists'.mp fun hnone => ?_
            rw [isSilent_iff.mpr hnone] at hpiece
            cases hpiece
          rw [hloud, List.filterMap_cons_some hfirst] at h
          obtain ⟨rfl, hrest⟩ := List.cons_prefix_cons.mp h
          dsimp only
          rw [if_pos hfirst]
          exact ih hrest

/-- What says nothing at the end is not cut off, and anything may stand there. -/
theorem cutParts?_append_silent (hsilent : ∀ piece ∈ silent, isSilent piece = true)
    (h : cutParts? parts (pieces ++ silent) = some rest) :
    ∃ left, rest = left ++ silent ∧ ∀ more, cutParts? parts (pieces ++ more) = some (left ++ more) := by
  induction parts generalizing pieces with
  | nil => exact ⟨pieces, (Option.some.inj h).symm, fun _ => rfl⟩
  | cons part parts ih =>
      have hloud : pieces.filterMap part? ≠ [] := by
        intro hnone
        have hparts := filterMap_of_cutParts? h
        rw [List.filterMap_append, hnone, filterMap_part?_silent hsilent] at hparts
        cases hparts
      obtain ⟨piece, others, hfirst, hpart, hcut⟩ := cutParts?_cons_eq_some h
      rw [dropWhile_isSilent_append hloud] at hfirst
      cases hpieces : pieces.dropWhile isSilent with
      | nil =>
          rw [← filterMap_dropWhile_isSilent, hpieces] at hloud
          exact absurd rfl hloud
      | cons first behind =>
          rw [hpieces] at hfirst
          obtain ⟨rfl, rfl⟩ := List.cons.inj hfirst
          obtain ⟨left, hrest, hmore⟩ := ih hcut
          refine ⟨left, hrest, fun more => ?_⟩
          rw [cutParts?, dropWhile_isSilent_append hloud, hpieces, List.cons_append]
          dsimp only
          rw [if_pos hpart, hmore]

/-! ## Reading what was put together -/

/-- Pieces are read as they were put together if the first one says something. -/
theorem ofString_joinWith (hslash : ∀ piece ∈ pieces, '/' ∉ piece)
    (hfirst : ∀ piece, pieces.head? = some piece → isSilent piece = false) :
    ofString (String.ofList (Text.joinWith '/' pieces)) = pieces.filterMap part? := by
  cases pieces with
  | nil => rfl
  | cons piece rest =>
      have hsplit := Text.splitOn_joinWith (List.cons_ne_nil piece rest) hslash
      have hloud : isSilent piece = false := hfirst piece rfl
      have hhead := head_of_splitOn hsplit (by rintro rfl; cases hloud) (by rintro rfl; cases hloud)
      rw [ofString, String.toList_ofList, hhead]
      exact congrArg (List.filterMap part?) hsplit

/-- What is left when pieces that say nothing are dropped at both ends starts with one that says something. -/
theorem loud_of_head?_trimEnd {piece : List Char} (h : (trimEnd (rest.dropWhile isSilent)).head? = some piece) :
    isSilent piece = false := by
  obtain ⟨more, hmore⟩ := trimEnd_leads (rest.dropWhile isSilent)
  have hhead : (rest.dropWhile isSilent).head? = some piece := by
    obtain ⟨others, hothers⟩ := List.head?_eq_some_iff.mp h
    rw [← hmore, hothers]
    rfl
  simpa [hhead] using List.head?_dropWhile_not isSilent rest

/-- The parts of what is left. -/
theorem ofString_trimmed (hslash : ∀ piece ∈ rest, '/' ∉ piece) :
    ofString (String.ofList (Text.joinWith '/' (trimEnd (rest.dropWhile isSilent)))) = rest.filterMap part? := by
  rw [ofString_joinWith ?_ fun piece => loud_of_head?_trimEnd, filterMap_trimEnd, filterMap_dropWhile_isSilent]
  intro piece hpiece
  exact hslash piece ((List.dropWhile_sublist isSilent).subset ((trimEnd_leads _).subset hpiece))

theorem filterMap_splitOn_joinWith (hslash : ∀ piece ∈ pieces, '/' ∉ piece) :
    (Text.splitOn '/' (Text.joinWith '/' pieces)).filterMap part? = pieces.filterMap part? := by
  cases pieces with
  | nil => rfl
  | cons piece rest => rw [Text.splitOn_joinWith (List.cons_ne_nil piece rest) hslash]

/-! ## Behind a base -/

/-- Only the empty path has no parts. -/
theorem ofString_eq_nil_iff : ofString text = [] ↔ text = "" := by
  constructor
  · intro hnil
    by_contra hne
    obtain ⟨hfront, -⟩ := List.append_eq_nil_iff.mp hnil
    obtain ⟨part, rest, hparts, -⟩ := exists_part_of_head hne hfront
    rw [hnil] at hparts
    cases hparts
  · rintro rfl
    rfl

theorem front_cases (text : String) : (head text.toList).1 = [] ∨ (head text.toList).1 = [.root] ∨
    (head text.toList).1 = [.current] ∧ ∃ more, Text.splitOn '/' (head text.toList).2 = [] :: more := by
  rcases head_cases text.toList with ⟨rest, -, hhead⟩ | ⟨-, hhead⟩ | ⟨rest, -, hhead⟩ | ⟨-, hhead⟩ <;> rw [hhead]
  · exact Or.inr (Or.inl rfl)
  · exact Or.inr (Or.inr ⟨rfl, [], rfl⟩)
  · exact Or.inr (Or.inr ⟨rfl, _, rfl⟩)
  · exact Or.inl rfl

/-- **How a base that says something is cut off**: what stands in front is the same, and the parts behind it are cut
off the pieces. -/
theorem below?_eq_some_iff (hbase : base ≠ "") : below? base path = some relative ↔
    ∃ parts rest, ofString base = (head path.toList).1 ++ parts ∧
      cutParts? parts (Text.splitOn '/' (head path.toList).2) = some rest ∧
      relative = String.ofList (Text.joinWith '/' (trimEnd (rest.dropWhile isSilent))) := by
  obtain ⟨part, others, hothers⟩ := List.exists_cons_of_ne_nil (mt ofString_eq_nil_iff.mp hbase)
  simp only [below?, hothers]
  constructor
  · intro h
    obtain ⟨rest, hinside, rfl⟩ := Option.map_eq_some_iff.mp h
    split at hinside <;> split at hinside
    · rename_i hfront
      exact ⟨others, rest, by rw [hfront]; rfl, hinside, rfl⟩
    · cases hinside
    · rename_i hfront
      exact ⟨part :: others, rest, by rw [hfront]; rfl, hinside, rfl⟩
    · cases hinside
  · rintro ⟨parts, rest, hparts, hcut, rfl⟩
    refine Option.map_eq_some_iff.mpr ⟨rest, ?_, rfl⟩
    rcases front_cases path with hfront | hfront | ⟨hfront, -⟩
    · -- What is cut off the pieces is neither the root nor a dot.
      rw [hfront, List.nil_append] at hparts
      rw [← hparts] at hcut
      have hmem : part ∈ (Text.splitOn '/' (head path.toList).2).filterMap part? := by
        rw [filterMap_of_cutParts? hcut]
        exact List.mem_cons_self
      obtain ⟨piece, hpiece, hpart⟩ := List.mem_filterMap.mp hmem
      rcases isInner_of_part? (Text.not_mem_of_mem_splitOn hpiece) hpart with rfl | ⟨s, rfl, -⟩ <;>
        simp [hfront, hcut]
    all_goals
      rw [hfront] at hparts
      obtain ⟨rfl, rfl⟩ := List.cons.inj hparts
      simp [hfront, hcut]

/-- What is left of a path behind the empty one. -/
theorem below?_empty (path : String) : below? "" path =
    some ("".intercalate ((head path.toList).1.map partText) ++
      String.ofList (Text.joinWith '/' (trimEnd (Text.splitOn '/' (head path.toList).2)))) := rfl

/-- **There is something left behind a base if the path starts with its parts.** -/
theorem exists_below? (h : startsWith (ofString path) (ofString base) = true) :
    ∃ relative, below? base path = some relative := by
  by_cases hbase : base = ""
  · subst hbase
    exact ⟨_, below?_empty path⟩
  · have hprefix : ofString base <+: (head path.toList).1 ++ (Text.splitOn '/' (head path.toList).2).filterMap part? :=
      List.isPrefixOf_iff_prefix.mp h
    obtain ⟨part, others, hothers⟩ := List.exists_cons_of_ne_nil (mt ofString_eq_nil_iff.mp hbase)
    obtain ⟨parts, hparts, hlead⟩ : ∃ parts, ofString base = (head path.toList).1 ++ parts ∧
        parts <+: (Text.splitOn '/' (head path.toList).2).filterMap part? := by
      rcases front_cases path with hfront | hfront | ⟨hfront, -⟩ <;> rw [hfront] at hprefix ⊢
      · exact ⟨ofString base, rfl, hprefix⟩
      all_goals
        rw [hothers] at hprefix ⊢
        obtain ⟨rfl, hrest⟩ := List.cons_prefix_cons.mp hprefix
        exact ⟨others, rfl, hrest⟩
    obtain ⟨rest, hcut⟩ := exists_cutParts? hlead
    exact ⟨_, (below?_eq_some_iff hbase).mpr ⟨parts, rest, hparts, hcut, rfl⟩⟩

theorem ofString_slash (chars : List Char) :
    ofString (String.ofList ('/' :: chars)) = .root :: (Text.splitOn '/' chars).filterMap part? := by
  rw [ofString, String.toList_ofList]
  rfl

theorem ofString_dot_slash (chars : List Char) :
    ofString (String.ofList ('.' :: '/' :: chars)) = .current :: (Text.splitOn '/' chars).filterMap part? := by
  rw [ofString, String.toList_ofList]
  rfl

/-- What is read of a dot with pieces behind it. The empty one in front of them stands for the slash, and is dropped
with the others if they say nothing. -/
theorem ofString_dot_trimEnd (hslash : ∀ piece ∈ pieces, '/' ∉ piece) :
    ofString (String.ofList ('.' :: Text.joinWith '/' (trimEnd ([] :: pieces)))) =
      .current :: pieces.filterMap part? := by
  rw [trimEnd_nil_cons, ← filterMap_trimEnd pieces]
  by_cases hleft : trimEnd pieces = []
  · rw [if_pos hleft, hleft]
    rfl
  · have hleftSlash : ∀ piece ∈ trimEnd pieces, '/' ∉ piece := fun piece hpiece =>
      hslash piece ((trimEnd_leads pieces).subset hpiece)
    obtain ⟨first, others, hothers⟩ := List.exists_cons_of_ne_nil hleft
    have hjoin : Text.joinWith '/' ([] :: trimEnd pieces) = '/' :: Text.joinWith '/' (trimEnd pieces) := by
      rw [hothers]
      rfl
    rw [if_neg hleft, hjoin, ofString_dot_slash, filterMap_splitOn_joinWith hleftSlash]

/-- What is left behind the empty path are all the parts. -/
theorem ofString_of_below?_empty (h : below? "" path = some relative) : ofString path = ofString relative := by
  obtain ⟨chars, rfl⟩ : ∃ chars, path = String.ofList chars := ⟨path.toList, String.ofList_toList.symm⟩
  rw [below?_empty, Option.some.injEq, String.toList_ofList] at h
  rcases head_cases chars with ⟨rest, rfl, hhead⟩ | ⟨rfl, -⟩ | ⟨rest, rfl, hhead⟩ | ⟨-, hhead⟩
  · have hrelative : relative = String.ofList ('/' :: Text.joinWith '/' (trimEnd (Text.splitOn '/' rest))) := by
      rw [← h, hhead, ← String.toList_inj]
      simp [partText]
    have hslash : ∀ piece ∈ trimEnd (Text.splitOn '/' rest), '/' ∉ piece := fun piece hpiece =>
      Text.not_mem_of_mem_splitOn ((trimEnd_leads _).subset hpiece)
    rw [hrelative, ofString_slash, ofString_slash, filterMap_splitOn_joinWith hslash, filterMap_trimEnd]
  · rw [← h]
    rfl
  · have hrelative : relative = String.ofList ('.' :: Text.joinWith '/' (trimEnd ([] :: Text.splitOn '/' rest))) := by
      rw [← h, hhead, show Text.splitOn '/' ('/' :: rest) = [] :: Text.splitOn '/' rest from rfl, ← String.toList_inj]
      simp [partText]
    rw [hrelative, ofString_dot_trimEnd fun _ => Text.not_mem_of_mem_splitOn, ofString_dot_slash]
  · have hrelative : relative = String.ofList (Text.joinWith '/' (trimEnd (Text.splitOn '/' chars))) := by
      rw [← h, hhead, ← String.toList_inj]
      simp
    by_cases hempty : chars = []
    · subst hempty
      rw [hrelative]
      rfl
    · obtain ⟨-, piece, rest, hsplit, hne, hdot⟩ := exists_splitOn_of_head hempty (by rw [hhead])
      have hloud : (Text.splitOn '/' chars).dropWhile isSilent = Text.splitOn '/' chars := by
        rw [hsplit, List.dropWhile_cons_of_neg (by simp [isSilent, hne, hdot])]
      rw [hrelative, ← hloud, ofString_trimmed fun _ => Text.not_mem_of_mem_splitOn, ofString, String.toList_ofList,
        hhead]
      rfl

/-- **What is left of a path behind a base has the parts that the base has not.** -/
theorem ofString_of_below? (h : below? base path = some relative) :
    ofString path = ofString base ++ ofString relative := by
  by_cases hbase : base = ""
  · subst hbase
    exact ofString_of_below?_empty h
  · obtain ⟨parts, rest, hparts, hcut, rfl⟩ := (below?_eq_some_iff hbase).mp h
    have hslash : ∀ piece ∈ rest, '/' ∉ piece := fun piece hpiece =>
      Text.not_mem_of_mem_splitOn ((suffix_of_cutParts? hcut).subset hpiece)
    rw [ofString_trimmed hslash, hparts, List.append_assoc, ← filterMap_of_cutParts? hcut]
    rfl

/-- **Nothing is left of the base alone.** -/
theorem eq_empty_iff_of_below? (h : below? base path = some relative) :
    relative = "" ↔ ofString path = ofString base := by
  rw [ofString_of_below? h, List.append_right_eq_self, ofString_eq_nil_iff]

/-! ## Behind a path behind a base -/

/-- More pieces behind some are more text, and a slash in between. -/
theorem joinWith_of_prefix {all : List (List Char)} (hlead : pieces <+: all) (hne : pieces ≠ []) :
    Text.joinWith '/' all = Text.joinWith '/' pieces ∨
      ∃ more, Text.joinWith '/' all = Text.joinWith '/' pieces ++ '/' :: more := by
  obtain ⟨others, rfl⟩ := hlead
  by_cases hempty : others = []
  · rw [hempty, List.append_nil]
    exact Or.inl rfl
  · exact Or.inr ⟨_, Text.joinWith_append hne hempty⟩

/-- How one text goes on from another: not at all, or by a slash and more. -/
def GoesOn (text further : String) : Prop :=
  further = text ∨ ∃ more, further.toList = text.toList ++ '/' :: more

theorem goesOn_ofList (front : String) {all : List (List Char)} (hlead : pieces <+: all) (hne : pieces ≠ []) :
    GoesOn (front ++ String.ofList (Text.joinWith '/' pieces)) (front ++ String.ofList (Text.joinWith '/' all)) := by
  rcases joinWith_of_prefix hlead hne with heq | ⟨more, heq⟩
  · exact Or.inl (by rw [heq])
  · exact Or.inr ⟨more, by simp [heq]⟩

/-- A dot goes on with a slash, if it does. -/
theorem goesOn_dot (pieces : List (List Char)) :
    GoesOn "." ("." ++ String.ofList (Text.joinWith '/' (trimEnd ([] :: pieces)))) := by
  rw [trimEnd_nil_cons]
  split
  · exact Or.inl rfl
  · rename_i hmore
    obtain ⟨next, behind, hnext⟩ := List.exists_cons_of_ne_nil hmore
    rw [hnext]
    exact Or.inr ⟨Text.joinWith '/' (next :: behind), by simp [Text.joinWith]⟩

/-- What is left behind the empty path goes on, unless it is the root. -/
theorem below?_empty_join_text (h : below? "" path = some relative) (hne : relative ≠ "")
    (hroot : ofString path ≠ [.root]) (htext : text.startsWith "/" = false) :
    ∃ further, below? "" (join path text) = some further ∧ GoesOn relative further := by
  have hpath : path ≠ "" := by
    rintro rfl
    exact hne (Option.some.inj h).symm
  obtain ⟨pieces, silent, hsilent, hpieces, hfront, hjoined⟩ := exists_pieces_join_text hpath htext
  rw [below?_empty, hpieces, trimEnd_append_silent hsilent, Option.some.injEq] at h
  refine ⟨_, below?_empty _, ?_⟩
  rw [hfront, hjoined, ← h]
  by_cases hleft : trimEnd pieces = []
  · -- Nothing but what stands in front is left, so that is the dot.
    have hparts : ofString path = (head path.toList).1 := by
      simp only [ofString]
      rw [hpieces, List.filterMap_append, filterMap_part?_silent hsilent, ← filterMap_trimEnd, hleft]
      simp
    rw [hleft] at h ⊢
    rcases front_cases path with hnone | hone | ⟨hone, -⟩
    · rw [hnone] at h
      exact absurd h.symm hne
    · rw [hparts] at hroot
      exact absurd hone hroot
    · obtain ⟨others, hothers⟩ : ∃ others, pieces ++ Text.splitOn '/' text.toList = [] :: others := by
        rcases front_cases (join path text) with hfront' | hfront' | ⟨-, hfirst⟩
        · rw [hfront, hone] at hfront'
          cases hfront'
        · rw [hfront, hone] at hfront'
          cases hfront'
        · rwa [hjoined] at hfirst
      rw [hothers, hone]
      exact goesOn_dot others
  · exact goesOn_ofList _ (trimEnd_prefix_append pieces _) hleft

/-- **If a path goes on, so does what is left of it behind a base.** That is not so of the root, which is left behind
the empty path with a slash at its end. -/
theorem below?_join_text (h : below? base path = some relative) (hne : relative ≠ "")
    (hroot : ofString path ≠ [.root]) (htext : text.startsWith "/" = false) :
    ∃ further, below? base (join path text) = some further ∧ GoesOn relative further := by
  by_cases hbase : base = ""
  · subst hbase
    exact below?_empty_join_text h hne hroot htext
  have hpath : path ≠ "" := by
    rintro rfl
    obtain ⟨-, hnil⟩ := List.append_eq_nil_iff.mp (ofString_of_below? h).symm
    exact hne (ofString_eq_nil_iff.mp hnil)
  obtain ⟨pieces, silent, hsilent, hpieces, hfront, hjoined⟩ := exists_pieces_join_text hpath htext
  obtain ⟨parts, rest, hparts, hcut, hrelative⟩ := (below?_eq_some_iff hbase).mp h
  have hslash : ∀ piece ∈ rest, '/' ∉ piece := fun piece hpiece =>
    Text.not_mem_of_mem_splitOn ((suffix_of_cutParts? hcut).subset hpiece)
  rw [hpieces] at hcut
  obtain ⟨left, rfl, hmore⟩ := cutParts?_append_silent hsilent hcut
  -- What is left says something, so pieces are dropped in front of it and not behind.
  have hloud : left.filterMap part? ≠ [] := by
    intro hnil
    have hnone := ofString_trimmed hslash
    rw [← hrelative, List.filterMap_append, hnil, filterMap_part?_silent hsilent] at hnone
    exact hne (ofString_eq_nil_iff.mp hnone)
  rw [dropWhile_isSilent_append hloud, trimEnd_append_silent hsilent] at hrelative
  have hleft : trimEnd (left.dropWhile isSilent) ≠ [] := by
    intro hnil
    rw [hnil] at hrelative
    exact hne hrelative
  refine ⟨_, (below?_eq_some_iff hbase).mpr ⟨parts, _, by rw [hfront, hparts], by rw [hjoined, hmore], rfl⟩, ?_⟩
  rw [dropWhile_isSilent_append hloud, hrelative]
  simpa using goesOn_ofList "" (trimEnd_prefix_append (left.dropWhile isSilent) _) hleft

end Stencil.Path
