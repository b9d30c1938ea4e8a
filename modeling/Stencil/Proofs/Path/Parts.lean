import Stencil.Proofs.Path.Text

/-!
# Parts and steps

A path is read twice, as parts by those who compare paths and as steps by the file system. The steps
are the parts that lead somewhere (`steps_eq`), and the parts are those of the path that is written
from them (`IsTidy.ofString_render`). So the paths around a path lead along its own steps, up to where
they end (`steps_outer`).
-/

namespace Stencil.Path

open Files

/-- The step that a part stands for, if it leads anywhere. -/
def step? : Part → Option Step
  | .root => none
  | .current => none
  | .parent => some .up
  | .name s => some (.name s)

theorem ofPiece?_eq (piece : List Char) : Step.ofPiece? piece = (part? piece).bind step? := by
  unfold Step.ofPiece? part?
  split
  · rfl
  · split <;> rfl

theorem filterMap_ofPiece?_eq (pieces : List (List Char)) :
    pieces.filterMap Step.ofPiece? = (pieces.filterMap part?).filterMap step? := by
  rw [List.filterMap_filterMap]
  exact congrArg (List.filterMap · pieces) (funext ofPiece?_eq)

/-- What stands in front of a path leads nowhere. -/
theorem head_cases (chars : List Char) :
    (∃ rest, chars = '/' :: rest ∧ head chars = ([.root], rest)) ∨
      (chars = ['.'] ∧ head chars = ([.current], [])) ∨
      (∃ rest, chars = '.' :: '/' :: rest ∧ head chars = ([.current], '/' :: rest)) ∨
      chars.head? ≠ some '/' ∧ head chars = ([], chars) := by
  unfold head
  split
  · exact Or.inl ⟨_, rfl, rfl⟩
  · exact Or.inr (Or.inl ⟨rfl, rfl⟩)
  · exact Or.inr (Or.inr (Or.inl ⟨_, rfl, rfl⟩))
  · rename_i hroot _ _
    refine Or.inr (Or.inr (Or.inr ⟨fun hhead => ?_, rfl⟩))
    obtain ⟨rest, rfl⟩ := List.head?_eq_some_iff.mp hhead
    exact hroot rest rfl

/-- Nothing stands in front of a piece that says something. -/
theorem head_of_splitOn {chars piece : List Char} {more : List (List Char)}
    (hsplit : Text.splitOn '/' chars = piece :: more) (hne : piece ≠ []) (hdot : piece ≠ ['.']) :
    head chars = ([], chars) := by
  rcases head_cases chars with ⟨rest, rfl, -⟩ | ⟨rfl, -⟩ | ⟨rest, rfl, -⟩ | ⟨-, hhead⟩
  · exact absurd (List.cons.inj hsplit).1.symm hne
  · exact absurd (List.cons.inj hsplit).1.symm hdot
  · exact absurd (List.cons.inj hsplit).1.symm hdot
  · exact hhead

/-- **The steps of a path are its parts that lead anywhere.** -/
theorem steps_eq (text : String) : (Route.ofString text).steps = (ofString text).filterMap step? := by
  simp only [Route.ofString, ofString]
  rcases head_cases text.toList with ⟨rest, hchars, hhead⟩ | ⟨hchars, hhead⟩ | ⟨rest, hchars, hhead⟩ |
      ⟨_, hhead⟩ <;> rw [hhead]
  · simp [hchars, Text.splitOn, Step.ofPiece?, filterMap_ofPiece?_eq, List.filterMap_cons, step?]
  · simp [hchars, Text.splitOn, Step.ofPiece?, step?, part?]
  · simp [hchars, Text.splitOn, Step.ofPiece?, filterMap_ofPiece?_eq,
      List.filterMap_cons, step?, part?]
  · simp [filterMap_ofPiece?_eq]

theorem part?_ne_root (piece : List Char) : part? piece ≠ some .root := by
  unfold part?
  split
  · simp
  · split <;> simp

theorem isAbsolute_eq (text : String) :
    (Route.ofString text).isAbsolute = (ofString text).isAbsolute := by
  simp only [Route.ofString, ofString]
  rcases head_cases text.toList with ⟨rest, hchars, hhead⟩ | ⟨hchars, hhead⟩ | ⟨rest, hchars, hhead⟩ |
      ⟨hroot, hhead⟩ <;> rw [hhead]
  · simp [hchars, isAbsolute]
  · simp [hchars, isAbsolute]
  · simp [hchars, isAbsolute]
  · rw [decide_eq_false hroot, eq_comm, isAbsolute, beq_eq_false_iff_ne, List.nil_append]
    intro hhead
    obtain ⟨piece, _, hpiece⟩ := List.mem_filterMap.mp (List.mem_of_head? hhead)
    exact part?_ne_root piece hpiece

/-! ## Tidy paths -/

/-- Whether a part is a step up or a name that can stand between slashes. -/
def IsInner (part : Part) : Prop := part = .parent ∨ ∃ s, part = .name s ∧ IsName s

/-- Whether a path has the parts of one that was read. -/
def IsTidy (path : Path) : Prop :=
  ∃ front rest, path = front ++ rest ∧ (front = [] ∨ front = [.root] ∨ front = [.current]) ∧
    ∀ part ∈ rest, IsInner part

theorem IsInner.part?_partText {part : Part} (h : IsInner part) :
    part? (partText part).toList = some part := by
  rcases h with rfl | ⟨s, rfl, hs⟩
  · simp [partText, part?]
  · exact part?_name hs

theorem IsInner.noSlash {part : Part} (h : IsInner part) : '/' ∉ (partText part).toList := by
  rcases h with rfl | ⟨s, rfl, hs⟩
  · simp [partText]
  · exact hs.noSlash

theorem isInner_of_part? {piece : List Char} {part : Part} (hslash : '/' ∉ piece)
    (h : part? piece = some part) : IsInner part := by
  cases part with
  | root => exact absurd h (part?_ne_root piece)
  | parent => exact Or.inl rfl
  | current =>
      unfold part? at h
      split at h
      · exact absurd h (by simp)
      · split at h <;> simp at h
  | name s =>
      refine Or.inr ⟨s, rfl, (isName_of_ofPiece? hslash (s := s) ?_).1⟩
      rw [ofPiece?_eq, h]
      rfl

theorem isTidy_ofString (text : String) : (ofString text).IsTidy := by
  have hinner : ∀ chars, ∀ part ∈ (Text.splitOn '/' chars).filterMap part?, IsInner part := by
    intro chars part hpart
    obtain ⟨piece, hmem, hpiece⟩ := List.mem_filterMap.mp hpart
    exact isInner_of_part? (Text.not_mem_of_mem_splitOn hmem) hpiece
  refine ⟨(head text.toList).1, _, rfl, ?_, hinner (head text.toList).2⟩
  rcases head_cases text.toList with ⟨_, _, hhead⟩ | ⟨_, hhead⟩ | ⟨_, _, hhead⟩ |
    ⟨_, hhead⟩ <;> simp [hhead]

theorem IsTidy.take {path : Path} (h : path.IsTidy) (n : Nat) : IsTidy (path.take n) := by
  obtain ⟨front, rest, rfl, hfront, hrest⟩ := h
  refine ⟨front.take n, rest.take (n - front.length), List.take_append, ?_, fun part hpart =>
    hrest part (List.mem_of_mem_take hpart)⟩
  rcases hfront with rfl | rfl | rfl <;> cases n <;> simp

theorem splitOn_intercalate {rest : Path} (h : ∀ part ∈ rest, IsInner part) (hne : rest ≠ []) :
    Text.splitOn '/' ("/".intercalate (rest.map partText)).toList = rest.map fun part =>
      (partText part).toList := by
  have hchars : ("/".intercalate (rest.map partText)).toList =
      Text.joinWith '/' (rest.map fun part => (partText part).toList) := by
    simp [String.toList_intercalate, ← Text.intercalate_eq_joinWith, Function.comp_def]
  rw [hchars, Text.splitOn_joinWith (by simpa using hne)]
  intro piece hpiece
  obtain ⟨part, hpart, rfl⟩ := List.mem_map.mp hpiece
  exact (h part hpart).noSlash

/-- Pieces between slashes are read as they were written. -/
theorem filterMap_splitOn_intercalate {rest : Path} (h : ∀ part ∈ rest, IsInner part) :
    (Text.splitOn '/' ("/".intercalate (rest.map partText)).toList).filterMap part? = rest := by
  by_cases hempty : rest = []
  · subst hempty
    simp [Text.splitOn, part?]
  · rw [splitOn_intercalate h hempty, List.filterMap_map]
    clear hempty
    induction rest with
    | nil => rfl
    | cons part rest ih =>
        have hpart : (part? ∘ fun part => (partText part).toList) part = some part :=
          (h part List.mem_cons_self).part?_partText
        rw [List.filterMap_cons_some hpart, ih fun other hother =>
          h other (List.mem_cons_of_mem _ hother)]

/-- Nothing stands in front of the pieces. -/
theorem head_intercalate {rest : Path} (h : ∀ part ∈ rest, IsInner part) :
    head ("/".intercalate (rest.map partText)).toList =
      ([], ("/".intercalate (rest.map partText)).toList) := by
  cases rest with
  | nil => rfl
  | cons part rest =>
      have hpart := (h part List.mem_cons_self).part?_partText
      have hsilent : ∀ silent, part? silent = none → (partText part).toList ≠ silent := by
        rintro silent hnone rfl
        rw [hpart] at hnone
        cases hnone
      exact head_of_splitOn (splitOn_intercalate h (by simp)) (hsilent [] rfl) (hsilent ['.'] rfl)

/-- **A tidy path is read as it was written.** -/
theorem IsTidy.ofString_render {path : Path} (h : path.IsTidy) : ofString path.render = path := by
  obtain ⟨front, rest, rfl, hfront, hrest⟩ := h
  have hparts := filterMap_splitOn_intercalate hrest
  rcases hfront with rfl | rfl | rfl
  · have hrender : render ([] ++ rest) = "/".intercalate (rest.map partText) := by
      cases rest with
      | nil => rfl
      | cons part rest =>
          rcases hrest part List.mem_cons_self with rfl | ⟨s, rfl, _⟩ <;> rfl
    rw [hrender, ofString, head_intercalate hrest]
    exact hparts
  · have hchars : (render ([.root] ++ rest)).toList = '/' ::
        ("/".intercalate (rest.map partText)).toList := by
      simp [render]
    rw [ofString, hchars]
    simp only [head, hparts]
  · by_cases hempty : rest = []
    · subst hempty
      rfl
    · have hchars : (render ([.current] ++ rest)).toList =
          '.' :: '/' :: ("/".intercalate (rest.map partText)).toList := by
        rw [show render ([.current] ++ rest) = "/".intercalate (["."] ++ rest.map partText) from rfl,
          String.intercalate_append_of_ne_nil (by simp) (by simpa using hempty)]
        simp
      rw [ofString, hchars]
      simp only [head, Text.splitOn, if_true]
      rw [List.filterMap_cons_none (by simp [part?]), hparts]

/-- Paths around a path are read as they were written. -/
theorem ofString_outer {text : String} {outer : Path} (h : outer ∈ (ofString text).outer) :
    ∃ n, outer = (ofString text).take n ∧ ofString outer.render = outer := by
  obtain ⟨n, _, rfl⟩ := List.mem_map.mp (List.mem_filter.mp h).1
  exact ⟨n, rfl, ((isTidy_ofString text).take n).ofString_render⟩

/-- **A path around a path leads along its steps**, up to where it ends. -/
theorem steps_outer {text : String} {outer : Path} (h : outer ∈ (ofString text).outer) :
    (Route.ofString outer.render).steps <+: (Route.ofString text).steps := by
  obtain ⟨n, hn, hread⟩ := ofString_outer h
  rw [steps_eq, steps_eq, hread, hn]
  exact (List.take_prefix n _).filterMap step?

/-- A path around a path that leads anywhere ends before it. -/
theorem steps_outer_ne {text : String} {outer : Path} (h : outer ∈ (ofString text).outer)
    (hne : (Route.ofString text).steps ≠ []) : (Route.ofString outer.render).steps ≠ (Route.ofString text).steps := by
  obtain ⟨n, hlt, rfl⟩ := List.mem_map.mp (List.mem_filter.mp h).1
  rw [List.mem_reverse, List.mem_range] at hlt
  rw [steps_eq, steps_eq, ((isTidy_ofString text).take n).ofString_render]
  rw [steps_eq] at hne
  obtain ⟨front, rest, hpath, hfront, hinner⟩ := isTidy_ofString text
  -- The last part leads somewhere, and no path around has it.
  obtain ⟨more, last, rfl⟩ := (List.eq_nil_or_concat rest).resolve_left (by
    rintro rfl
    rw [hpath] at hne
    rcases hfront with rfl | rfl | rfl <;> simp [step?] at hne)
  rw [List.concat_eq_append, ← List.append_assoc] at hpath
  obtain ⟨step, hstep⟩ : ∃ step, step? last = some step := by
    rcases hinner last (by simp) with rfl | ⟨s, rfl, -⟩
    · exact ⟨_, rfl⟩
    · exact ⟨_, rfl⟩
  intro heq
  have hle := ((List.take_prefix n (front ++ more)).filterMap step?).length_le
  have hlength := congrArg List.length heq
  rw [hpath] at hlt hlength
  have htake : List.take n (front ++ more ++ [last]) = List.take n (front ++ more) := by
    refine List.take_append_of_le_length ?_
    simp only [List.length_append, List.length_cons, List.length_nil] at hlt ⊢
    omega
  rw [htake, List.filterMap_append, List.length_append] at hlength
  simp [hstep] at hlength
  simp at hle
  omega

theorem isAbsolute_outer {text : String} {outer : Path} (h : outer ∈ (ofString text).outer) :
    (Route.ofString outer.render).isAbsolute = (Route.ofString text).isAbsolute := by
  obtain ⟨n, hn, hread⟩ := ofString_outer h
  have hkeep := (List.mem_filter.mp h).2
  rw [isAbsolute_eq, isAbsolute_eq, hread]
  generalize ofString text = path at hn hkeep
  subst hn
  cases path with
  | nil => rw [List.take_nil]
  | cons part rest =>
      cases n with
      | zero =>
          have hrelative : isAbsolute (part :: rest) = false := by simpa using hkeep
          rw [hrelative]
          rfl
      | succ n => simp [isAbsolute]

end Stencil.Path
