import Stencil.Proofs.Path.Text

/-!
# Plain paths

A plain path is nothing but names behind the root. What is left of a path after it was put behind a
plain one and its steps up were taken is plain again (`confine_isPlain`), so whoever confines paths to
a root has to do with plain paths only.
-/

namespace Stencil.Path

open Files

/-- Whether a path is nothing but names behind the root. -/
def IsPlain (path : Path) : Prop :=
  ∃ names : Place, path = .root :: names.map .name ∧ ∀ s ∈ names, IsName s

/-- Reading a path yields only names that can stand between slashes. -/
theorem isName_of_mem_ofString {text s : String} (h : Part.name s ∈ ofString text) : IsName s := by
  have hhead : Part.name s ∉ (head text.toList).1 := by
    unfold head
    split <;> simp
  rw [ofString] at h
  rcases List.mem_append.mp h with h | h
  · exact absurd h hhead
  · obtain ⟨piece, hmem, hpart⟩ := List.mem_filterMap.mp h
    have hstep : Step.ofPiece? piece = some (.name s) := by
      unfold part? at hpart
      unfold Step.ofPiece?
      split at hpart
      · exact absurd hpart (by simp)
      · rename_i hsilent
        split at hpart
        · exact absurd hpart (by simp)
        · rename_i hup
          rw [if_neg hsilent, if_neg hup]
          simpa using hpart
    exact (isName_of_ofPiece? (Text.not_mem_of_mem_splitOn hmem) hstep).1

theorem parent?_isPlain {path parent : Path} (h : path.IsPlain)
    (hparent : path.parent? = some parent) :
    parent.IsPlain := by
  obtain ⟨names, rfl, hnames⟩ := h
  obtain ⟨htake, hkeep⟩ := List.mem_filter.mp (List.mem_of_head? hparent)
  obtain ⟨n, _, rfl⟩ := List.mem_map.mp htake
  cases n with
  | zero => exact absurd hkeep (by simp [isAbsolute])
  | succ n =>
      exact ⟨names.take n, by simp [List.map_take], fun s hs => hnames s (List.mem_of_mem_take hs)⟩

/-- A stack of parts that holds nothing but names above the root. -/
private def IsPlainStack (stack : Path) : Prop := IsPlain stack.reverse

private theorem pushPart_isPlain {stack : Path} {part : Part} (h : IsPlainStack stack)
    (hpart : ∀ s, part = .name s → IsName s) : IsPlainStack (pushPart stack part) := by
  obtain ⟨names, hstack, hnames⟩ := h
  cases part with
  | root => exact ⟨[], rfl, by simp⟩
  | current => exact ⟨names, hstack, hnames⟩
  | name s =>
      refine ⟨names ++ [s], by simp [pushPart, hstack], fun t ht => ?_⟩
      rcases List.mem_append.mp ht with ht | ht
      · exact hnames t ht
      · exact List.mem_singleton.mp ht ▸ hpart s rfl
  | parent =>
      rcases List.eq_nil_or_concat names with rfl | ⟨front, last, rfl⟩
      · have hroot : stack = [.root] := by simpa using congrArg List.reverse hstack
        exact ⟨[], by simp [hroot, pushPart], by simp⟩
      · have hstack : stack = .name last :: (.root :: front.map Part.name).reverse := by
          simpa using congrArg List.reverse hstack
        refine ⟨front, by simp [hstack, pushPart], fun t ht => hnames t ?_⟩
        exact List.concat_eq_append ▸ List.mem_append_left _ ht

private theorem foldl_pushPart_isPlain {stack path : Path} (h : IsPlainStack stack)
    (hpath : ∀ s, Part.name s ∈ path → IsName s) : IsPlainStack (path.foldl pushPart stack) := by
  induction path generalizing stack with
  | nil => exact h
  | cons part path ih =>
      refine ih (pushPart_isPlain h fun s hs => hpath s (hs ▸ List.mem_cons_self)) fun s hs => ?_
      exact hpath s (List.mem_cons_of_mem _ hs)

/-- An absolute path without its steps up is plain. -/
theorem normalize_isPlain {path : Path} (habsolute : path.isAbsolute = true)
    (hpath : ∀ s, Part.name s ∈ path → IsName s) : (normalize path).IsPlain := by
  cases path with
  | nil => exact absurd habsolute (by simp [isAbsolute])
  | cons part path =>
      obtain rfl : part = .root := by simpa [isAbsolute] using habsolute
      have hroot : IsPlainStack (pushPart [] .root) := ⟨[], rfl, by simp⟩
      have hrest : ∀ s, Part.name s ∈ path → IsName s :=
        fun s hs => hpath s (List.mem_cons_of_mem _ hs)
      have hall := foldl_pushPart_isPlain hroot hrest
      exact hall

/-- **What is confined to a root is plain**, if it is taken from a directory whose path is plain. -/
theorem confine_isPlain {root directory target : Path} {text : String}
    (hdirectory : directory.IsPlain)
    (h : confine root directory (ofString text) = some target) : target.IsPlain := by
  unfold confine at h
  simp only at h
  split at h
  · rw [Option.some.injEq] at h
    subst h
    obtain ⟨names, rfl, hnames⟩ := hdirectory
    unfold resolve
    split
    · rename_i habsolute
      exact normalize_isPlain habsolute fun s hs => isName_of_mem_ofString hs
    · refine normalize_isPlain rfl fun s hs => ?_
      rcases List.mem_append.mp hs with hs | hs
      · simp only [List.mem_cons, reduceCtorEq, List.mem_map, Part.name.injEq, exists_eq_right,
          false_or] at hs
        exact hnames s hs
      · exact isName_of_mem_ofString (List.mem_filter.mp hs).1
  · exact absurd h (by simp)

end Stencil.Path
