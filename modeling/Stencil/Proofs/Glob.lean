import Mathlib.Data.List.Basic
import Stencil.Glob.Match

/-!
# Patterns without holes

A pattern in which no character makes a hole means just its own text: it is read character by character
(`Glob.parse_literals`), and a path is matched by taking these characters off its front, with nothing left in the end
(`Glob.isMatch_literals`). Whether the path has a name of its own plays no part, for only patterns with holes ask for
one.

Paths are matched byte by byte and patterns are read in characters, so texts are compared by their bytes
(`Glob.toUTF8_cons`).
-/

namespace Stencil.Glob

/-- The characters that make a hole, or close one. -/
def holes : List Char := ['?', '*', '[', '{', '}']

/-- Whether a text has no holes. -/
def IsLiteral (text : String) : Prop := ∀ c ∈ text.toList, c ∉ holes

instance (text : String) : Decidable (IsLiteral text) := List.decidableBAll (· ∉ holes) text.toList

/-! ## Reading -/

theorem pieces_literal {c : Char} (hc : c ∉ holes) (fuel : Nat) (before : Option Char) (branch : List Piece)
    (rest : List Char) :
    pieces (fuel + 1) before [[branch]] (c :: rest) = pieces fuel (some c) [[.literal c :: branch]] rest := by
  rw [pieces.eq_def]
  dsimp only
  split
  all_goals first | exact absurd hc (by decide) | rfl

theorem pieces_literals {chars : List Char} (h : ∀ c ∈ chars, c ∉ holes) {fuel : Nat} (hfuel : chars.length < fuel)
    (before : Option Char) (branch : List Piece) :
    pieces fuel before [[branch]] chars = .ok [[(chars.map Piece.literal).reverse ++ branch]] := by
  induction chars generalizing fuel before branch with
  | nil => cases fuel <;> rfl
  | cons c rest ih =>
      obtain ⟨fuel, rfl⟩ := Nat.exists_eq_add_of_lt (Nat.zero_lt_of_lt hfuel)
      rw [Nat.zero_add, pieces_literal (h c List.mem_cons_self),
        ih (fun d hd => h d (List.mem_cons_of_mem c hd)) (by simpa using hfuel)]
      simp

/-- **A text without holes is read character by character.** -/
theorem parse_literals {text : String} (h : IsLiteral text) : parse text = .ok (text.toList.map Piece.literal) := by
  unfold parse
  simp [pieces_literals h (Nat.lt_succ_self _)]

/-! ## Bytes -/

theorem loop_toList (bytes : ByteArray) (i : Nat) (before : List UInt8) :
    ByteArray.toList.loop bytes i before = before.reverse ++ bytes.data.toList.drop i := by
  fun_induction ByteArray.toList.loop bytes i before with
  | case1 i before hlt ih =>
      have hi : i < bytes.data.toList.length := hlt
      have hget : bytes.get! i = bytes.data.toList[i] := by
        show bytes.data[i]! = _
        rw [getElem!_pos bytes.data i hlt, Array.getElem_toList]
      rw [ih, List.drop_eq_getElem_cons hi, hget, List.reverse_cons, List.append_assoc, List.singleton_append]
  | case2 i before hge => rw [List.drop_eq_nil_of_le (Nat.not_lt.mp hge), List.append_nil]

theorem toList_eq (bytes : ByteArray) : bytes.toList = bytes.data.toList := by
  rw [ByteArray.toList, loop_toList]
  rfl

theorem toUTF8_cons (c : Char) (chars : List Char) :
    (String.ofList (c :: chars)).toUTF8.toList = charBytes c ++ (String.ofList chars).toUTF8.toList := by
  rw [String.ofList_cons, charBytes, String.toUTF8, String.toByteArray_append]
  simp only [toList_eq, ByteArray.toList_data_append, String.toUTF8]

theorem toUTF8_inj {text other : String} (h : text.toUTF8.toList = other.toUTF8.toList) : text = other := by
  rw [toList_eq, toList_eq, Array.toList_inj] at h
  exact String.toByteArray_inj.mp (ByteArray.ext h)

/-! ## Matching -/

theorem literals?_literals (chars : List Char) : literals? (chars.map Piece.literal) = some chars := by
  unfold literals?
  induction chars with
  | nil => rfl
  | cons c rest ih =>
      rw [List.map_cons, List.mapM_cons, ih]
      rfl

theorem needsName_literals (chars : List Char) : needsName (chars.map Piece.literal) = false := by
  unfold needsName
  rw [literals?_literals]
  cases chars <;> rfl

theorem dropFront_eq_some {front bytes rest : List UInt8} :
    dropFront front bytes = some rest ↔ bytes = front ++ rest := by
  induction front generalizing bytes with
  | nil => simp [dropFront]
  | cons b more ih =>
      cases bytes with
      | nil => simp [dropFront]
      | cons b' bytes =>
          rw [dropFront]
          split
          · rename_i heq
            simp [ih, heq]
          · rename_i hne
            simp [Ne.symm hne]

/-- Behind a row of characters is what they are in front of. -/
theorem mem_rowRests_literals {chars : List Char} {starts : Rests} {rest : List UInt8} :
    rest ∈ rowRests (chars.map Piece.literal) starts ↔ (String.ofList chars).toUTF8.toList ++ rest ∈ starts := by
  induction chars generalizing starts with
  | nil =>
      have hempty : (String.ofList []).toUTF8.toList = [] := by
        rw [toList_eq]
        rfl
      rw [List.map_nil, rowRests, hempty, List.nil_append]
  | cons c more ih =>
      rw [List.map_cons, rowRests, ih, Piece.rests, List.mem_filterMap, toUTF8_cons]
      simp [dropFront_eq_some]

/-- **A row of characters matches what it says**, and nothing else. -/
theorem isMatch_literals {text path : String} : isMatch (text.toList.map Piece.literal) path = true ↔ path = text := by
  have hwhole : isMatch (text.toList.map Piece.literal) path =
      (rowRests (text.toList.map Piece.literal) [path.toUTF8.toList]).contains [] := by
    unfold isMatch
    simp only [needsName_literals, Bool.false_and, Bool.not_false, Bool.and_true]
    cases text.toList <;> rfl
  rw [hwhole, List.contains_iff_mem, mem_rowRests_literals, List.append_nil, List.mem_singleton, String.ofList_toList]
  exact ⟨fun h => (toUTF8_inj h).symm, fun h => h ▸ rfl⟩

end Stencil.Glob
