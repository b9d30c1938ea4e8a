/-!
# Splitting and joining at a character

A row of characters is the same as its parts between the places where one character stands. There is
always at least one part, and joining the parts gives the row back.
-/

namespace Stencil.Text

/-- The parts between the places where a character stands. -/
def splitOn (mark : Char) : List Char → List (List Char)
  | [] => [[]]
  | c :: rest =>
    if c = mark then [] :: splitOn mark rest
    else match splitOn mark rest with
      | part :: parts => (c :: part) :: parts
      | [] => [[c]]

/-- Parts with a character between them. -/
def joinWith (mark : Char) : List (List Char) → List Char
  | [] => []
  | [part] => part
  | part :: parts => part ++ mark :: joinWith mark parts

/-- The row before the first place where a character stands and, if there is one, the row behind. -/
def cutAt (mark : Char) (chars : List Char) : List Char × Option (List Char) :=
  (chars.takeWhile (· ≠ mark), match chars.dropWhile (· ≠ mark) with
    | _ :: rest => some rest
    | [] => none)

/-- The row behind the last place where a character stands, the whole row if there is none. -/
def afterLast (mark : Char) (chars : List Char) : List Char :=
  (chars.reverse.takeWhile (· ≠ mark)).reverse

theorem splitOn_ne_nil (mark : Char) (chars : List Char) : splitOn mark chars ≠ [] := by
  cases chars with
  | nil => simp [splitOn]
  | cons c rest =>
      unfold splitOn
      split
      · simp
      · split <;> simp

theorem joinWith_splitOn (mark : Char) (chars : List Char) :
    joinWith mark (splitOn mark chars) = chars := by
  induction chars with
  | nil => rfl
  | cons c rest ih =>
      unfold splitOn
      split
      · -- A part ends here, and another one follows.
        rename_i h
        subst h
        cases hs : splitOn c rest with
        | nil => exact absurd hs (splitOn_ne_nil c rest)
        | cons part parts =>
            rw [hs] at ih
            simp [joinWith, ih]
      · -- The first part goes on.
        cases hs : splitOn mark rest with
        | nil => exact absurd hs (splitOn_ne_nil mark rest)
        | cons part parts =>
            rw [hs] at ih
            cases parts with
            | nil => simpa [joinWith] using ih
            | cons next more => simpa [joinWith] using ih

end Stencil.Text
