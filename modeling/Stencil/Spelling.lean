import Stencil.Text.Alphanumeric
import Stencil.Text.Cased

/-!
# Spellings of a name

A name of several words can be written in ways that programs prefer: with a mark between its words, or
with a capital at the start of each. Where a word ends is read off the name itself: at a character that
is neither letter nor number, and where the case changes. Case is changed in ASCII only.

Two families of spellings differ in how they see a change of case, so each has a rule of its own:
`Marked` looks at the neighbours of a capital, `Capitalised` at the last small letter that it wrote.
-/

namespace Stencil.Spelling

/-- The name without the characters at its end that belong to no word. -/
def body (chars : List Char) : List Char :=
  (chars.reverse.dropWhile fun c => !Text.isAlphanumeric c).reverse

/-! ## A mark between the words -/

/-- A spelling with a mark between the words and one case for all letters. -/
structure Marked where
  mark : Char
  capitals : Bool
  deriving DecidableEq, Inhabited

/-- The case of all letters. -/
def Marked.letter (style : Marked) (c : Char) : Char :=
  if style.capitals then c.toUpper else c.toLower

/-- Whether a capital that is not the first of its word starts a new one: a neighbour is in lower case.
Neighbours are looked up in the whole name by the place that the capital has in UTF-8. -/
def startsWord (name : Array Char) (place : Nat) : Bool :=
  Text.isLowercase (name.getD (place + 1) 'A') || Text.isLowercase (name.getD (place - 1) 'A')

/-- Spells what is left of a name from a place on; `fresh` says that no word has begun. -/
def Marked.spellFrom (style : Marked) (name : Array Char) (place : Nat) (fresh : Bool) :
    List Char → List Char
  | [] => []
  | c :: rest =>
    let next := place + c.utf8Size
    if !Text.isAlphanumeric c then
      if fresh then style.spellFrom name next true rest
      else style.mark :: style.spellFrom name next true rest
    else if !fresh && c.toUpper = c && startsWord name place then
      style.mark :: style.letter c :: style.spellFrom name next false rest
    else style.letter c :: style.spellFrom name next false rest

/-- Spells a name. -/
def Marked.spell (style : Marked) (name : String) : String :=
  String.ofList (style.spellFrom name.toList.toArray 0 true (body name.toList))

/-! ## A capital at the start of the words -/

/-- A spelling with a capital at the start of the words, all words but perhaps the first. -/
structure Capitalised where
  /-- What stands between the words. -/
  mark? : Option Char
  /-- Whether the first word has a capital. -/
  first : Bool
  /-- Whether a word ends behind a number. -/
  numbersEnd : Bool
  deriving DecidableEq, Inhabited

/-- Where a name has been read to. -/
structure Capitalised.Place where
  /-- Whether the next letter starts a word. -/
  fresh : Bool
  /-- The last character that was written small. -/
  last : Char := ' '
  /-- Whether a capital has been written. -/
  opened : Bool := false
  /-- Whether a letter or number has been written. -/
  found : Bool := false

/-- Spells what is left of a name. -/
def Capitalised.spellFrom (style : Capitalised) (spot : Capitalised.Place) : List Char → List Char
  | [] => []
  | c :: rest =>
    if !Text.isAlphanumeric c then
      style.spellFrom (if spot.found then { spot with fresh := true } else spot) rest
    else if Text.isNumber c && style.numbersEnd then
      c :: style.spellFrom { spot with found := true, fresh := true } rest
    else if spot.fresh || (Text.isLowercase spot.last && Text.isUppercase c) then
      let front := match style.mark? with
        | some mark => if spot.opened then [mark] else []
        | none => []
      front ++ c.toUpper :: style.spellFrom { spot with found := true, fresh := false, opened := true }
        rest
    else c.toLower :: style.spellFrom { spot with found := true, last := c } rest

/-- Spells a name. -/
def Capitalised.spell (style : Capitalised) (name : String) : String :=
  String.ofList (style.spellFrom { fresh := style.first } (body name.toList))

/-! ## The spellings -/

/-- As in `camelCase`. -/
def camel (name : String) : String :=
  Capitalised.spell { mark? := none, first := false, numbersEnd := true } name

/-- As in `PascalCase`. -/
def pascal (name : String) : String :=
  Capitalised.spell { mark? := none, first := true, numbersEnd := true } name

/-- As in `Train-Case`. -/
def train (name : String) : String :=
  Capitalised.spell { mark? := some '-', first := true, numbersEnd := true } name

/-- As in `Title Case`. -/
def title (name : String) : String :=
  Capitalised.spell { mark? := some ' ', first := true, numbersEnd := false } name

/-- As in `snake_case`. -/
def snake (name : String) : String := Marked.spell { mark := '_', capitals := false } name

/-- As in `SCREAMING_SNAKE_CASE`. -/
def screamingSnake (name : String) : String := Marked.spell { mark := '_', capitals := true } name

/-- As in `kebab-case`. -/
def kebab (name : String) : String := Marked.spell { mark := '-', capitals := false } name

end Stencil.Spelling
