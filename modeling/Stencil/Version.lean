import Stencil.Text.Digit
import Stencil.Text.Split

/-!
# Versions

A version is three numbers with points between them, then a hyphen and pre-release identifiers, then a
plus and build identifiers; the last two parts may be left out. Numbers have no needless zeros. Build
identifiers are rows of letters, digits and hyphens; a pre-release identifier is such a row or a
number.

Behind its first digit a number may go on with the digits of any script.
-/

namespace Stencil.Version

/-- A letter, a digit or a hyphen of ASCII. -/
def isIdentifierChar (c : Char) : Bool :=
  ('0' ≤ c && c ≤ '9') || ('A' ≤ c && c ≤ 'Z') || ('a' ≤ c && c ≤ 'z') || c = '-'

/-- A letter or a hyphen of ASCII. -/
def isLetter (c : Char) : Bool :=
  ('A' ≤ c && c ≤ 'Z') || ('a' ≤ c && c ≤ 'z') || c = '-'

/-- A number without needless zeros. -/
def isNumber : List Char → Bool
  | ['0'] => true
  | c :: rest => ('1' ≤ c && c ≤ '9') && rest.all Text.isAnyDigit
  | [] => false

/-- A number, or a row with a letter or a hyphen behind its leading digits. -/
def isPreRelease (part : List Char) : Bool :=
  isNumber part || (match part.dropWhile Text.isAnyDigit with
    | c :: rest => isLetter c && rest.all isIdentifierChar
    | [] => false)

/-- A row of letters, digits and hyphens. -/
def isBuild (part : List Char) : Bool := !part.isEmpty && part.all isIdentifierChar

/-- Whether a text is a version. -/
def isValid (s : String) : Bool :=
  let (rest, build) := Text.cutAt '+' s.toList
  let (core, preRelease) := Text.cutAt '-' rest
  let numbers := Text.splitOn '.' core
  numbers.length = 3 && numbers.all isNumber
    && (match preRelease with
      | some parts => (Text.splitOn '.' parts).all isPreRelease
      | none => true)
    && (match build with
      | some parts => (Text.splitOn '.' parts).all isBuild
      | none => true)

end Stencil.Version
