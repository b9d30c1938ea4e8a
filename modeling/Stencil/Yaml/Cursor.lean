import Stencil.Yaml.Character

/-!
# A place in a stream

What is left of the stream, and how far the place is from its start, from the start of its line and
from the first line. Moving over characters and over line ends are separate steps, because only the
latter change the line. A carriage return with a line feed behind it is one line end.
-/

namespace Stencil.Yaml

/-- A place in a stream. -/
structure Cursor where
  rest : List Char
  /-- Characters before the place. -/
  index : Nat
  /-- Lines before the place. -/
  line : Nat
  /-- Characters before the place on its line. -/
  column : Nat

namespace Cursor

/-- The next character. -/
def peek? (cursor : Cursor) : Option Char := cursor.rest.head?

/-- The character some way ahead. -/
def peekAt? (cursor : Cursor) (n : Nat) : Option Char := cursor.rest[n]?

/-- Whether the next character is the given one. -/
def isAt (cursor : Cursor) (c : Char) : Bool := cursor.peek? == some c

/-- Moves over characters of one line. -/
def skip (cursor : Cursor) (n : Nat) : Cursor :=
  { cursor with
    rest := cursor.rest.drop n, index := cursor.index + n, column := cursor.column + n }

/-- The characters up to the first that fails a test, and the place of that one. -/
def span (cursor : Cursor) (p : Char → Bool) : List Char × Cursor :=
  let taken := cursor.rest.takeWhile p
  (taken, cursor.skip taken.length)

/-- Moves over the characters up to the first that fails a test. -/
def skipWhile (cursor : Cursor) (p : Char → Bool) : Cursor := (cursor.span p).2

/-- Moves over a line end, if there is one, and says what it reads as: a line feed, except for the
line and the paragraph separator, which stay themselves. -/
def lineEnd? (cursor : Cursor) : Option (Char × Cursor) :=
  let next (n : Nat) : Cursor :=
    { rest := cursor.rest.drop n, index := cursor.index + n, line := cursor.line + 1, column := 0 }
  match cursor.rest with
  | '\r' :: '\n' :: _ => some ('\n', next 2)
  | c :: _ =>
    if c = '\u2028' || c = '\u2029' then some (c, next 1)
    else if isBreak c then some ('\n', next 1)
    else none
  | [] => none

/-- Moves over a line end, if there is one. -/
def skipLineEnd (cursor : Cursor) : Cursor :=
  match cursor.lineEnd? with
  | some (_, next) => next
  | none => cursor

/-- Whether a line starts here with three given characters that stand alone. -/
def isMarker (cursor : Cursor) (c : Char) : Bool :=
  cursor.column = 0 && cursor.rest.take 3 == [c, c, c] && isBlankOrEnd (cursor.peekAt? 3)

/-- Whether a line starts here with the mark of a document's start or end. -/
def isDocumentMarker (cursor : Cursor) : Bool := cursor.isMarker '-' || cursor.isMarker '.'

end Cursor

end Stencil.Yaml
