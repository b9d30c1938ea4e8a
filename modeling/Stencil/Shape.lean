import Stencil.Value

/-!
# Shapes: the types of variables

Nobody declares the type of a variable. It is the shape of a value: the example in a variable's
declaration has a shape, and defaults and the user's input are held against it.

A list has the shape of its first element, a map one shape per key. Only the first element is
looked at, so a list of mixed elements passes as long as its first one fits. A shape is shown by
indented lines; a map with an entry that has no type of its own has none either.

`Shape.of?` gives the shape and `Value.fits` compares two values without it. They say the same
wherever no entry is untyped.
-/

namespace Stencil

/-- The type of a value. -/
inductive Shape where
  | text
  | integer
  | decimal
  | boolean
  /-- A list, with the shape of its first element if it has one. -/
  | list (element : Option Shape)
  /-- A map, with a shape for each key, sorted by key. -/
  | map (entries : List (String × Shape))
  | unknown
  deriving Inhabited

namespace Shape

/-- The word for a shape, what it holds left out. -/
def tag : Shape → String
  | .text => "string"
  | .integer => "integer"
  | .decimal => "decimal"
  | .boolean => "boolean"
  | .list _ => "list"
  | .map _ => "map"
  | .unknown => "unknown"

/-- Whether a shape is the one that says nothing. -/
def isUnknown : Shape → Bool
  | .unknown => true
  | _ => false

mutual

/-- The shape of a value; `null` has none. -/
def of? : Value → Option Shape
  | .null => none
  | .bool _ => some .boolean
  | .integer _ => some .integer
  | .decimal _ => some .decimal
  | .text _ => some .text
  | .list [] => some (.list none)
  | .list (first :: _) => some (.list (some ((of? first).getD .unknown)))
  | .map entries =>
    match entriesOf? entries with
    | some shapes => some (.map shapes)
    | none => some .unknown

/-- The shapes of the entries of a map, unless one of them is unknown. -/
def entriesOf? : List (String × Value) → Option (List (String × Shape))
  | [] => some []
  | (key, value) :: rest =>
    let shape := (of? value).getD .unknown
    if shape.isUnknown then none
    else (entriesOf? rest).map fun shapes => (key, shape) :: shapes

end

/-- Two blanks a level. -/
def indent (level : Nat) : String := String.ofList (List.replicate (2 * level) ' ')

mutual

/-- The text of a shape whose first line is already indented to a level. -/
def renderAt (level : Nat) : Shape → String
  | .list (some element) =>
    "list [\n" ++ indent (level + 1) ++ renderAt (level + 1) element ++ "\n" ++ indent level ++ "]"
  | .map (entry :: entries) =>
    "map \x7b\n" ++ renderEntries (level + 1) (entry :: entries) ++ indent level ++ "\x7d"
  | other => other.tag

/-- One line per entry, and more where an entry's own shape takes more. -/
def renderEntries (level : Nat) : List (String × Shape) → String
  | [] => ""
  | (key, shape) :: rest =>
    indent level ++ key ++ ": " ++ renderAt level shape ++ "\n" ++ renderEntries level rest

end

/-- The text of a shape. -/
def render (shape : Shape) : String := renderAt 0 shape

end Shape

namespace Value

/-- The text of a value's shape, empty for `null`. -/
def shapeText (value : Value) : String := ((Shape.of? value).map Shape.render).getD ""

mutual

/-- Whether a value has the type that an expected value fixes. Where a decimal is expected an integer
will do, but not the other way around. -/
def fits : Value → Value → Bool
  | .null, .null => true
  | .bool _, .bool _ => true
  | .text _, .text _ => true
  | .integer _, .integer _ => true
  | .decimal _, .decimal _ => true
  | .decimal _, .integer _ => true
  | .list [], .list [] => true
  | .list (a :: _), .list (b :: _) => fits a b
  | .map expected, .map entries =>
    expected.length == entries.length && entriesFit expected entries
  | _, _ => false

/-- Whether every expected key has a value that fits. -/
def entriesFit : List (String × Value) → Entries Value → Bool
  | [], _ => true
  | (key, expected) :: rest, entries =>
    (match Entries.get? key entries with
      | some value => fits expected value
      | none => false) && entriesFit rest entries

end

end Value

end Stencil
