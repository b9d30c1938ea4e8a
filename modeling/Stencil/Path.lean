import Stencil.Text.Split

/-!
# Paths as they are written

A path is a list of parts: the root in front of an absolute path, a dot in front of one that starts
with it, steps up, and names. Empty parts and dots further on say nothing and are left out.

Paths are compared by parts. Resolution is lexical: a step up takes away the name before it and never
leads above the root, or above the empty path (`normalize`). Where links are is not known here.

Some operations work on the text, because the text is what shows: `join` puts one path behind
another, and `below?` cuts a base off the front of a path.
-/

namespace Stencil

/-- A part of a path. -/
inductive Part where
  | root
  /-- The dot that a path starts with. -/
  | current
  /-- A step up. -/
  | parent
  | name (s : String)
  deriving DecidableEq, Inhabited

/-- A path as the list of its parts. -/
abbrev Path := List Part

namespace Path

/-- What stands in front of the names of a path: the root, a dot or nothing; and the text behind. -/
def head (chars : List Char) : List Part × List Char :=
  match chars with
  | '/' :: rest => ([.root], rest)
  | ['.'] => ([.current], [])
  | '.' :: '/' :: rest => ([.current], '/' :: rest)
  | _ => ([], chars)

/-- The part that a piece of text between slashes stands for. -/
def part? (piece : List Char) : Option Part :=
  if piece = [] || piece = ['.'] then none
  else if piece = ['.', '.'] then some .parent
  else some (.name (String.ofList piece))

/-- The parts of a path. -/
def ofString (text : String) : Path :=
  let (front, rest) := head text.toList
  front ++ (Text.splitOn '/' rest).filterMap part?

/-- The text of a part. -/
def partText : Part → String
  | .root => "/"
  | .current => "."
  | .parent => ".."
  | .name s => s

/-- The text of a path. -/
def render (path : Path) : String :=
  match path with
  | .root :: rest => "/" ++ "/".intercalate (rest.map partText)
  | parts => "/".intercalate (parts.map partText)

/-- Whether a path starts at the root. -/
def isAbsolute (path : Path) : Bool := path.head? == some .root

/-- A path behind another one, unless it is absolute. -/
def resolve (directory relative : Path) : Path :=
  if relative.isAbsolute then relative
  else directory ++ relative.filter (· ≠ .current)

/-- Takes a part onto the stack of parts so far, the last one first. -/
def pushPart (stack : Path) : Part → Path
  | .root => [.root]
  | .current => stack
  | .parent =>
    match stack with
    | [] => []
    | .root :: rest => .root :: rest
    | _ :: rest => rest
  | .name s => .name s :: stack

/-- A path without dots and steps up. -/
def normalize (path : Path) : Path := (path.foldl pushPart []).reverse

/-- Whether a path starts with the parts of another. -/
def startsWith (path base : Path) : Bool := base.isPrefixOf path

/-- Resolves a path against a directory; nothing if it leaves the root directory that is given. -/
def confine (root directory : Path) (relative : Path) : Option Path :=
  let target := normalize (resolve directory relative)
  if startsWith target (normalize root) then some target else none

/-- The names of a path, if it consists of names behind the root. -/
def names? : Path → Option (List String)
  | .root :: rest => rest.mapM fun
    | .name s => some s
    | _ => none
  | _ => none

/-- The last part, if it is a name. -/
def fileName? (path : Path) : Option String :=
  match path.getLast? with
  | some (.name s) => some s
  | _ => none

/-- What stands behind the last point of a file's name, the point at its start not counted. -/
def extension? (path : Path) : Option String := do
  let chars := (← path.fileName?).toList
  let after := Text.afterLast '.' chars
  if after.length + 1 < chars.length then some (String.ofList after) else none

/-- The directories around a path, the innermost first; the empty path is around a single name. -/
def outer (path : Path) : List Path :=
  ((List.range path.length).reverse.map path.take).filter fun p => !(path.isAbsolute && p.isEmpty)

/-- The directory right around a path, if there is one. -/
def parent? (path : Path) : Option Path := path.outer.head?

/-- A path from the root, with the directory given from which a relative one starts. -/
def absolute? (directory : Path) (text : String) : Option Path :=
  if text.isEmpty then none else some (resolve directory (ofString text))

/-- What is left of a path behind a base, if it lies there and is not the base itself. -/
def relativeTo? (base path : Path) : Option Path :=
  if startsWith path base && path ≠ base then some (path.drop base.length) else none

/-! ## Paths as text -/

/-- The text of a path behind a directory. -/
def join (directory relative : String) : String :=
  if relative.startsWith "/" || directory.isEmpty then relative
  else if directory.endsWith "/" then directory ++ relative
  else directory ++ "/" ++ relative

/-- A path's text with forward slashes only. -/
def toSlash (text : String) : String :=
  String.ofList (text.toList.map fun c => if c = '\\' then '/' else c)

/-- Whether a piece between slashes says nothing. -/
def isSilent (piece : List Char) : Bool := piece = [] || piece = ['.']

/-- Drops the pieces at the end that say nothing. -/
def trimEnd (pieces : List (List Char)) : List (List Char) :=
  (pieces.reverse.dropWhile isSilent).reverse

/-- Cuts parts off the front of the pieces of a path. -/
def cutParts? : Path → List (List Char) → Option (List (List Char))
  | [], pieces => some pieces
  | part :: parts, pieces =>
    match pieces.dropWhile isSilent with
    | piece :: rest => if part? piece = some part then cutParts? parts rest else none
    | [] => none

/-- What is left of a path's text behind a base, if the path lies there. -/
def below? (base path : String) : Option String :=
  let (front, rest) := head path.toList
  match ofString base with
  | [] =>
    let text := Text.joinWith '/' (trimEnd (Text.splitOn '/' rest))
    some ("".intercalate (front.map partText) ++ String.ofList text)
  | part :: parts =>
    -- The root and a leading dot stand in front of the pieces, everything else is one of them.
    let inside? : Option (List (List Char)) :=
      if part = .root || part = .current then
        if front = [part] then cutParts? parts (Text.splitOn '/' rest) else none
      else if front = [] then cutParts? (part :: parts) (Text.splitOn '/' rest)
      else none
    inside?.map fun pieces =>
      String.ofList (Text.joinWith '/' (trimEnd (pieces.dropWhile isSilent)))

end Path

end Stencil
