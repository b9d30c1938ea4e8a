import Stencil.Shell.Control
import Stencil.Shell.Line

/-!
# Expansion

The values of a word are put in its place. Where they are not quoted they are split at blanks, so that a word
can become any number of fields; a field with a star or a question mark that is not quoted stands for the
paths that it fits, if there are any.
-/

namespace Stencil.Shell

open Files

/-- A character of a field, and whether it is quoted. -/
abbrev Mark := Char × Bool

/-- What a name behind a dollar sign stands for. -/
def valueOf (session : Session) (name : String) : String :=
  let args := session.args.drop 1
  match name with
  | "$" => selfName
  | "?" => toString session.status.code
  | "#" => toString args.length
  | "@" => " ".intercalate args
  | "*" => " ".intercalate args
  | "PWD" => Place.render session.directory
  | name =>
    let plain := String.ofList (name.toList.takeWhile fun c => isNameChar c)
    let value? := match plain.toNat? with
      | some n => session.args[n]?
      | none => session.var? plain
    match name.toList.drop plain.length with
    | ':' :: '-' :: other => if value?.getD "" = "" then String.ofList other else value?.getD ""
    | '-' :: other => value?.getD (String.ofList other)
    | _ => value?.getD ""

/-- Fields under way: the one that is being put together, if there is one, and those before it. -/
structure Fields where
  current? : Option (List Mark) := none
  before : List (List Mark) := []
  deriving Inhabited

namespace Fields

/-- Adds marks to the field that is being put together. -/
def add (fields : Fields) (marks : List Mark) : Fields :=
  { fields with current? := some (fields.current?.getD [] ++ marks) }

/-- Ends the field that is being put together. -/
def cut (fields : Fields) : Fields :=
  { current? := none, before := fields.before ++ fields.current?.toList }

/-- Adds a text, or the fields that it is split into. -/
def addText (fields : Fields) (text : String) (quoted splits : Bool) : Fields :=
  if splits then
    text.toList.foldl (fun fields c =>
      if c = ' ' || c = '\t' || c = '\n' then fields.cut else fields.add [(c, false)]) fields
  else if quoted then fields.add (text.toList.map fun c => (c, true))
  else if text.isEmpty then fields
  else fields.add (text.toList.map fun c => (c, false))

end Fields

/-- The text of marks. -/
def textOf (marks : List Mark) : String := String.ofList (marks.map Prod.fst)

/-- Whether a mark can stand for other characters. -/
def isWild (mark : Mark) : Bool := !mark.2 && (mark.1 = '*' || mark.1 = '?')

/-- Whether a name fits marks. -/
def fits : List Mark → List Char → Bool
  | [], [] => true
  | [], _ :: _ => false
  | mark :: marks, chars =>
    if isWild mark && mark.1 = '*' then
      (List.range (chars.length + 1)).any fun n => fits marks (chars.drop n)
    else match chars with
      | [] => false
      | c :: rest => ((isWild mark && mark.1 = '?') || mark.1 = c) && fits marks rest

/-- The parts of marks between slashes. -/
def segments (marks : List Mark) : List (List Mark) :=
  marks.foldr (fun mark parts =>
    if mark.1 = '/' then [] :: parts
    else match parts with
      | part :: parts => (mark :: part) :: parts
      | [] => [[mark]]) [[]]

/-- The paths that parts fit, behind the path to a directory. -/
def pathsThatFit (disk : Disk) (front : String) : List (List Mark) → List String
  | [] => [front]
  | part :: rest =>
    let behind (name : String) : String := front ++ name ++ (if rest.isEmpty then "" else "/")
    if part.any isWild then
      let directory := if front.isEmpty then "." else front
      let hidden := part.head?.any fun mark => mark.1 = '.'
      let names := match disk.find true directory with
        | .ok (place, _) => namesIn disk place hidden
        | .error _ => []
      (names.filter fun name => fits part name.toList).flatMap fun name =>
        pathsThatFit disk (behind name) rest
    else pathsThatFit disk (behind (textOf part)) rest

/-- The texts that a field stands for. -/
def texts (disk : Disk) (marks : List Mark) : List String :=
  if marks.any isWild then
    match (pathsThatFit disk "" (segments marks)).filter disk.hasEntry with
    | [] => [textOf marks]
    | paths => paths
  else [textOf marks]

/-- What comes before the equals sign if a word gives a variable a value, and what comes after it. -/
def assignment? : Word → Option (String × Word)
  | .text s false :: rest =>
    let name := s.toList.takeWhile (· ≠ '=')
    let isName := name ≠ [] && name.all isNameChar && !(name.head?.any Char.isDigit)
    if isName && name.length < s.length then
      some (String.ofList name, .text (String.ofList (s.toList.drop (name.length + 1))) false :: rest)
    else none
  | _ => none

end Stencil.Shell
