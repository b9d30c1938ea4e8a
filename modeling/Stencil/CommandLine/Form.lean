import Stencil.Entries

/-!
# Forms of command lines

What may stand on a command line is described by a form: parameters with a short or a long spelling, at
most one argument that is known by its place, and commands that have forms of their own.

A command line that does not have its form is refused, for the first reason that is met from left to right.
-/

namespace Stencil.CommandLine

/-- What a parameter takes. -/
inductive Kind where
  /-- Nothing: it is there or it is not. -/
  | switch
  | text
  /-- A text that is not empty. -/
  | path
  /-- Texts, one each time that it is given. -/
  | texts
  /-- Asks for help. -/
  | help
  /-- Asks for the version. -/
  | version
  deriving DecidableEq, Inhabited

/-- A parameter of a command. -/
structure Parameter where
  name : String
  kind : Kind
  short? : Option Char := none
  long? : Option String := none
  deriving DecidableEq, Inhabited

/-- Whether a parameter is followed by a value. -/
def Parameter.takesValue (parameter : Parameter) : Bool :=
  match parameter.kind with
  | .text => true
  | .path => true
  | .texts => true
  | _ => false

/-- A command, or the program itself. -/
structure Form where
  /-- The names of the command, the first one being its proper name. -/
  names : List String
  parameters : List Parameter
  /-- The argument that is known by its place. -/
  argument? : Option Parameter := none
  /-- Whether that argument has to be given. -/
  isArgumentNeeded : Bool := false
  /-- Two parameters that exclude one another. -/
  exclusive? : Option (String × String) := none
  deriving DecidableEq, Inhabited

/-- Why a command line is refused. That it asks for help is a reason, too. -/
inductive Refusal where
  | helpAsked
  | versionAsked
  /-- There is nothing at all. -/
  | nothingGiven
  | commandMissing
  | unknownCommand
  | unknownParameter
  | argumentMissing
  /-- Something is given twice, or with something that it excludes. -/
  | conflict
  /-- A value is missing or is not of the right kind. -/
  | badValue
  /-- A switch is given a value. -/
  | unexpectedValue
  deriving DecidableEq, Inhabited

end Stencil.CommandLine
