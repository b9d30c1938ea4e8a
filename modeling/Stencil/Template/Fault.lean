/-!
# Faults of templates

Why a template cannot be read or rendered. A fault has a kind and, once it has left the text of a
template, the name of that template; the innermost template that is known counts, so a name is given
only where none is given yet.
-/

namespace Stencil.Template

/-- What went wrong. -/
inductive Cause where
  /-- The text is not a template. -/
  | malformed (why : String)
  /-- A backslash in a quoted text with nothing sensible behind it. -/
  | malformedEscape
  /-- Something was asked of a value that is not there. -/
  | undefinedValue
  /-- An operation does not go with its operands. -/
  | invalid (why : String)
  | templateNotFound (name : String)
  | unknownFilter (name : String)
  | unknownCheck (name : String)
  | unknownFunction (name : String)
  | unknownMethod (name : String)
  | unknownBlock (name : String)
  | missingArgument
  | tooManyArguments
  /-- A row of values has not as many items as there are names for them. -/
  | cannotUnpack
  /-- A template that is put in place of a statement fails. -/
  | includedTemplate (name : String)
  /-- A block of a parent template fails. -/
  | parentBlock
  /-- A value has no JSON text. -/
  | notSerializable
  /-- A file was asked for where none can be written. -/
  | filesUnsupported
  /-- A file that was asked for cannot be written. -/
  | fileNotWritten (path : String)
  deriving DecidableEq, Inhabited

/-- What went wrong, and in which template. -/
structure Fault where
  cause : Cause
  template? : Option String := none
  deriving DecidableEq, Inhabited

/-- A few words about a cause. -/
def Cause.message : Cause → String
  | .malformed why => "syntax error: " ++ why
  | .malformedEscape => "bad string escape"
  | .undefinedValue => "undefined value"
  | .invalid why => "invalid operation: " ++ why
  | .templateNotFound name => "template not found: template \"" ++ name ++ "\" does not exist"
  | .unknownFilter name => "unknown filter: filter " ++ name ++ " is unknown"
  | .unknownCheck name => "unknown test: test " ++ name ++ " is unknown"
  | .unknownFunction name => "unknown function: " ++ name ++ " is unknown"
  | .unknownMethod name => "unknown method: object has no method named " ++ name
  | .unknownBlock name => "unknown block: block '" ++ name ++ "' not found"
  | .missingArgument => "missing argument"
  | .tooManyArguments => "too many arguments"
  | .cannotUnpack => "cannot unpack: sequence of wrong length"
  | .includedTemplate name => "could not render include: error in \"" ++ name ++ "\""
  | .parentBlock => "could not render block: error in super block"
  | .notSerializable => "could not serialize to value: cannot serialize to JSON"
  | .filesUnsupported =>
    "invalid operation: toFile is not supported when the output is not written to disk"
  | .fileNotWritten path => "invalid operation: could not write '" ++ path ++ "'"

/-- The message of a fault, as it is shown to the user. -/
def Fault.message (f : Fault) : String :=
  let place := match f.template? with
    | some name => " (in " ++ name ++ ")"
    | none => ""
  "Template error: " ++ f.cause.message ++ place ++ "."

/-- Names the template in which a fault arose, unless one is named already. -/
def Fault.within (name : String) (f : Fault) : Fault :=
  { f with template? := f.template?.or (some name) }

@[simp] theorem Fault.within_within (outer inner : String) (f : Fault) :
    (f.within inner).within outer = f.within inner := by
  cases f with
  | mk cause template? => cases template? <;> rfl

end Stencil.Template
