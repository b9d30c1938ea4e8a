import Stencil.Manifest.Basic
import Stencil.Yaml.Reading

/-!
# Variables: what the user gives and what a template declares

The user's variables come from a YAML mapping. Binding holds them against the declarations of a
manifest, one after the other: an absent variable takes its default, and every variable whose
declaration asks for it must have the type of its example. Variables that are not declared are
carried along. The user's variables stay in front, in their order, and defaults follow in the order
of the declarations.
-/

namespace Stencil

/-- Variables with their values. -/
abbrev Variables := Entries Value

/-- Why variables cannot be used. -/
inductive Variables.Fault where
  /-- The text is not a YAML document. -/
  | malformed
  /-- The document is not a mapping, but a value of the given type. -/
  | notAMapping (shape : String)
  /-- The file has a name of another kind. -/
  | unsupportedFile (path : String)
  deriving DecidableEq, Inhabited

/-- The message of a fault. -/
def Variables.Fault.message : Variables.Fault → String
  | .malformed => "Variables error: failed to parse variables YAML"
  | .notAMapping shape =>
    "Variables error: variables must be a mapping of names to values, found '" ++ shape ++ "'."
  | .unsupportedFile path =>
    "Variables error: unsupported variables file '" ++ path
      ++ "', expected a '.yaml' or '.yml' file."

/-- Reads variables from the text of a YAML document; an empty document has none. -/
def Variables.parse (text : String) : Except Variables.Fault Variables :=
  match Yaml.read? text with
  | none => .error .malformed
  | some .null => .ok []
  | some (.map entries) => .ok entries
  | some other => .error (.notAMapping other.shapeText)

/-- Variables as data for templates. -/
def Variables.context (vars : Variables) : Value := Value.ofEntries vars

/-- Why variables do not fit the declarations of a manifest. -/
inductive Binding.Fault where
  | missing (name : String)
  | wrongType (name actual required : String)
  deriving DecidableEq, Inhabited

/-- The message of a fault. -/
def Binding.Fault.message : Binding.Fault → String
  | .missing name => "Required variable '" ++ name ++ "' is not defined."
  | .wrongType name actual required =>
    "Variable '" ++ name ++ "' is of type '" ++ actual ++ "' but must be of type '" ++ required
      ++ "'."

namespace Variables

/-- Adds the default of a declared variable that is absent. -/
def complete (d : Declaration) (vars : Variables) : Except Binding.Fault Variables :=
  if Entries.contains d.name vars then .ok vars
  else match d.default? with
    | none => .error (.missing d.name)
    | some value => .ok (Entries.put d.name value vars)

/-- Holds the value of a declared variable against its example. -/
def check (d : Declaration) (vars : Variables) : Except Binding.Fault Unit :=
  if d.validate then
    match Entries.get? d.name vars with
    | some value =>
      if d.sample.fits value then .ok ()
      else .error (.wrongType d.name value.shapeText d.sample.shapeText)
    | none => .ok ()
  else .ok ()

/-- Binds variables to declarations. -/
def bindAll : List Declaration → Variables → Except Binding.Fault Variables
  | [], vars => .ok vars
  | d :: rest, vars =>
    match complete d vars with
    | .error fault => .error fault
    | .ok vars =>
      match check d vars with
      | .error fault => .error fault
      | .ok () => bindAll rest vars

/-- Binds variables to the declarations of a manifest. -/
def bind (manifest : Manifest) (vars : Variables) : Except Binding.Fault Variables :=
  bindAll manifest.declarations vars

end Variables

end Stencil
