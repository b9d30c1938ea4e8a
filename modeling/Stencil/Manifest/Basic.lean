import Stencil.Settings
import Stencil.Shape

/-!
# Manifests

A template repository describes itself in a manifest: its name and version, who wrote it, which paths
are left out of the result, which commands finish a clone, and which variables its files use. This
file has the manifest as it is after checking, and the ways in which a manifest can break the rules.
-/

namespace Stencil

/-- A variable that a template uses. -/
structure Declaration where
  name : String
  description : String
  /-- The value that stands in where the user gives none. -/
  default? : Option Value
  /-- The value whose shape is the variable's type. -/
  sample : Value
  /-- Whether the user's value is held against the type. -/
  validate : Bool
  deriving Inhabited

/-- Whether the user has to give a value. -/
def Declaration.isRequired (d : Declaration) : Bool := d.default?.isNone

/-- What a manifest says about the making of a copy. -/
structure Configuration where
  /-- Patterns of paths that are left out, relative to the template. -/
  ignorePaths : List String
  /-- Commands that run in a clone once it is filled, each as a list of words. -/
  postCloneCommands : List (List String)
  deriving Inhabited, DecidableEq

/-- The description of a template, checked. -/
structure Manifest where
  name : String
  description : String
  templateVersion : String
  manifestVersion : String
  authors : List String
  license : String
  configuration : Configuration
  declarations : List Declaration
  deriving Inhabited

/-- The patterns of the paths that are left out when a template is filled: those of the occasion first, then
the paths that every template leaves out, then the manifest's own. -/
def Manifest.ignorePatterns (manifest : Manifest) (settings : Settings) (extra : List String) :
    List String :=
  extra ++ settings.knownIgnorePaths ++ manifest.configuration.ignorePaths

/-- A rule of manifests that is broken. -/
inductive Violation where
  | unknownRootFields (fields : List String)
  | unknownConfigurationFields (fields : List String)
  | unknownVariableFields (owner : String) (fields : List String)
  | missingRootField (field : String)
  | missingVariableField (owner field : String)
  | duplicateVariable (owner : String)
  | malformedVersion (field value : String)
  | unsupportedManifestVersion (version : String) (supported : List String)
  | unsupportedFeature (version field minimum : String)
  | defaultMismatch (owner defaultType sampleType : String)
  deriving DecidableEq, Inhabited

/-- Names in single quotes, with commas. -/
def quotedNames (names : List String) : String :=
  ", ".intercalate (names.map fun name => "'" ++ name ++ "'")

/-- The message of a broken rule. -/
def Violation.message : Violation → String
  | .unknownRootFields fields => "Unknown field(s) at root level: " ++ quotedNames fields
  | .unknownConfigurationFields fields =>
    "Unknown field(s) in the configuration block: " ++ quotedNames fields
  | .unknownVariableFields owner fields =>
    "Unknown field(s) for variable '" ++ owner ++ "': " ++ quotedNames fields
  | .missingRootField field => "Missing required field '" ++ field ++ "' at root level"
  | .missingVariableField owner field =>
    "Missing required field '" ++ field ++ "' for variable '" ++ owner ++ "'"
  | .duplicateVariable owner => "Variable '" ++ owner ++ "' is declared more than once"
  | .malformedVersion field value =>
    "Invalid semantic version '" ++ value ++ "' for field " ++ field
  | .unsupportedManifestVersion version supported =>
    "Manifest version '" ++ version ++ "' is not supported in this Cloney version, "
      ++ "supported versions: " ++ ", ".intercalate supported
  | .unsupportedFeature version field minimum =>
    "Manifest version '" ++ version ++ "' does not support the '" ++ field
      ++ "' field, please update the manifest version to '" ++ minimum ++ "'"
  | .defaultMismatch owner defaultType sampleType =>
    "Variable '" ++ owner ++ "' has a default value of type '" ++ defaultType
      ++ "' but its example value is of type '" ++ sampleType ++ "'"

/-- The messages of broken rules, one a line. -/
def Violation.summary (violations : List Violation) : String :=
  "\n".intercalate (violations.map fun violation => "- " ++ violation.message)

end Stencil
