import Stencil.Json.Writer
import Stencil.Manifest.Draft
import Stencil.Text.Blank
import Stencil.Version

/-!
# Checking a draft

A draft that breaks no rule is a manifest. All broken rules are reported, not only the first: those of
the root in the order of its fields, then those of each variable in turn. A manifest version is judged
before the features that it allows, and a default only where there is an example to hold it against.
-/

namespace Stencil

/-- Why a text is not a manifest. -/
inductive Manifest.Fault where
  /-- The text has not the form of a manifest. -/
  | malformed
  /-- The text breaks rules of manifests. -/
  | violations (all : List Violation)
  deriving DecidableEq, Inhabited

/-- The message of a fault. -/
def Manifest.Fault.message : Manifest.Fault → String
  | .malformed => "Invalid manifest: the text has not the form of a manifest."
  | .violations all => "The template manifest is invalid:\n" ++ Violation.summary all

/-- The first manifest version whose manifests may list commands. -/
def commandsMinimum : String := "v2"

/-- The text of a version, which may be written as a text or as a number. -/
def versionText? : Value → Option String
  | .text s => if Text.isAllBlank s then none else some s
  | .integer n => some (Json.integerText n)
  | .decimal x => some (Json.decimalLayout.render x)
  | _ => none

/-- The number of a manifest version, which a `v` may precede; numbers have 32 bits. -/
def versionNumber? (version : String) : Option Nat :=
  let digits := match version.toList with
    | 'v' :: rest => rest
    | chars => chars
  let digits := match digits with
    | '+' :: rest => rest
    | digits => digits
  if digits ≠ [] && digits.all Decimal.isDigit then
    let n := Decimal.ofDigits digits
    if n < 0x100000000 then some n else none
  else none

/-- Whether a manifest version is older than another; one without a number is not. -/
def predates (version minimum : String) : Bool :=
  match versionNumber? version, versionNumber? minimum with
  | some n, some least => n < least
  | _, _ => false

namespace Manifest.Draft

/-- What is wrong with the name. -/
def nameViolations (draft : Manifest.Draft) : List Violation :=
  if Text.isAllBlank (draft.name?.getD "") then [.missingRootField "name"] else []

/-- What is wrong with the version of the template. -/
def templateVersionViolations (draft : Manifest.Draft) : List Violation :=
  match versionText? draft.templateVersion with
  | none => [.missingRootField "template_version"]
  | some version =>
    if Version.isValid version then [] else [.malformedVersion "template_version" version]

/-- What is wrong with the version of the manifest, or with what it does not allow yet. -/
def manifestVersionViolations (supported : List String) (draft : Manifest.Draft) :
    List Violation :=
  match versionText? draft.manifestVersion with
  | none => [.missingRootField "manifest_version"]
  | some version =>
    if !supported.contains version then [.unsupportedManifestVersion version supported]
    else if !draft.configuration.configuration.postCloneCommands.isEmpty
        && predates version commandsMinimum then
      [.unsupportedFeature version "configuration.post_clone_commands" commandsMinimum]
    else []

/-- Unknown fields, if there are any, as one violation. -/
def unknownViolations (report : List String → Violation) (unknown : List String) :
    List Violation :=
  if unknown.isEmpty then [] else [report unknown]

end Manifest.Draft

namespace Declaration.Draft

/-- The name, empty if none is given. -/
def name (draft : Declaration.Draft) : String := draft.name?.getD ""

/-- What is wrong with a declaration behind those of the given names. -/
def violations (before : List String) (draft : Declaration.Draft) : List Violation :=
  (if draft.name.isEmpty then [.missingVariableField draft.name "name"]
    else if before.contains draft.name then [.duplicateVariable draft.name]
    else [])
  ++ (if draft.sample?.isNone then [.missingVariableField draft.name "example"] else [])
  ++ (match draft.sample?, draft.default? with
    | some sample, some value =>
      if sample.fits value then []
      else [.defaultMismatch draft.name value.shapeText sample.shapeText]
    | _, _ => [])
  ++ Manifest.Draft.unknownViolations (.unknownVariableFields draft.name) draft.unknown

/-- The declaration, if it has an example. -/
def declaration? (draft : Declaration.Draft) : Option Declaration :=
  draft.sample?.map fun sample =>
    { name := draft.name, description := draft.description?.getD "", default? := draft.default?,
      sample, validate := draft.validate?.getD true }

/-- What is wrong with the declarations of a manifest. -/
def allViolations : List String → List Declaration.Draft → List Violation
  | _, [] => []
  | before, draft :: rest =>
    draft.violations before ++ allViolations (draft.name :: before) rest

end Declaration.Draft

namespace Manifest.Draft

/-- All that is wrong with a draft. -/
def violations (supported : List String) (draft : Manifest.Draft) : List Violation :=
  unknownViolations .unknownRootFields draft.unknown
  ++ draft.nameViolations
  ++ draft.templateVersionViolations
  ++ draft.manifestVersionViolations supported
  ++ unknownViolations .unknownConfigurationFields draft.configuration.unknown
  ++ Declaration.Draft.allViolations [] draft.declarations

/-- The manifest that a draft amounts to. -/
def manifest (draft : Manifest.Draft) : Manifest :=
  { name := draft.name?.getD ""
    description := draft.description?.getD ""
    templateVersion := (versionText? draft.templateVersion).getD ""
    manifestVersion := (versionText? draft.manifestVersion).getD ""
    authors := draft.authors
    license := draft.license?.getD ""
    configuration := draft.configuration.configuration
    declarations := draft.declarations.filterMap Declaration.Draft.declaration? }

/-- The manifest of a draft that breaks no rule. -/
def check (supported : List String) (draft : Manifest.Draft) : Except Manifest.Fault Manifest :=
  let violations := draft.violations supported
  if violations.isEmpty then .ok draft.manifest else .error (.violations violations)

end Manifest.Draft

/-- Reads and checks a manifest, given the manifest versions that are supported. -/
def Manifest.parse (text : String) (supported : List String) : Except Manifest.Fault Manifest :=
  match Manifest.Draft.ofString? text with
  | some draft => draft.check supported
  | none => .error .malformed

end Stencil
