import Stencil.Manifest.Check
import Stencil.Settings
import Stencil.Work

/-!
# Where manifests and variables come from

A template has its manifest in a file of its own. The user's variables are either given in place, as a YAML
mapping, or they are in a file; where there is no such file there are no variables.
-/

namespace Stencil

/-- The text of the manifest of a template. -/
def readManifestText (settings : Settings) (directory : String) : Work String := do
  match (← Work.disk).readText (Path.join directory settings.manifestFile) with
  | .ok text => pure text
  | .error .notFound => Work.fail (.manifestMissing settings.manifestFile directory)
  | .error fault => Work.fail (.files fault)

/-- The manifest in a text. -/
def parseManifest (settings : Settings) (text : String) : Work Manifest :=
  Work.ofExcept .manifest (Manifest.parse text settings.supportedVersions)

/-- The manifest of a template. -/
def readManifest (settings : Settings) (directory : String) : Work Manifest := do
  parseManifest settings (← readManifestText settings directory)

/-- The variables in a mapping that is given in place, if it is one. -/
def inlineVariables? (source : String) : Option Variables :=
  match Yaml.read? source with
  | some (.map entries) => some entries
  | _ => none

/-- The file that variables come from, unless they are given in place. -/
def variablesFile? (source : String) : Option String :=
  if Text.isAllBlank source || (inlineVariables? source).isSome then none else some source

/-- The variables in a file. -/
def readVariablesFile (path : String) : Work Variables := do
  match (Path.ofString path).extension? with
  | some "yaml" => pure ()
  | some "yml" => pure ()
  | _ => Work.fail (.userVariables (.unsupportedFile path))
  let text ← Work.ask fun disk => disk.readText path
  Work.ofExcept .userVariables (Variables.parse text)

/-- The variables that are given in place or in a file. -/
def loadVariables (source : String) : Work Variables := do
  match inlineVariables? source with
  | some vars => pure vars
  | none =>
    if Text.isAllBlank source || !(← Work.disk).hasFile source then pure []
    else readVariablesFile source

end Stencil
