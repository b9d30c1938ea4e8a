import Stencil.Json.Writer
import Stencil.Settings
import Stencil.Text.Blank
import Stencil.Yaml.Reading

/-!
# Starters

What a new template starts with: a directory, and in it a manifest with comments and two variables as
examples. Texts that come from the user are written as they are where a manifest reads them back as the same
text, and quoted otherwise, so that no text can turn into a number, a truth value or a part of the manifest.
-/

namespace Stencil

/-- What a new template is about. -/
structure Starter where
  /-- The directory to make, if it is not to have the name of the template. -/
  output? : Option String := none
  name : String := ""
  description : String := ""
  license : String := ""
  authors : List String := []
  deriving DecidableEq, Inhabited

namespace Starter

/-- A text, or another one in place of a blank one. -/
def orElse (text other : String) : String := if Text.isAllBlank text then other else text

/-- A starter with nothing left blank. -/
def withDefaults (settings : Settings) (starter : Starter) : Starter :=
  { starter with
    name := orElse starter.name settings.projectName
    description := orElse starter.description settings.defaultDescription
    license := orElse starter.license settings.defaultLicense
    authors := starter.authors.filter fun author => !Text.isAllBlank author }

/-- The directory to make. -/
def destination (starter : Starter) : String := starter.output?.getD starter.name

/-- Whether a text that is written as it is reads back as the same text. -/
def isPlain (text : String) : Bool :=
  match Yaml.read? text with
  | some (.text read) => read = text
  | _ => false

/-- A text as it is written into a manifest. -/
def scalar (text : String) : String := if isPlain text then text else Json.quote text

/-- The lines about the authors, if there are any. -/
def authorLines (authors : List String) : String :=
  if authors.isEmpty then ""
  else "\n# The authors of this template repository.\nauthors:\n" ++
    String.join (authors.map fun author => "  - " ++ scalar author ++ "\n")

/-- The variables that every starter has. -/
def exampleLines : String :=
  "\n# Example variables. Delete this section and add your own variables.\n" ++
  "variables:\n" ++
  "  - name: app_name\n" ++
  "    description: The name of the application.\n" ++
  "    default: my-app\n" ++
  "    example: my-app # The example fixes the type of the variable.\n\n" ++
  "  - name: enable_https\n" ++
  "    description: Whether to enable HTTPS or not.\n" ++
  "    default: true # Remove the default to make the variable required.\n" ++
  "    example: true\n"

/-- The manifest of a new template. -/
def manifest (settings : Settings) (starter : Starter) : String :=
  "# The name of this template repository.\n" ++
  "name: " ++ scalar starter.name ++ "\n\n" ++
  "# The description of this template repository.\n" ++
  "description: " ++ scalar starter.description ++ "\n\n" ++
  "# The version of this template. Change it as you make changes to your template.\n" ++
  "template_version: \"" ++ settings.defaultTemplateVersion ++ "\"\n\n" ++
  "# The version of this manifest. Do not change it unless you know what you are doing.\n" ++
  "manifest_version: " ++ settings.newManifestVersion ++ "\n\n" ++
  "# The license of this template repository.\n" ++
  "license: " ++ scalar starter.license ++ "\n" ++
  authorLines starter.authors ++
  exampleLines

/-- Nothing but the blank texts is changed. -/
theorem withDefaults_name (settings : Settings) (starter : Starter)
    (h : Text.isAllBlank starter.name = false) :
    (starter.withDefaults settings).name = starter.name := by
  simp [withDefaults, orElse, h]

end Starter

end Stencil
