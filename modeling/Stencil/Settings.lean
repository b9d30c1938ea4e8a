/-!
# Settings

The names and defaults that the program works with. They are given to every operation that needs them;
nothing reads them from elsewhere.
-/

namespace Stencil

/-- Names and defaults. -/
structure Settings where
  /-- The file of the manifest in a template. -/
  manifestFile : String
  /-- The version of a new manifest. -/
  newManifestVersion : String
  /-- The manifest versions that can be read, the oldest first. -/
  supportedVersions : List String
  /-- Where the user's variables are unless said otherwise. -/
  variablesFile : String
  /-- Where a dry run writes unless said otherwise. -/
  dryRunDirectory : String
  /-- The name of a new template unless said otherwise. -/
  projectName : String
  /-- Paths that are left out of every template. -/
  knownIgnorePaths : List String
  /-- How the names of files begin that help to make others and are not shipped. -/
  internalMark : String
  defaultDescription : String
  defaultLicense : String
  defaultTemplateVersion : String
  deriving DecidableEq, Inhabited

/-- The settings of a program that nobody configured. -/
def Settings.standard : Settings where
  manifestFile := ".cloney.yaml"
  newManifestVersion := "v2"
  supportedVersions := ["v1", "v2"]
  variablesFile := ".cloney-vars.yaml"
  dryRunDirectory := "cloney-dry-run-results"
  projectName := "cloney-template"
  knownIgnorePaths := [".cloney.yaml", ".cloney-vars.yaml", ".git", "node_modules", ".venv"]
  internalMark := "__"
  defaultDescription := "A Cloney template repository"
  defaultLicense := "MIT"
  defaultTemplateVersion := "0.0.0"

end Stencil
