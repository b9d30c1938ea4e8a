import Stencil.Checkout
import Stencil.DryRun
import Stencil.Hooks

/-!
# Clones

A clone is a template that was fetched and filled in place. Its manifest and the files that only help to make
others are not in it. If it cannot be filled it is taken away again. At last the commands of the template are
run in it; should one of them fail the clone stays as it is.
-/

namespace Stencil

open Files

/-- What a clone is about. -/
structure Clone where
  repository : Repository
  /-- The directory to make, if it is not to have the name of the repository. -/
  output? : Option String := none
  /-- The variables, or the file in which they are. -/
  variablesFrom : String
  deriving DecidableEq, Inhabited

namespace Clone

/-- The directory to make. -/
def destination (clone : Clone) : String := clone.output?.getD clone.repository.name

/-- The patterns of a clone's own: the name of the file of the variables. -/
def ownPatterns (clone : Clone) : List String :=
  ((variablesFile? clone.variablesFrom).bind fun file => (Path.ofString file).fileName?).toList

/-- Fills what was fetched. -/
def fill (settings : Settings) (clone : Clone) (given : Variables) : Work Manifest := do
  let destination := clone.destination
  let text ← readManifestText settings destination
  Work.change fun disk => disk.removeFile (Path.join destination settings.manifestFile)
  let manifest ← parseManifest settings text
  let vars ← Work.ofExcept .binding (given.bind manifest)
  fillDirectory destination (manifest.ignorePatterns settings clone.ownPatterns) vars .inPlace
  pruneDirectory destination [] settings.internalMark
  pure manifest

/-- Fetches a template, fills it and runs its commands. -/
def run (settings : Settings) (shell : Shell.Runner) (clone : Clone) : Work Unit := do
  let given ← loadVariables clone.variablesFrom
  if (← Work.disk).has clone.destination then Work.fail (.alreadyThere clone.destination)
  clone.repository.cloneInto clone.destination
  let manifest ← Work.onFailure (clone.fill settings given) (clearDirectory clone.destination)
  runHooks shell clone.destination manifest.configuration.postCloneCommands

end Clone

/-- The manifest of a local template, or of a template in a repository. -/
def templateInfo (settings : Settings) (repository : Repository) : Work Manifest :=
  match Source.ofString repository.url with
  | .directory path => readManifest settings path
  | .remote url => do
    let text ← tryCatch (repository.fileText settings.manifestFile) fun failure =>
      match failure with
      | .files .notFound => Work.fail (.manifestMissing settings.manifestFile url)
      | failure => Work.fail failure
    parseManifest settings text

end Stencil
