import Stencil.Fill
import Stencil.Files.Prune
import Stencil.Sources

/-!
# Dry runs

A dry run fills a template without changing it: the files are written to a directory that is made anew, or
they are printed. Files that only help to make others are taken away from that directory in the end. What a
failed dry run has written is taken away, too.

The output and the file of the variables may lie in the template. They are not part of it.
-/

namespace Stencil

open Files

/-- What a dry run is about. -/
structure DryRun where
  /-- The directory of the template. -/
  source : String
  /-- The directory that the files are written to. -/
  output : String
  /-- Whether the files are printed instead. -/
  inTerminal : Bool := false
  /-- The variables, or the file in which they are. -/
  variablesFrom : String
  deriving DecidableEq, Inhabited

/-- A path as a pattern relative to a directory, if it lies inside. -/
def patternBelow? (current : Place) (directory path : String) : Option String := do
  let place : Path := .root :: current.map Part.name
  let base ← Path.absolute? place directory
  let inside ← Path.relativeTo? base (← Path.absolute? place path)
  pure (Path.toSlash inside.render)

/-- Takes a directory away that may be missing. -/
def clearDirectory (path : String) : Work Unit :=
  Work.attempt fun disk =>
    match disk.removeDirectory path with
    | (disk, .error .notFound) => (disk, .ok ())
    | other => other

/-- Why a directory was not pruned. -/
def Failure.ofPrune : PruneFault → Failure
  | .walking path fault => .walk path fault
  | .removing fault => .files fault

/-- Takes away what is ignored below a directory, and what is not to be shipped. -/
def pruneDirectory (directory : String) (patterns : List String) (mark : String) : Work Unit := do
  let set ← Work.ofExcept .pattern (IgnoreSet.ofPatterns directory patterns)
  let (disk, result) := prune set mark (← Work.disk)
  Work.setDisk disk
  Work.ofExcept .ofPrune result

namespace DryRun

/-- The paths that belong to the dry run and not to the template. -/
def ownPaths (dryRun : DryRun) (current : Place) : List String :=
  (if dryRun.inTerminal then [] else (patternBelow? current dryRun.source dryRun.output).toList) ++
  ((variablesFile? dryRun.variablesFrom).bind (patternBelow? current dryRun.source)).toList

/-- Fills the template. -/
def run (settings : Settings) (dryRun : DryRun) : Work Unit := do
  let given ← loadVariables dryRun.variablesFrom
  let manifest ← readManifest settings dryRun.source
  let vars ← Work.ofExcept .binding (given.bind manifest)
  let patterns := manifest.ignorePatterns settings (dryRun.ownPaths (← Work.disk).directory)
  if dryRun.inTerminal then fillDirectory dryRun.source patterns vars .terminal
  else
    clearDirectory dryRun.output
    Work.onFailure
      (do
        fillDirectory dryRun.source patterns vars (.mirror dryRun.output)
        pruneDirectory dryRun.output patterns settings.internalMark)
      (clearDirectory dryRun.output)

/-- What is to be watched for changes after which the template has to be filled again: all of it but the
output and what is left out; the manifest and the variables are watched. -/
def watchSet (settings : Settings) (dryRun : DryRun) : Work IgnoreSet := do
  let disk ← Work.disk
  let known := settings.knownIgnorePaths.filter fun path =>
    path ≠ settings.manifestFile && path ≠ settings.variablesFile
  let own := ← tryCatch (do pure (← readManifest settings dryRun.source).configuration.ignorePaths)
    fun _ => pure []
  let base ← Work.ask fun disk => disk.canonical dryRun.source
  let output := (patternBelow? disk.directory dryRun.source dryRun.output).toList
  Work.ofExcept .pattern (IgnoreSet.ofPatterns base.render (output ++ known ++ own))

end DryRun

end Stencil
