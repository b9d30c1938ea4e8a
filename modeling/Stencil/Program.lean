import Stencil.Clone
import Stencil.CommandLine.Command
import Stencil.Manifest.Summary
import Stencil.Starter.Making
import Stencil.Starter.Questions

/-!
# The program

What the program does for a command line: it prints, and in the end it says what went wrong, if anything did.
-/

namespace Stencil

open CommandLine (Command Invocation Refusal)

/-- What the program calls itself. -/
def programName : String := "cloney"

/-- Which one it is. -/
def programVersion : String := "0.3.0"

/-- How the program ends. -/
inductive Outcome where
  /-- The command line was refused, or asked for help. -/
  | refused (refusal : Refusal)
  | failed (failure : Failure)
  | done
  deriving DecidableEq, Inhabited

/-- The number that tells whoever started the program how it ended. -/
def Outcome.exitCode : Outcome → Nat
  | refused .helpAsked => 0
  | refused .versionAsked => 0
  | refused .nothingGiven => 1
  | refused .commandMissing => 1
  | refused .argumentMissing => 1
  | refused _ => 2
  | failed _ => 1
  | done => 0

/-- What is complained about in the end. -/
def Outcome.complaint : Outcome → String
  | failed failure => failure.message ++ "\n"
  | _ => ""

/-- Prints a line. -/
def printLine (text : String) : Work Unit := Work.print (text ++ "\n")

/-- Who can be asked questions: nobody, or someone who answers. -/
abbrev Asker := Question → Work String

/-- Nobody. -/
def Asker.nobody : Asker := fun _ => Work.fail .unanswered

/-- What the user has to know before the first question. -/
def greeting : String :=
  "Please answer the following questions to create the template repository.\n" ++
  "Press enter to use the default values.\n"

/-- Does what a command asks for. -/
def perform (settings : Settings) (shell : Shell.Runner) (ask : Asker) : Command → Work Unit
  | .clone url output? branch? tag? variablesFrom token? => do
    let repository := Repository.make url branch? tag? token?
    let clone : Clone := { repository, output?, variablesFrom }
    printLine ("Cloning template repository '" ++ url ++ "'...")
    clone.run settings shell
    printLine ("\nDone! Template cloned to '" ++ clone.destination ++ "'.")
  | .dryRun path output inTerminal _ variablesFrom => do
    let dryRun : DryRun := { source := path, output, inTerminal, variablesFrom }
    dryRun.run settings
    if !inTerminal then printLine ("\nDone! Filled template written to '" ++ output ++ "'.")
  | .validate path => do
    let _ ← readManifest settings path
    printLine "The template manifest is valid!"
  | .info source branch? tag? => do
    let manifest ← templateInfo settings (Repository.make source branch? tag? none)
    printLine manifest.generalSummary
    if !manifest.declarations.isEmpty then printLine manifest.variablesSummary
  | .start output? name? description? license? authors nonInteractive => do
    let starter : Starter :=
      { output?, name := name?.getD "", description := description?.getD ""
        license := license?.getD "", authors }
    let starter ←
      if nonInteractive then pure starter
      else do
        printLine greeting
        starter.completed ask settings
    let destination ← starter.make settings
    printLine ("\nDone! Template repository created in '" ++ destination ++ "'.")

/-- Does what a command line asks for. -/
def runProgram (settings : Settings) (shell : Shell.Runner) (ask : Asker) (args : List String)
    (world : World) : Outcome × World :=
  match CommandLine.parse settings args with
  | .error .versionAsked =>
    (.refused .versionAsked,
      { world with printed := world.printed ++ programName ++ " " ++ programVersion ++ "\n" })
  | .error refusal => (.refused refusal, world)
  | .ok invocation =>
    match (perform settings shell ask invocation.command).on world with
    | (.ok (), world) => (.done, world)
    | (.error failure, world) => (.failed failure, world)

end Stencil
