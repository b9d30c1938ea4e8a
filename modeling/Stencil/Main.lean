import Stencil.Program

/-!
# The command line

Reads what the working directory and the command line's own directories hold, lets the program do its work on
that, and writes down what became different. Everything that is decided is decided in the program; here it is
only carried from and to the disk.
-/

namespace Stencil

open Files

/-- The place that a path from the root stands for. -/
def placeOf (path : String) : Place :=
  (Path.ofString path).filterMap fun
    | .name s => some s
    | _ => none

/-- Puts a place and the directories around it into a tree. -/
def withDirectories (place : Place) (tree : Tree) : Tree :=
  ((List.range place.length).map fun n => place.take (n + 1)).foldl
    (fun tree place => if (tree.at? place).isSome then tree else tree.put place .directory) tree

/-- Puts what is at a place into a tree, and what is inside it. -/
partial def gather (place : Place) (tree : Tree) : IO Tree := do
  let path := (← IO.currentDir) / Place.render place
  match (← path.symlinkMetadata).type with
  | .file => pure (tree.put place (.file (← IO.FS.readBinFile path) false))
  | .symlink => do
    let target ← try pure (← IO.FS.realPath path).toString catch _ => pure (Place.render place)
    pure (tree.put place (.link target))
  | .dir => do
    let mut tree := tree.put place .directory
    for entry in ← path.readDir do
      tree ← gather (place ++ [entry.fileName]) tree
    pure tree
  | .other => pure tree

/-- Puts what is at a path into a tree, if there is something. -/
def gatherPath (tree : Tree) (text : String) : IO Tree := do
  let path := (← IO.currentDir) / text
  if text.isEmpty || !(← path.pathExists) then return tree
  let place := placeOf (← IO.FS.realPath path).toString
  -- What is there already was read with a directory around it.
  if place.isEmpty || (tree.at? place).isSome then return tree
  gather place (withDirectories place.dropLast tree)

/-- Writes down what is at a place. -/
def writeEntry (place : Place) (entry : Entry) : IO Unit := do
  let path := Place.render place
  match entry with
  | .directory => IO.FS.createDirAll path
  | .file content executable => do
    IO.FS.writeBinFile path content
    if executable then IO.setAccessRights path { user := ⟨true, true, true⟩ }
  | _ => pure ()

/-- Takes away what was at a place. -/
def removeEntry (place : Place) (entry : Entry) : IO Unit := do
  let path := (← IO.currentDir) / Place.render place
  if ← path.pathExists then
    if entry.isDirectory then IO.FS.removeDirAll path else IO.FS.removeFile path

/-- Writes down what is different in a tree. -/
def writeChanges (before after : Tree) : IO Unit := do
  for (place, entry) in before do
    if (after.find? place).isNone then removeEntry place entry
  for (place, entry) in after do
    if before.find? place ≠ some entry then writeEntry place entry

/-- Asks a question and reads the answer. -/
def askUser (question : Question) : IO String := do
  IO.print (question.text ++ " [" ++ question.otherwise ++ "]: ")
  (← IO.getStdout).flush
  let answer := Text.trim (← (← IO.getStdin).getLine)
  pure (if answer.isEmpty then question.otherwise else answer)

/-- The answers to the questions that a command line leaves open, if there is somebody to answer. -/
def answers (settings : Settings) (args : List String) : IO (Option Starter) := do
  match CommandLine.parse settings args with
  | .ok { command := .start output? name? description? license? authors false, .. } =>
    if ← (← IO.getStdin).isTty then
      IO.println greeting
      let starter : Starter :=
        { output?, name := name?.getD "", description := description?.getD ""
          license := license?.getD "", authors }
      some <$> starter.completed askUser settings
    else pure none
  | _ => pure none

/-- The command line with answers put in. -/
def withAnswers (args : List String) : Option Starter → List String
  | none => args
  | some starter =>
    ["start", "--non-interactive", "--name=" ++ starter.name, "--description=" ++ starter.description,
      "--license=" ++ starter.license] ++ starter.authors.map ("--author=" ++ ·) ++
      starter.output?.toList.map ("--output=" ++ ·)

end Stencil

open Stencil Stencil.Files in
/-- Does what the command line asks for. -/
def main (args : List String) : IO UInt32 := do
  let settings := Settings.standard
  let args := withAnswers args (← answers settings args)
  let directory := placeOf (← IO.currentDir).toString
  let mut tree ← gather directory (withDirectories directory.dropLast [])
  for arg in args do
    tree ← gatherPath tree arg
  let world : World := { disk := { tree, directory } }
  let (outcome, after) := runProgram settings Shell.standard Asker.nobody args world
  writeChanges tree after.disk.tree
  IO.print after.printed
  IO.eprint (after.complaints ++ outcome.complaint)
  pure (UInt32.ofNat outcome.exitCode)
