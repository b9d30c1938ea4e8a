import Stencil.Shell.Run
import Stencil.Work

/-!
# Commands of a template

A template can ask for commands to be run once it was fetched and filled. Each is a line for a shell, whose
words are joined with spaces; blank lines are skipped. The first command that does not end well is the last
one.

The shell is whoever runs a line in a directory; what is said here holds for any.
-/

namespace Stencil

open Files

/-- Runs a line in a directory, as the one with a certain number: how it ends, what it prints and complains
about, and the disk then. The number stands for what is on no disk, such as the time: the same line may come to
something else when it is run again. -/
abbrev Shell.Runner := Nat → String → Place → Disk → Shell.Status × String × String × Disk

/-- The shell that comes with the program. -/
def Shell.standard : Shell.Runner := fun _ line directory disk =>
  let session := Shell.run line directory disk
  (session.status, (String.fromUTF8? session.out).getD "", session.errors, session.disk)

/-- What a status that is no success means. -/
def hookFault? : Shell.Status → Option HookFault
  | .exited 0 => none
  | .exited code => some (.exited code)
  | .killed signal => some (.killed signal (Shell.signalName signal))

/-- Whether a text can be told to a program that is started. -/
def isTellable (text : String) : Bool := !text.toList.contains '\x00'

/-- The directory in which a line is run. -/
def hookPlace (disk : Disk) (directory line : String) : Except HookFault Place :=
  if !isTellable line || !isTellable directory then .error .untellable
  else match disk.find true directory with
    | .error fault => .error (.notStarted fault)
    | .ok (place, entry) => if entry.isDirectory then .ok place else .error (.notStarted .notADirectory)

/-- Runs a line, which has a certain number. -/
def runHook (shell : Shell.Runner) (directory : String) (number : Nat) (line : String) : Work Unit := do
  let place ← Work.ofExcept (.hook line) (hookPlace (← Work.disk) directory line)
  let (status, printed, complaints, disk) := shell number line place (← Work.disk)
  Work.setDisk disk
  Work.print printed
  modify fun world => { world with complaints := world.complaints ++ complaints }
  match hookFault? status with
  | some fault => Work.fail (.hook line fault)
  | none => pure ()

/-- The lines of commands, the blank ones left out. -/
def hookLines (commands : List (List String)) : List String :=
  (commands.map fun command => " ".intercalate command).filter fun line => !Text.isAllBlank line

/-- Runs the commands of a template, up to one that does not end well. -/
def runHooks (shell : Shell.Runner) (directory : String) (commands : List (List String)) : Work Unit :=
  (hookLines commands).zipIdx.forM fun (line, number) => runHook shell directory number line

end Stencil
