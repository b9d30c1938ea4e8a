import Stencil.Files.Disk

/-!
# Sessions of a shell

What a shell has before it and behind it at any time: the disk, its directory and its variables, how the last
command ended, and what was put out.
-/

namespace Stencil.Shell

open Files

/-- How a command ends. -/
inductive Status where
  | exited (code : Nat)
  | killed (signal : Nat)
  deriving DecidableEq, Inhabited

/-- Whether a command did what it should. -/
def Status.isSuccess : Status → Bool
  | exited code => code = 0
  | killed _ => false

/-- The number of a status, as a command line can ask for it. -/
def Status.code : Status → Nat
  | exited code => code
  | killed signal => 128 + signal

/-- A shell under way. -/
structure Session where
  disk : Disk
  directory : Place
  status : Status := .exited 0
  /-- What was written to the output and not elsewhere. -/
  out : ByteArray := ByteArray.empty
  /-- What was complained about. -/
  errors : String := ""
  /-- Whether nothing more is run. -/
  isOver : Bool := false
  vars : List (String × String) := []
  /-- The variables that a shell started from this one knows, too. -/
  exported : List String := []
  /-- The shell's own name and its arguments. -/
  args : List String := ["/bin/sh"]
  /-- Whether the first command that does not go as it should is the last. -/
  isStrict : Bool := false
  deriving Inhabited

/-- What a command does with its input. -/
abbrev Action := ByteArray → Session → Session

namespace Session

/-- The disk as it looks from the shell's directory. -/
def here (session : Session) : Disk := { session.disk with directory := session.directory }

/-- Ends a command. -/
def exit (session : Session) (code : Nat) : Session := { session with status := .exited code }

/-- Puts out bytes. -/
def put (session : Session) (bytes : ByteArray) : Session := { session with out := session.out ++ bytes }

/-- Puts out a text. -/
def say (session : Session) (text : String) : Session := session.put text.toUTF8

/-- Complains, and ends a command. -/
def complain (session : Session) (code : Nat) (text : String) : Session :=
  { session.exit code with errors := session.errors ++ text ++ "\n" }

/-- Takes over a disk. -/
def withDisk (session : Session) (disk : Disk) : Session :=
  { session with disk := { disk with directory := session.disk.directory } }

/-- Takes over what became of the disk, or complains. -/
def take (session : Session) (name : String) (result : Except Fault Disk) : Session :=
  match result with
  | .ok disk => session.withDisk disk
  | .error fault => session.complain 1 (name ++ ": " ++ fault.message)

/-- Does something for each of the arguments of a command. -/
def each (session : Session) (args : List String) (act : Session → String → Session) : Session :=
  args.foldl act (session.exit 0)

/-- Does something for each of the arguments of a command that needs some. -/
def eachOf (session : Session) (name : String) (args : List String) (act : Session → String → Session) :
    Session :=
  if args.isEmpty then session.complain 1 (name ++ ": missing operand") else session.each args act

/-- Gives a variable a value. -/
def assign (session : Session) (name value : String) : Session :=
  { session with vars := (name, value) :: session.vars.filter (·.1 ≠ name) }

/-- Takes a variable away. -/
def unset (session : Session) (name : String) : Session :=
  { session with vars := session.vars.filter (·.1 ≠ name) }

/-- The value of a variable that has one. -/
def var? (session : Session) (name : String) : Option String :=
  (session.vars.find? (·.1 = name)).map Prod.snd

/-- A session for a shell that is started from this one. -/
def child (session : Session) (args : List String) : Session :=
  { session with
    args, isStrict := false, vars := session.vars.filter fun entry => session.exported.contains entry.1 }

/-- Goes on after a shell that was started from this one: what it did to the disk and what it put out stays,
and so does its status. -/
def resume (session after : Session) : Session :=
  { session with
    disk := after.disk, out := after.out, errors := after.errors, status := after.status
    isOver := match after.status with
      | .killed _ => after.isOver
      | .exited _ => false }

/-- Goes on after a process that was started from this shell. One that was killed has ended with a number. -/
def await (session after : Session) : Session :=
  { session.resume after with status := .exited after.status.code, isOver := false }

end Session

/-- Letters behind dashes, and the other arguments. -/
def options (args : List String) : List Char × List String :=
  let isOption (arg : String) : Bool := arg.startsWith "-" && arg.length > 1
  let before := args.takeWhile (· ≠ "--")
  let after := (args.dropWhile (· ≠ "--")).drop 1
  ((before.filter isOption).flatMap fun arg => arg.toList.drop 1,
    before.filter (fun arg => !isOption arg) ++ after)

end Stencil.Shell
