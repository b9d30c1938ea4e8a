import Stencil.Shell.FileCommands
import Stencil.Shell.Printing

/-!
# Commands on the shell itself

The commands with which a line changes what its own shell has or does, and the table of all commands.
-/

namespace Stencil.Shell

open Files

/-- Goes to another directory. -/
def cd (args : List String) : Action := fun _ session =>
  let path := args.head?.getD "/"
  match session.here.find true path with
  | .ok (place, entry) =>
    if entry.isDirectory then { session.exit 0 with directory := place }
    else session.complain 2 ("cd: can't cd to " ++ path)
  | .error _ => session.complain 2 ("cd: can't cd to " ++ path)

/-- The end of the line, with a number if one is given. -/
def leave (args : List String) : Action := fun _ session =>
  match args with
  | [] => { session with isOver := true }
  | arg :: _ =>
    match arg.toNat? with
    | some n => { session.exit (n % 256) with isOver := true }
    | none => { session.complain 2 ("exit: Illegal number: " ++ arg) with isOver := true }

/-- The signals by their names. -/
def signals : List (String × Nat) :=
  [("HUP", 1), ("INT", 2), ("QUIT", 3), ("ABRT", 6), ("KILL", 9), ("USR1", 10), ("SEGV", 11), ("USR2", 12),
    ("PIPE", 13), ("ALRM", 14), ("TERM", 15)]

/-- The name of a signal. -/
def signalName (signal : Nat) : String :=
  match signals.find? fun entry => entry.2 = signal with
  | some (name, _) => "SIG" ++ name
  | none => "SIG" ++ toString signal

/-- The signal that a text means. -/
def signal? (text : String) : Option Nat :=
  match text.toNat? with
  | some n => some n
  | none =>
    let name := String.ofList <|
      if "SIG".toList.isPrefixOf text.toList then text.toList.drop 3 else text.toList
    (signals.find? fun entry => entry.1 = name).map Prod.snd

/-- What stands for the shell itself. -/
def selfName : String := "4242"

/-- Sends the shell a signal. -/
def kill (args : List String) : Action := fun _ session =>
  let send (signal? : Option Nat) (who : String) : Session :=
    match signal? with
    | none => session.complain 2 "kill: Illegal option"
    | some 0 => session.exit 0
    | some signal =>
      if who = selfName then { session with status := .killed signal, isOver := true }
      else session.complain 1 "kill: No such process"
  match args with
  | ["-s", name, who] => send (signal? name) who
  | [flag, who] => send (signal? (String.ofList (flag.toList.drop 1))) who
  | [who] => if who.toNat?.isSome then send (some 15) who else session.complain 2 "kill: Illegal number"
  | _ => session.complain 2 "kill: usage"

/-! ## Variables -/

/-- A name and a value with an equals sign between them. -/
def cutAssignment? (text : String) : Option (String × String) :=
  let name := String.ofList (text.toList.takeWhile (· ≠ '='))
  if name.length < text.length then some (name, String.ofList (text.toList.drop (name.length + 1))) else none

/-- Makes variables known to the shells that are started from this one. -/
def exportVars (args : List String) : Action := fun _ session =>
  session.each args fun session arg =>
    let (name, session) := match cutAssignment? arg with
      | some (name, value) => (name, session.assign name value)
      | none => (arg, session)
    { session with exported := name :: session.exported }

/-- Sets the switches of the shell. -/
def setSwitches (args : List String) : Action := fun _ session =>
  session.each args fun session arg =>
    if arg = "-e" then { session with isStrict := true }
    else if arg = "+e" then { session with isStrict := false }
    else session

/-- Reads the first line of the input. -/
def readVar (args : List String) : Action := fun input session =>
  let text := ((String.fromUTF8? input).getD "").toList
  let line := String.ofList (text.takeWhile (· ≠ '\n'))
  let session := match args.getLast? with
    | some name => session.assign name line.trimAscii.toString
    | none => session
  session.exit (if text.contains '\n' then 0 else 1)

/-- Takes arguments away from the front. -/
def shiftArgs (args : List String) : Action := fun _ session =>
  let count := (args.head?.bind String.toNat?).getD 1
  { session.exit 0 with args := session.args.take 1 ++ (session.args.drop 1).drop count }

/-! ## The table -/

/-- The command of a certain name. -/
def action? (name : String) (args : List String) : Option Action :=
  match name with
  | "echo" => some (echo args)
  | "printf" => some (printf args)
  | "cat" => some (cat args)
  | "head" => some (head args)
  | "tail" => some (tail args)
  | "wc" => some (wc args)
  | "sort" => some (sort args)
  | "grep" => some (grep args)
  | "tee" => some (tee args)
  | "tr" => some (tr args)
  | "mkdir" => some (mkdir args)
  | "touch" => some (touch args)
  | "rm" => some (rm args)
  | "rmdir" => some (rmdir args)
  | "cp" => some (cp args)
  | "mv" => some (mv args)
  | "ln" => some (ln args)
  | "chmod" => some (chmod args)
  | "ls" => some (ls args)
  | "cd" => some (cd args)
  | "pwd" => some fun _ session => (session.exit 0).say (Place.render session.directory ++ "\n")
  | "exit" => some (leave args)
  | "return" => some (leave args)
  | "kill" => some (kill args)
  | "export" => some (exportVars args)
  | "unset" => some fun _ session => session.each args fun session name => session.unset name
  | "set" => some (setSwitches args)
  | "shift" => some (shiftArgs args)
  | "read" => some (readVar args)
  | "true" => some fun _ session => session.exit 0
  | ":" => some fun _ session => session.exit 0
  | "umask" => some fun _ session => session.exit 0
  | "wait" => some fun _ session => session.exit 0
  | "sleep" => some fun _ session => session.exit 0
  | "false" => some fun _ session => session.exit 1
  | "test" => some (test args)
  | "[" => some fun input session =>
    if args.getLast? = some "]" then test args.dropLast input session
    else session.complain 2 "[: missing ]"
  | _ => none

end Stencil.Shell
