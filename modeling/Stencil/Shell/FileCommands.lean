import Stencil.Files.Walk
import Stencil.Shell.Session

/-!
# Commands on files

The commands of a shell that make, copy, move and remove files, and those that look at them.
-/

namespace Stencil.Shell

open Files

/-- Makes directories. -/
def mkdir (args : List String) : Action := fun _ session =>
  let (letters, paths) := options args
  session.eachOf "mkdir" paths fun session path =>
    if letters.contains 'p' then
      match session.here.makeDirectories path with
      | (disk, .ok ()) => session.withDisk disk
      | (disk, .error fault) => (session.withDisk disk).complain 1 ("mkdir: " ++ fault.message)
    else session.take "mkdir" (session.here.makeDirectory path)

/-- Makes empty files where there are none. -/
def touch (args : List String) : Action := fun _ session =>
  session.eachOf "touch" (options args).2 fun session path =>
    if session.here.has path then session
    else session.take "touch" (session.here.write path ByteArray.empty)

/-- Takes files away, and directories if asked to. -/
def rm (args : List String) : Action := fun _ session =>
  let (letters, paths) := options args
  let recursively := letters.contains 'r' || letters.contains 'R'
  if paths.isEmpty && letters.contains 'f' then session.exit 0
  else session.eachOf "rm" paths fun session path =>
    match session.here.find false path with
    | .error fault =>
      if letters.contains 'f' && (fault = .notFound || fault = .notADirectory) then session
      else session.complain 1 ("rm: " ++ fault.message)
    | .ok (_, entry) =>
      if entry.isDirectory && !recursively then session.complain 1 "rm: Is a directory"
      else if entry.isDirectory then
        match session.here.removeDirectory path with
        | (disk, .ok ()) => session.withDisk disk
        | (_, .error fault) => session.complain 1 ("rm: " ++ fault.message)
      else session.take "rm" (session.here.removeFile path)

/-- Takes empty directories away. -/
def rmdir (args : List String) : Action := fun _ session =>
  session.eachOf "rmdir" (options args).2 fun session path =>
    match session.here.find false path with
    | .error fault => session.complain 1 ("rmdir: " ++ fault.message)
    | .ok (place, entry) =>
      if !entry.isDirectory then session.complain 1 "rmdir: Not a directory"
      else if !(session.disk.tree.inside place).isEmpty then
        session.complain 1 "rmdir: Directory not empty"
      else session.withDisk (session.here.erase place)

/-- Where something goes that is copied or moved to a path: into it, if it is a directory. -/
def destination (disk : Disk) (path target : String) : String :=
  if disk.hasDirectory target then Path.join target ((Path.ofString path).fileName?.getD "") else target

/-- Puts a copy of what is at and inside one place at another. -/
def copyTree (disk : Disk) (source target : Place) (entry : Entry) : Disk :=
  (disk.tree.inside source).foldl (fun disk (names, entry) => disk.put (target ++ names) entry)
    (disk.put target entry)

/-- Copies files, and directories if asked to. -/
def cp (args : List String) : Action := fun _ session =>
  let (letters, paths) := options args
  let recursively := letters.any fun c => c = 'r' || c = 'R' || c = 'a'
  match paths.getLast? with
  | none => session.complain 1 "cp: missing file operand"
  | some target =>
    session.eachOf "cp" paths.dropLast fun session path =>
      let target := destination session.here path target
      match session.here.find true path, session.here.locate true target with
      | .ok (_, .file content executable), _ =>
        match session.here.write target content with
        | .ok disk =>
          -- A file that was there keeps its own permissions.
          session.take "cp" <|
            if session.here.hasFile target then .ok disk else disk.setExecutable target executable
        | .error fault => session.complain 1 ("cp: " ++ fault.message)
      | .ok (place, entry), .ok location =>
        if !recursively then session.complain 1 "cp: -r not specified; omitting directory"
        else if location.place.isWithin place then session.complain 1 "cp: cannot copy into itself"
        else if location.entry?.any fun entry => !entry.isDirectory then
          session.complain 1 "cp: cannot overwrite non-directory"
        else session.withDisk (copyTree session.here place location.place entry)
      | .error fault, _ => session.complain 1 ("cp: " ++ fault.message)
      | _, .error fault => session.complain 1 ("cp: " ++ fault.message)

/-- Moves files and directories. -/
def mv (args : List String) : Action := fun _ session =>
  let paths := (options args).2
  match paths.getLast? with
  | none => session.complain 1 "mv: missing file operand"
  | some target =>
    session.eachOf "mv" paths.dropLast fun session path =>
      let target := destination session.here path target
      match session.here.find false path, session.here.locate false target with
      | .ok (place, entry), .ok location =>
        if location.place = place then session.complain 1 "mv: the same file"
        else if location.place.isWithin place then session.complain 1 "mv: cannot move into itself"
        else
          let inside := session.disk.tree.inside place
          let disk := (session.here.erase location.place).erase place
          session.withDisk (inside.foldl (fun disk (names, entry) => disk.put (location.place ++ names) entry)
            (disk.put location.place entry))
      | .error fault, _ => session.complain 1 ("mv: " ++ fault.message)
      | _, .error fault => session.complain 1 ("mv: " ++ fault.message)

/-- Makes links. One that does not hold a path is a copy. -/
def ln (args : List String) : Action := fun _ session =>
  let (letters, paths) := options args
  match paths with
  | [target, path] =>
    let path := destination session.here target path
    match session.here.locate false path, session.here.find false target with
    | .error fault, _ => session.complain 1 ("ln: " ++ fault.message)
    | .ok location, found =>
      if location.entry?.isSome && !letters.contains 'f' then session.complain 1 "ln: File exists"
      else if letters.contains 's' then
        (session.exit 0).withDisk (session.here.put location.place (.link target))
      else match found with
        | .ok (_, entry) =>
          if entry.isDirectory then session.complain 1 "ln: hard link not allowed for directory"
          else (session.exit 0).withDisk (session.here.put location.place entry)
        | .error fault => session.complain 1 ("ln: " ++ fault.message)
  | _ => session.complain 1 "ln: missing file operand"

/-- Makes files executable or not. -/
def chmod (args : List String) : Action := fun _ session =>
  match args with
  | mode :: paths =>
    let executable := mode.endsWith "+x" || mode.toList.any fun c => c = '1' || c = '5' || c = '7'
    session.each paths fun session path => session.take "chmod" (session.here.setExecutable path executable)
  | [] => session.complain 1 "chmod: missing operand"

/-! ## Looking -/

/-- The names in a directory; those that begin with a full stop only if asked for. -/
def namesIn (disk : Disk) (place : Place) (hidden : Bool) : List String :=
  (disk.visitsInside place).filterMap fun visit =>
    match visit.names with
    | [name] => if hidden || !name.startsWith "." then some name else none
    | _ => none

/-- Puts out the names of files, and those in directories. -/
def ls (args : List String) : Action := fun _ session =>
  let (letters, paths) := options args
  let hidden := letters.contains 'a' || letters.contains 'A'
  let dots := if letters.contains 'a' then [".", ".."] else []
  let paths := if paths.isEmpty then ["."] else paths
  let sayAll (session : Session) (names : List String) : Session :=
    session.say (String.join (names.map (· ++ "\n")))
  let isDirectory (path : String) : Bool := session.here.hasDirectory path && !letters.contains 'd'
  let missing := paths.filter fun path => !session.here.hasEntry path
  let session := missing.foldl (fun session path =>
    session.complain 2 ("ls: cannot access '" ++ path ++ "': No such file or directory")) (session.exit 0)
  let there := paths.filter session.here.hasEntry
  let files := (there.filter fun path => !isDirectory path).mergeSort fun a b => !(b < a)
  let directories := (there.filter isDirectory).mergeSort fun a b => !(b < a)
  let session := sayAll session files
  directories.foldl (fun session path =>
    let names := match session.here.find true path with
      | .ok (place, _) => dots ++ namesIn session.here place hidden
      | .error _ => []
    if paths.length = 1 then sayAll session names
    else
      let gap := if files.isEmpty && directories.head? = some path then "" else "\n"
      sayAll (session.say (gap ++ path ++ ":\n")) names) session

/-- Whether two numbers are as an operator says. -/
def compares? (operator a b : String) : Option Bool := do
  let m ← a.toInt?
  let n ← b.toInt?
  match operator with
  | "-eq" => some (m = n)
  | "-ne" => some (m ≠ n)
  | "-lt" => some (m < n)
  | "-le" => some (m ≤ n)
  | "-gt" => some (m > n)
  | "-ge" => some (m ≥ n)
  | _ => none

/-- Whether a condition holds, if it is one. -/
def holds? (disk : Disk) : List String → Option Bool
  | [] => some false
  | [s] => some (!s.isEmpty)
  | "!" :: rest => (holds? disk rest).map not
  | [operator, s] =>
    match operator with
    | "-f" => some (disk.hasFile s)
    | "-d" => some (disk.hasDirectory s)
    | "-e" => some (disk.has s)
    | "-r" => some (disk.has s)
    | "-w" => some (disk.has s)
    | "-s" => some ((disk.read s).toOption.any fun bytes => bytes.size > 0)
    | "-x" => some ((disk.isExecutable s).toOption.getD false)
    | "-L" => some ((disk.find false s).toOption.any fun found => found.2.isLink)
    | "-h" => some ((disk.find false s).toOption.any fun found => found.2.isLink)
    | "-z" => some s.isEmpty
    | "-n" => some (!s.isEmpty)
    | _ => none
  | [a, "=", b] => some (a = b)
  | [a, "!=", b] => some (a ≠ b)
  | [a, operator, b] => compares? operator a b
  | a :: b :: "-a" :: rest => do some ((← holds? disk [a, b]) && (← holds? disk rest))
  | a :: b :: "-o" :: rest => do some ((← holds? disk [a, b]) || (← holds? disk rest))
  | a :: b :: c :: "-a" :: rest => do some ((← holds? disk [a, b, c]) && (← holds? disk rest))
  | a :: b :: c :: "-o" :: rest => do some ((← holds? disk [a, b, c]) || (← holds? disk rest))
  | _ => none
termination_by args => args.length

/-- Says whether a condition holds. -/
def test (args : List String) : Action := fun _ session =>
  match holds? session.here args with
  | some b => session.exit (if b then 0 else 1)
  | none => session.complain 2 "test: unexpected operator"

end Stencil.Shell
