import Stencil.Files.Fault
import Stencil.Files.Tree
import Stencil.Path

/-!
# Disks

A disk is a directory tree and a working directory, from which relative paths start.

A path is followed step by step. What a link stands for is put in its place, up to forty times in all. The
last name may be missing, for then something can be made there; whether a link at the last name is followed
depends on what is to be done. A step up leads out of the directory that was got to, wherever the links on the
way there led.
-/

namespace Stencil.Files

/-- A directory tree and the directory from which relative paths start. -/
structure Disk where
  tree : Tree
  directory : Place
  deriving DecidableEq, Inhabited

/-- A step of a path. -/
inductive Step where
  | up
  | name (s : String)
  deriving DecidableEq, Inhabited

/-- A path as the file system takes it. -/
structure Route where
  isAbsolute : Bool
  steps : List Step
  /-- Whether it ends so that only a directory can be meant. -/
  endsInDirectory : Bool
  deriving DecidableEq, Inhabited

/-- Where a path leads to. -/
structure Location where
  place : Place
  /-- What is there. -/
  entry? : Option Entry
  /-- Whether only a directory can be meant. -/
  endsInDirectory : Bool := false
  deriving DecidableEq, Inhabited

/-- The step that a piece of a path between slashes stands for. -/
def Step.ofPiece? (piece : List Char) : Option Step :=
  if piece = [] || piece = ['.'] then none
  else if piece = ['.', '.'] then some up
  else some (name (String.ofList piece))

/-- The path that a text stands for. -/
def Route.ofString (text : String) : Route :=
  let chars := text.toList
  let pieces := Text.splitOn '/' chars
  { isAbsolute := chars.head? = some '/'
    steps := pieces.filterMap Step.ofPiece?
    endsInDirectory := pieces.getLast?.any fun piece => piece = [] || piece = ['.'] }

/-- How many links are followed for one path. -/
def maxLinks : Nat := 40

/-- How long a name may be. -/
def maxNameSize : Nat := 255

/-- The text of a place. -/
def Place.render (place : Place) : String := "/" ++ "/".intercalate place

namespace Disk

/-- What is at a place. -/
def at? (disk : Disk) (place : Place) : Option Entry := disk.tree.at? place

/-- Follows steps from a directory. What a link stands for is followed, together with the steps behind it, by
whoever is given for that. -/
def stepThrough (tree : Tree) (followLast : Bool) (enter : Place → List Step → Bool → Except Fault Location)
    (place : Place) (steps : List Step) (endsInDirectory : Bool) : Except Fault Location :=
  match steps with
  | [] => .ok { place, entry? := tree.at? place, endsInDirectory }
  | .up :: rest => stepThrough tree followLast enter place.dropLast rest endsInDirectory
  | .name s :: rest =>
    let next := place ++ [s]
    let isLast := rest.isEmpty
    if s.utf8ByteSize > maxNameSize then .error .nameTooLong
    else match tree.at? next with
      | none => if isLast then .ok { place := next, entry? := none, endsInDirectory } else .error .notFound
      | some (.file content executable) =>
        if isLast && !endsInDirectory then .ok { place := next, entry? := some (.file content executable) }
        else .error .notADirectory
      | some (.link target) =>
        if isLast && !followLast && !endsInDirectory then
          .ok { place := next, entry? := some (.link target) }
        else
          let route := Route.ofString target
          enter (if route.isAbsolute then [] else place) (route.steps ++ rest)
            (endsInDirectory || (isLast && route.endsInDirectory))
      | some _ => stepThrough tree followLast enter next rest endsInDirectory

/-- Follows steps from a directory, and so many links. -/
def follow (tree : Tree) (followLast : Bool) (links : Nat) :
    Place → List Step → Bool → Except Fault Location :=
  match links with
  | 0 => stepThrough tree followLast fun _ _ _ => .error .tooManyLinks
  | links + 1 => stepThrough tree followLast (follow tree followLast links)

/-- Where a path leads to. -/
def locate (disk : Disk) (followLast : Bool) (path : String) : Except Fault Location :=
  let route := Route.ofString path
  if path.isEmpty then .error .notFound
  else if path.toList.contains '\x00' then .error .badPath
  else if route.isAbsolute then
    follow disk.tree followLast maxLinks [] route.steps route.endsInDirectory
  else if (disk.at? disk.directory).any Entry.isDirectory then
    follow disk.tree followLast maxLinks disk.directory route.steps route.endsInDirectory
  else .error .notFound

/-- What a path leads to, and where. -/
def find (disk : Disk) (followLast : Bool) (path : String) : Except Fault (Place × Entry) :=
  match disk.locate followLast path with
  | .error fault => .error fault
  | .ok location =>
    match location.entry? with
    | some entry => .ok (location.place, entry)
    | none => .error .notFound

/-- The place that a path leads to. -/
def canonical (disk : Disk) (path : String) : Except Fault Place := (disk.find true path).map Prod.fst

/-- Whether a path leads to something. -/
def has (disk : Disk) (path : String) : Bool := (disk.find true path).toBool

/-- Whether there is something at the end of a path, be it a link that leads nowhere. -/
def hasEntry (disk : Disk) (path : String) : Bool := (disk.find false path).toBool

/-- Whether a path leads to a directory. -/
def hasDirectory (disk : Disk) (path : String) : Bool :=
  match disk.find true path with
  | .ok (_, entry) => entry.isDirectory
  | .error _ => false

/-- Whether a path leads to a file. -/
def hasFile (disk : Disk) (path : String) : Bool :=
  match disk.find true path with
  | .ok (_, entry) => entry.isFile
  | .error _ => false

/-! ## Reading -/

/-- The bytes of a file. -/
def read (disk : Disk) (path : String) : Except Fault ByteArray :=
  match disk.find true path with
  | .error fault => .error fault
  | .ok (_, .file content _) => .ok content
  | .ok _ => .error .isADirectory

/-- The text of a file. -/
def readText (disk : Disk) (path : String) : Except Fault String :=
  match disk.read path with
  | .error fault => .error fault
  | .ok content =>
    match String.fromUTF8? content with
    | some text => .ok text
    | none => .error .notText

/-! ## Changing -/

/-- Puts something at a place. -/
def put (disk : Disk) (place : Place) (entry : Entry) : Disk :=
  { disk with tree := disk.tree.put place entry }

/-- Takes away what is at a place and inside it. -/
def erase (disk : Disk) (place : Place) : Disk := { disk with tree := disk.tree.erase place }

/-- Takes away what is inside a place. -/
def eraseInside (disk : Disk) (place : Place) : Disk :=
  { disk with tree := disk.tree.eraseInside place }

/-- Writes a file; one that is there keeps its permissions. -/
def write (disk : Disk) (path : String) (content : ByteArray) : Except Fault Disk :=
  match disk.locate true path with
  | .error fault => .error fault
  | .ok location =>
    match location.entry? with
    | some (.file _ executable) => .ok (disk.put location.place (.file content executable))
    | some _ => .error .isADirectory
    | none =>
      if location.endsInDirectory then .error .isADirectory
      else .ok (disk.put location.place (.file content false))

/-- The last name of a path, be it that of a directory itself or of the one around it. -/
def lastPiece? (path : String) : Option (List Char) :=
  ((Text.splitOn '/' path.toList).filter (· ≠ [])).getLast?

/-- A path without the slashes at its end. -/
def withoutEndSlashes (path : String) : String :=
  match path.toList.reverse.dropWhile (· = '/') with
  | [] => path
  | chars => String.ofList chars.reverse

/-- Makes a directory in one that is there. What has to be there already cannot be made, and a link at the
end of the path is not followed. -/
def makeDirectory (disk : Disk) (path : String) : Except Fault Disk :=
  match disk.locate false (withoutEndSlashes path) with
  | .error fault => .error fault
  | .ok location =>
    match location.entry? with
    | some _ => .error .alreadyExists
    | none =>
      if lastPiece? path = some ['.'] then .error .notFound
      else .ok (disk.put location.place .directory)

/-- Makes a directory and those around it, given the paths from the innermost to the outermost. -/
def makeAll (disk : Disk) : List String → Disk × Except Fault Unit
  | [] => (disk, .ok ())
  | path :: outer =>
    match disk.makeDirectory path with
    | .ok disk => (disk, .ok ())
    | .error .notFound =>
      match disk.makeAll outer with
      | (disk, .error fault) => (disk, .error fault)
      | (disk, .ok ()) =>
        match disk.makeDirectory path with
        | .ok disk => (disk, .ok ())
        | .error fault => (disk, if disk.hasDirectory path then .ok () else .error fault)
    | .error fault => (disk, if disk.hasDirectory path then .ok () else .error fault)

/-- Makes a directory and those around it where they are missing. Those around it may have been made even if
the directory itself cannot be made. -/
def makeDirectories (disk : Disk) (path : String) : Disk × Except Fault Unit :=
  let outer := (Path.ofString path).outer
  if outer.isEmpty then (disk, .ok ())
  else disk.makeAll (path :: (outer.map Path.render).filter fun p => !p.isEmpty && p ≠ "/")

/-- Writes a file, and makes the directories around it where they are missing. -/
def writeInside (disk : Disk) (path : String) (content : ByteArray) : Disk × Except Fault Unit :=
  let (disk, made) := match (Path.ofString path).parent? with
    | some parent => disk.makeDirectories parent.render
    | none => (disk, .ok ())
  match made with
  | .error fault => (disk, .error fault)
  | .ok () =>
    match disk.write path content with
    | .ok disk => (disk, .ok ())
    | .error fault => (disk, .error fault)

/-- Takes a file or a link away. -/
def removeFile (disk : Disk) (path : String) : Except Fault Disk :=
  match disk.find false path with
  | .error fault => .error fault
  | .ok (place, entry) => if entry.isDirectory then .error .isADirectory else .ok (disk.erase place)

/-- Takes away a directory in which nothing is left, if the path ends in its name. Slashes at the end do not lead
through a link. Where the path leads through something that is gone by now, there is nothing to be taken away. -/
def removeEmptied (disk : Disk) (path : String) : Disk × Except Fault Unit :=
  match disk.find false (withoutEndSlashes path) with
  | .error .notFound => (disk, .ok ())
  | .error fault => (disk, .error fault)
  | .ok (place, entry) =>
    match lastPiece? path with
    | some ['.'] => (disk, .error .badPath)
    | some ['.', '.'] => (disk, .error .notEmpty)
    | some _ => if entry.isDirectory then (disk.erase place, .ok ()) else (disk, .error .notADirectory)
    | none => (disk, .error .busy)

/-- Takes a directory away with all that is inside. What is inside is gone even if the directory itself
cannot be taken away. A link is taken away instead of what it leads to. -/
def removeDirectory (disk : Disk) (path : String) : Disk × Except Fault Unit :=
  match disk.find false path with
  | .error fault => (disk, .error fault)
  | .ok (place, .link _) => (disk.erase place, .ok ())
  | .ok (_, .file _ _) => (disk, .error .notADirectory)
  | .ok (place, _) => (disk.eraseInside place).removeEmptied path

/-- Makes a file executable or not. -/
def setExecutable (disk : Disk) (path : String) (executable : Bool) : Except Fault Disk :=
  match disk.find true path with
  | .error fault => .error fault
  | .ok (place, .file content _) => .ok (disk.put place (.file content executable))
  | .ok _ => .ok disk

/-- Whether a file is executable. -/
def isExecutable (disk : Disk) (path : String) : Except Fault Bool :=
  match disk.find true path with
  | .error fault => .error fault
  | .ok (_, .file _ executable) => .ok executable
  | .ok _ => .ok true

end Disk

end Stencil.Files
