import Stencil.Files.Disk
import Stencil.Ignore

/-!
# Walks

A walk visits a path and everything inside it, a directory before what is inside it and siblings by their
names. Links are visited and not followed, except for a link with which the walk starts. A path that leads
nowhere is visited by an empty walk.

What is ignored can be left out of a walk. An ignored directory is not looked into.
-/

namespace Stencil.Files

/-- Something that a walk meets. -/
structure Visit where
  /-- The names that lead there from the start of the walk. -/
  names : Place
  place : Place
  entry : Entry
  deriving DecidableEq, Inhabited

namespace Visit

/-- The visit to what some names lead to from a root. -/
def behind (root names : Place) (entry : Entry) : Visit := { names, place := root ++ names, entry }

/-- The path from the start of the walk. -/
def relative (visit : Visit) : String := "/".intercalate visit.names

/-- The path from the start of the walk with forward slashes only. -/
def name (visit : Visit) : String := Path.toSlash visit.relative

/-- The path, given that of the start of the walk. -/
def path (visit : Visit) (start : String) : String :=
  if visit.names.isEmpty then start else Path.join start visit.relative

/-- Whether it is ignored by patterns relative to the start of the walk. -/
def isIgnored (visit : Visit) (set : IgnoreSet) : Bool := set.ignoresRelative visit.name

end Visit

/-- Leaves out what is to be dropped, and all that is inside a directory that is to be dropped. -/
def pruned (drop : Visit → Bool) : Option Place → List Visit → List Visit
  | _, [] => []
  | skipped?, visit :: rest =>
    if skipped?.any visit.names.isWithin then pruned drop skipped? rest
    else if drop visit then
      pruned drop (if visit.entry.isDirectory then some visit.names else none) rest
    else visit :: pruned drop none rest

namespace Disk

/-- The names in a directory, in order. -/
def children (disk : Disk) (place : Place) : List String :=
  (disk.tree.inside place).filterMap fun found => if found.1.length = 1 then found.1.head? else none

/-- What is in the directory that a path leads to, by name. -/
def list (disk : Disk) (path : String) : Except Fault (List (String × Entry)) :=
  match disk.find true path with
  | .error fault => .error fault
  | .ok (place, entry) =>
    if entry.isDirectory then
      .ok ((disk.children place).filterMap fun s => (disk.at? (place ++ [s])).map (s, ·))
    else .error .notADirectory

/-- Everything inside a directory. -/
def visitsInside (disk : Disk) (place : Place) : List Visit :=
  (disk.tree.inside place).map fun (names, entry) => { names, place := place ++ names, entry }

/-- Everything at and inside a path. -/
def walk (disk : Disk) (start : String) : Except Fault (List Visit) :=
  match disk.find false start with
  | .error .notFound => .ok []
  | .error fault => .error fault
  | .ok (place, .link target) =>
    let first : Visit := { names := [], place, entry := .link target }
    match disk.find true start with
    | .error .notFound => .ok []
    | .error fault => .error fault
    | .ok (led, entry) => .ok (first :: if entry.isDirectory then disk.visitsInside led else [])
  | .ok (place, entry) =>
    let first : Visit := { names := [], place, entry }
    .ok (first :: if entry.isDirectory then disk.visitsInside place else [])

/-- Everything at and inside the base of a set of patterns that is not ignored. -/
def walkUnignored (disk : Disk) (set : IgnoreSet) : Except Fault (List Visit) :=
  match disk.walk set.base with
  | .error fault => .error fault
  | .ok visits => .ok (pruned (·.isIgnored set) none visits)

/-- The files below a base that are not ignored. -/
def filesOf (disk : Disk) (set : IgnoreSet) : Except Fault (List Visit) :=
  match disk.walkUnignored set with
  | .error fault => .error fault
  | .ok visits => .ok (visits.filter (·.entry.isFile))

/-- The directories below a base that are not ignored, and the base. -/
def directoriesOf (disk : Disk) (set : IgnoreSet) : Except Fault (List Visit) :=
  match disk.walkUnignored set with
  | .error fault => .error fault
  | .ok visits => .ok (visits.filter (·.entry.isDirectory))

end Disk

end Stencil.Files
