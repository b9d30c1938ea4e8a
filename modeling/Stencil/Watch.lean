import Stencil.Change
import Stencil.Files.Walk

/-!
# Watching a template

What is watched are the directories that are not ignored. Whoever waits for a change is told of everything that
happens to a file in one of these directories, and goes on waiting as long as that does not count.
-/

namespace Stencil

open Files

/-! ## Who is told what -/

/-- A path from the root, with the names of the working directory in front of a relative one. -/
def fromRoot (disk : Disk) (path : String) : String :=
  if path.startsWith "/" then path else Path.join (Place.render disk.directory) path

/-- The directories that are watched, and the paths by which they are known. -/
def watched (disk : Disk) (set : IgnoreSet) : Except Fault (List (Place × String)) :=
  match disk.directoriesOf set with
  | .error fault => .error fault
  | .ok visits => .ok (visits.map fun visit => (visit.place, fromRoot disk (visit.path set.base)))

/-- Something that happens to a file in a directory. -/
structure Edit where
  kind : Change.Kind
  directory : Place
  name : String
  deriving DecidableEq, Inhabited

/-- What is told about an edit: a change of the file behind each path by which its directory is watched. -/
def Edit.told (edit : Edit) (places : List (Place × String)) : List Change :=
  (places.filter fun place => place.1 = edit.directory).map fun place =>
    { kind := edit.kind, paths := [Path.join place.2 edit.name] }

/-! ## Waiting -/

/-- What is heard while one waits. -/
inductive Signal where
  | change (change : Change)
  /-- Changes cannot be watched any more. -/
  | failure
  /-- Nothing was heard for too long. -/
  | silence
  deriving Inhabited

/-- How waiting stands. -/
inductive Waiting where
  | waiting
  /-- There was a change that counts. -/
  | changed
  /-- There was none for too long. -/
  | unchanged
  | failed
  deriving DecidableEq, Inhabited

/-- Waits for a change that counts. -/
def wait (set : IgnoreSet) : List Signal → Waiting
  | [] => .waiting
  | .change change :: rest => if change.isRelevant set then .changed else wait set rest
  | .failure :: _ => .failed
  | .silence :: _ => .unchanged

/-- What is heard of edits. -/
def signals (places : List (Place × String)) (edits : List Edit) : List Signal :=
  edits.flatMap fun edit => (edit.told places).map .change

/-- Whether the change of a file is noticed before one gives up, given its directory and its name. -/
def isNoticed (disk : Disk) (set : IgnoreSet) (directory : Place) (name : String) : Except Fault Bool :=
  match watched disk set with
  | .error fault => .error fault
  | .ok places => .ok (wait set (signals places [{ kind := .modify, directory, name }] ++ [.silence]) = .changed)

end Stencil
