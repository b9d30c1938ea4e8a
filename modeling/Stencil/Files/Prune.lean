import Stencil.Files.Walk

/-!
# Pruning

Takes away everything inside a directory that is ignored or whose name starts with a mark. The directory
itself stays. A directory that is taken away is not looked into, and a link is taken away without what it
leads to.

Things are taken away while one goes through the directory, and each by its path. What is gone by then counts
as taken away, and a directory that is gone by then is passed over.
-/

namespace Stencil.Files

/-- Whether a visit's last name starts with a mark; nothing does if the mark is empty. -/
def Visit.isMarked (mark : String) (visit : Visit) : Bool :=
  !mark.isEmpty && visit.names.getLast?.any fun name => name.startsWith mark

/-- Whether a visit is to be pruned. -/
def Visit.isUnwanted (set : IgnoreSet) (mark : String) (visit : Visit) : Bool :=
  visit.isMarked mark || visit.isIgnored set

/-- Why something cannot be pruned. -/
inductive PruneFault where
  /-- A directory cannot be walked. -/
  | walking (path : String) (fault : Fault)
  /-- Something cannot be taken away. -/
  | removing (fault : Fault)
  deriving DecidableEq, Inhabited

/-- Takes something away by its path, as what it was when it was met. -/
def Disk.discard (disk : Disk) (path : String) (entry : Entry) : Disk × Except PruneFault Unit :=
  if entry.isDirectory then
    match disk.removeDirectory path with
    | (disk, .ok ()) => (disk, .ok ())
    | (disk, .error .notFound) => (disk, .ok ())
    | (disk, .error fault) => (disk, .error (.removing fault))
  else
    match disk.removeFile path with
    | .ok disk => (disk, .ok ())
    | .error .notFound => (disk, .ok ())
    | .error fault => (disk, .error (.removing fault))

section

variable (set : IgnoreSet) (mark : String)

/-- Takes away what is visited if it is unwanted; otherwise goes into it if it is a directory. -/
def pruneOne (enter : Place → Disk → Disk × Except PruneFault Unit) (visit : Visit) (disk : Disk) :
    Disk × Except PruneFault Unit :=
  if visit.isUnwanted set mark then disk.discard (visit.path set.base) visit.entry
  else if visit.entry.isDirectory then enter visit.names disk
  else (disk, .ok ())

/-- Prunes what is visited, one after the other. -/
def pruneEach (enter : Place → Disk → Disk × Except PruneFault Unit) :
    List Visit → Disk → Disk × Except PruneFault Unit
  | [], disk => (disk, .ok ())
  | visit :: rest, disk =>
    match pruneOne set mark enter visit disk with
    | (disk, .error fault) => (disk, .error fault)
    | (disk, .ok ()) => pruneEach enter rest disk

/-- Prunes a directory that some names lead to from a root. Directories are nested no deeper than said. -/
def pruneInside (root : Place) : Nat → Place → Disk → Disk × Except PruneFault Unit
  | 0, _, disk => (disk, .ok ())
  | depth + 1, names, disk =>
    let path := (Visit.behind root names .directory).path set.base
    match disk.list path with
    | .error .notFound => (disk, .ok ())
    | .error fault => (disk, .error (.walking path fault))
    | .ok found =>
      pruneEach set mark (pruneInside root depth)
        (found.map fun (s, entry) => .behind root (names ++ [s]) entry) disk

/-- Takes away what is unwanted inside the base of a set of patterns. -/
def prune (disk : Disk) : Disk × Except PruneFault Unit :=
  match disk.find true set.base with
  | .error .notFound => (disk, .ok ())
  | .error fault => (disk, .error (.walking set.base fault))
  | .ok (root, entry) =>
    if entry.isDirectory then pruneInside set mark root (disk.tree.depth + 1) [] disk else (disk, .ok ())

end

end Stencil.Files
