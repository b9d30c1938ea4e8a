import Stencil.Repository
import Stencil.Work

/-!
# Repositories on a disk

A directory is a repository if there is a history in it. A snapshot keeps the files and links of a
repository, but not its empty directories, and nothing that has `.git` among its names. What is checked out
is a snapshot and the repository's own directory.

Only repositories on the same disk can be fetched. Fetching one makes a directory for it; if that does not
succeed the directory is gone again, but those around it stay. A tag is looked up last, when everything is
there already.
-/

namespace Stencil

open Files

/-- The directory of a repository in which it keeps what it needs. -/
def storeName : String := ".git"

/-- The directory in that directory which holds the history. -/
def objectsName : String := "objects"

/-- The branch of a new repository. -/
def mainBranch : String := "main"

namespace Files.Disk

/-- The history at a place, if there is one. -/
def historyAt? (disk : Disk) (place : Place) : Option History :=
  match disk.at? place with
  | some (.history history) => some history
  | _ => none

/-- The history of a repository. -/
def historyOf? (disk : Disk) (place : Place) : Option History :=
  (disk.historyAt? (place ++ [storeName, objectsName])).orElse fun _ =>
    disk.historyAt? (place ++ [objectsName])

/-- What a snapshot of a directory keeps. -/
def snapshot (disk : Disk) (place : Place) : Snapshot :=
  (disk.tree.inside place).filterMap fun (names, entry) =>
    if names.contains storeName then none else entry.item?.map fun item => (names, item)

/-- Puts the history of a repository into its directory. -/
def putHistory (disk : Disk) (place : Place) (history : History) : Disk :=
  (disk.put (place ++ [storeName]) .directory).put (place ++ [storeName, objectsName]) (.history history)

/-- Remembers what is in a directory, on the branch that is checked out, and gives it names. -/
def commit (disk : Disk) (place : Place) (tag? branch? : Option String) : Disk :=
  let snapshot := disk.snapshot place
  let history := (disk.historyOf? place).getD { head := mainBranch, branches := [], tags := [] }
  let name (name? : Option String) (entries : Entries Snapshot) : Entries Snapshot :=
    match name? with
    | some name => Entries.put name snapshot entries
    | none => entries
  let branches := name branch? (Entries.put history.head snapshot history.branches)
  disk.putHistory place { history with branches, tags := name tag? history.tags }

/-- The directories around a place, down from another one, the outermost first. -/
def around (place : Place) : List Place := (List.range place.length).map place.take

/-- Puts a file or a link into a directory, and the directories around it. -/
def putItem (place : Place) (disk : Disk) (names : Place) (item : Item) : Disk :=
  let disk := ((around names).filter (· ≠ [])).foldl
    (fun disk names => disk.put (place ++ names) .directory) disk
  disk.put (place ++ names) item.entry

/-- Puts a snapshot into a directory, in the place of everything there but the repository's own. -/
def checkOut (disk : Disk) (place : Place) (snapshot : Snapshot) : Disk :=
  let own := (disk.tree.inside place).filter fun (names, _) => names.head? = some storeName
  let disk := own.foldl (fun disk (names, entry) => disk.put (place ++ names) entry) (disk.eraseInside place)
  snapshot.foldl (fun disk (names, item) => putItem place disk names item) disk

end Files.Disk

namespace Repository

/-- The path that a URL stands for on this disk. -/
def localPath (url : String) : String :=
  let front := "file://".toList
  if front.isPrefixOf url.toList then String.ofList (url.toList.drop front.length) else url

/-- The history that is fetched from a URL, if there is one. -/
def history? (disk : Disk) (url : String) : Option History := do
  let place ← (disk.canonical (localPath url)).toOption
  disk.historyOf? place

/-- What is checked out first: a branch that was asked for, or that which is checked out there. -/
def checkedOut? (repository : Repository) (history : History) : Option (String × Snapshot) := do
  let branch := repository.branch?.getD history.head
  some (branch, ← Entries.get? branch history.branches)

/-- Makes the directory for a clone. -/
def makeRoom (destination : String) : Work Place := do
  Work.attempt fun disk => disk.makeDirectories destination
  Work.ask fun disk => disk.canonical destination

/-- Fetches a repository into a directory that does not exist yet. -/
def cloneInto (repository : Repository) (destination : String) : Work Unit := do
  let room ← tryCatch (makeRoom destination) fun _ => Work.fail .repository
  let disk ← Work.disk
  match history? disk repository.url with
  | none => do
    Work.setDisk (disk.erase room)
    Work.fail .repository
  | some history =>
    match repository.checkedOut? history with
    | none => do
      Work.setDisk (disk.erase room)
      Work.fail .repository
    | some (branch, snapshot) => do
      let fetched : History := { head := branch, branches := [(branch, snapshot)], tags := history.tags }
      Work.setDisk ((disk.putHistory room fetched).checkOut room snapshot)
      match repository.tag? with
      | none => pure ()
      | some tag =>
        match Entries.get? tag history.tags with
        | none => Work.fail .repository
        | some snapshot => Work.setDisk ((← Work.disk).checkOut room snapshot)

/-- The text of a file of a repository. -/
def fileText (repository : Repository) (path : String) : Work String := do
  let disk ← Work.disk
  match history? disk repository.url with
  | none => Work.fail .repository
  | some history =>
    let snapshot? := match repository.tag? with
      | none => (repository.checkedOut? history).map Prod.snd
      | some tag => do
        let _ ← repository.checkedOut? history
        Entries.get? tag history.tags
    match snapshot? with
    | none => Work.fail .repository
    | some snapshot => do
      -- The file is looked for in a checkout that is thrown away.
      let room : Place := [repository.name]
      let empty : Disk := { tree := [], directory := [] }
      let checkout := (empty.put room .directory).checkOut room snapshot
      Work.ofExcept .files (checkout.readText (Path.join (Place.render room) path))

end Repository

end Stencil
