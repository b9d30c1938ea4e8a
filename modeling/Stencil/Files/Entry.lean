import Stencil.Entries

/-!
# What is in a directory tree

A place is the row of names that leads to it from the root. At a place there is a file, a directory, a link
with the text of the path that it leads to, or the history of a repository. A history takes the place of the
directory in which a repository keeps its objects; what is in there has no names of its own.
-/

namespace Stencil.Files

/-- The names that lead to something from the root. -/
abbrev Place := List String

/-- Contents are compared byte by byte. -/
instance contentDecidableEq : DecidableEq ByteArray := ByteArray.instDecidableEq

/-- What a repository keeps a copy of. -/
inductive Item where
  | file (content : ByteArray) (executable : Bool)
  | link (target : String)
  deriving DecidableEq, Inhabited

/-- The files and links of a tree, each at its place below the directory of the repository. -/
abbrev Snapshot := List (Place × Item)

/-- What a repository remembers. -/
structure History where
  /-- The branch that is checked out. -/
  head : String
  branches : Entries Snapshot
  tags : Entries Snapshot
  deriving DecidableEq, Inhabited

/-- What is at a place. -/
inductive Entry where
  | file (content : ByteArray) (executable : Bool)
  | directory
  | link (target : String)
  | history (history : History)
  deriving DecidableEq, Inhabited

/-- Whether there is something inside that has names. -/
def Entry.isDirectory : Entry → Bool
  | directory => true
  | history _ => true
  | _ => false

/-- Whether it is a file. -/
def Entry.isFile : Entry → Bool
  | file _ _ => true
  | _ => false

/-- Whether it is a link. -/
def Entry.isLink : Entry → Bool
  | link _ => true
  | _ => false

/-- What is kept in a snapshot as what it is in a tree. -/
def Item.entry : Item → Entry
  | file content executable => .file content executable
  | link target => .link target

/-- What a snapshot keeps of something, if it keeps anything. -/
def Entry.item? : Entry → Option Item
  | file content executable => some (.file content executable)
  | link target => some (.link target)
  | _ => none

@[simp] theorem Item.item?_entry (item : Item) : item.entry.item? = some item := by cases item <;> rfl

end Stencil.Files
