import Stencil.Ignore

/-!
# Changes in a directory

What is told about a change: its kind and the paths that it concerns. A change counts if something was
created, modified or removed whose path is neither ignored nor an editor's backup.
-/

namespace Stencil

/-- What happened. -/
inductive Change.Kind where
  | any
  | access
  | create
  | modify
  | remove
  | other
  deriving DecidableEq, Inhabited

/-- A change, with the paths that it concerns. -/
structure Change where
  kind : Change.Kind
  paths : List String
  deriving Inhabited

/-- Whether the kind of a change says that contents changed. -/
def Change.Kind.isEdit : Change.Kind → Bool
  | .create => true
  | .modify => true
  | .remove => true
  | _ => false

/-- Whether a path is that of an editor's backup. -/
def isBackup (path : String) : Bool := path.endsWith "~"

/-- Whether a change counts. -/
def Change.isRelevant (change : Change) (ignored : IgnoreSet) : Bool :=
  change.kind.isEdit && change.paths.any fun path => !isBackup path && !ignored.ignores path

end Stencil
