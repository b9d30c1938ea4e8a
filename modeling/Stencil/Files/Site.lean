import Stencil.Files.Disk
import Stencil.Template.Scope

/-!
# Sites

A site is where the templates of a tree are rendered: it answers what a rendering asks for. Templates are
loaded from a directory, and one that was loaded once is not read again. Files are written within the scope
of the template, which is looked at twice: the path by itself must not leave the root, and neither may what
it leads to when links are followed. A file is only written where leave was given before; a rendering that
asks for leave to write elsewhere ends at once.
-/

namespace Stencil.Files

open Template (Scope Rendering Document LoadFault)

/-- Where templates come from, and where files go. -/
structure Site where
  /-- The directory of the templates that can be asked for by name. -/
  templates? : Option String
  scope : Scope
  deriving DecidableEq, Inhabited

/-- A disk on which templates are being rendered. -/
structure Workbench where
  disk : Disk
  /-- The templates that were loaded. -/
  loaded : Entries Document := []
  /-- The files that may be written. -/
  permitted : List Path := []
  deriving Inhabited

/-- How a rendering ends on a disk. -/
inductive Ending (α : Type) where
  | done (result : α)
  | failed (fault : Template.Fault)
  /-- A path leaves the scope. -/
  | outside (path : String)
  /-- Evaluations were nested deeper than allowed. -/
  | exhausted
  deriving DecidableEq, Inhabited

/-- Whether a path leads to a place within a root when links are followed, those of the deepest directory
around it that there is. -/
def Disk.resolvesWithin (disk : Disk) (root target : Path) : Bool :=
  match disk.canonical root.render with
  | .error _ => false
  | .ok rootPlace =>
    match (target :: target.outer).find? fun path => disk.hasEntry path.render with
    | none => false
    | some there =>
      match disk.canonical there.render with
      | .error _ => false
      | .ok place => place.isWithin rootPlace

namespace Site

/-- The path of a template that is asked for by name, unless a part of the name is hidden. -/
def templatePath? (directory name : String) : Option String :=
  let pieces := Text.splitOn '/' name.toList
  if pieces.any fun piece => piece.head? = some '.' || piece.contains '\\' then none
  else some (pieces.foldl (fun path piece =>
    if piece = [] then if path.endsWith "/" || path.isEmpty then path else path ++ "/"
    else Path.join path (String.ofList piece)) directory)

/-- Reads a template. -/
def readTemplate (site : Site) (disk : Disk) (name : String) : Except LoadFault Document :=
  match site.templates?.bind (templatePath? · name) with
  | none => .error .missing
  | some path =>
    match disk.readText path with
    | .error .notFound => .error .missing
    | .error _ => .error .unreadable
    | .ok text =>
      match Document.ofString name text with
      | .ok document => .ok document
      | .error fault => .error (.malformed fault)

/-- Loads a template, unless it was loaded before. -/
def load (site : Site) (bench : Workbench) (name : String) : Except LoadFault Document × Workbench :=
  match Entries.get? name bench.loaded with
  | some document => (.ok document, bench)
  | none =>
    match site.readTemplate bench.disk name with
    | .ok document => (.ok document, { bench with loaded := Entries.put name document bench.loaded })
    | .error fault => (.error fault, bench)

/-- The file that a path means, if it may be written. -/
def target? (disk : Disk) (root directory : Path) (path : String) : Option Path :=
  match Path.confine root directory (Path.ofString path) with
  | none => none
  | some target => if disk.resolvesWithin root target then some target else none

/-- Writes a file where leave was given. -/
def write (site : Site) (bench : Workbench) (path text : String) : Bool × Workbench :=
  match site.scope with
  | .nowhere => (false, bench)
  | .within root directory =>
    match Path.confine root directory (Path.ofString path) with
    | none => (false, bench)
    | some target =>
      if bench.permitted.contains target then
        let (disk, written) := bench.disk.writeInside target.render text.toUTF8
        (written.toBool, { bench with disk })
      else (false, bench)

/-- Follows a rendering to its end. -/
def run {α : Type} (site : Site) : Rendering α → Workbench → Ending α × Workbench
  | .done a, bench => (.done a, bench)
  | .fail fault, bench => (.failed fault, bench)
  | .exhausted, bench => (.exhausted, bench)
  | .load name next, bench =>
    let (answer, bench) := site.load bench name
    site.run (next answer) bench
  | .permit path next, bench =>
    match site.scope with
    | .nowhere => site.run (next false) bench
    | .within root directory =>
      match target? bench.disk root directory path with
      | none => (.outside path, bench)
      | some target => site.run (next true) { bench with permitted := target :: bench.permitted }
  | .write path text next, bench =>
    let (answer, bench) := site.write bench path text
    site.run (next answer) bench

/-- Renders the text of a template. -/
def render (site : Site) (name text : String) (context : Value) (bench : Workbench) :
    Ending String × Workbench :=
  site.run (Template.rendering name text context site.scope) bench

end Site

end Stencil.Files
