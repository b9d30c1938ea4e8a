import Stencil.FileCalls
import Stencil.Files.Site
import Stencil.Files.Walk
import Stencil.Work

/-!
# Filling

To fill a template is to render each of its files with the user's variables. The files are taken in the order
of a walk, those that are ignored left out, and the first failure ends the fill.

There are three ways. In place, the texts are written back over the files, but only after the last one was
rendered, so that no file is read that was filled before. Mirrored, the files are written to another
directory, where they lie as they did in the template. In the terminal, they are printed and no template may
ask for files. A file that is not a text is left as it is, copied, or mentioned.
-/

namespace Stencil

open Files

/-- Where filled files go. -/
inductive Fill.Mode where
  | inPlace
  | mirror (target : String)
  | terminal
  deriving DecidableEq, Inhabited

/-- Where the files of one fill go, once directories are known by their places. -/
inductive Fill.Route where
  | inPlace
  | mirror (target : String)
  | terminal
  deriving DecidableEq, Inhabited

/-- What is the same for all files of one fill. -/
structure Fill where
  /-- The directory that templates are loaded from, as the user gave it. -/
  given : String
  /-- The same directory by its place. -/
  source : String
  context : Value
  route : Fill.Route
  deriving Inhabited

/-- What is kept from file to file. -/
structure Fill.Progress where
  /-- The templates that were loaded. -/
  loaded : Entries Template.Document := []
  /-- What is to be written back, the last file first. -/
  pending : List (String × String) := []
  deriving Inhabited

namespace Fill

/-- The line before a printed file. -/
def header (name : String) : String := "\n----- File: " ++ name ++ "\n"

/-- What is printed for a text. -/
def block (name text : String) : String := header name ++ text ++ "\n"

/-- What is printed for a file that is not a text. -/
def omitted (name : String) : String := block name "(binary content omitted)"

/-- Renders a file, given where other files may be written. -/
def renderFile (fill : Fill) (progress : Progress) (name text : String) (scope : Template.Scope) :
    Work (String × Progress) := do
  let site : Site := { templates? := some fill.given, scope }
  let (ending, bench) := site.render name text fill.context
    { disk := ← Work.disk, loaded := progress.loaded }
  Work.setDisk bench.disk
  match ending with
  | .done filled => pure (filled, { progress with loaded := bench.loaded })
  | .failed fault => Work.fail (.template fault)
  | .outside path => Work.fail (.outside path)
  | .exhausted => Work.fail .exhausted

/-- Files may be written below a root, next to a file. -/
def scopeNextTo (root file : String) : Template.Scope :=
  .within (Path.ofString root) ((Path.ofString file).parent?.getD (Path.ofString root))

/-- Writes a file with the permissions of another. -/
def writeLike (file destination : String) (content : ByteArray) : Work Unit := do
  Work.attempt fun disk => disk.writeInside destination content
  let executable ← Work.ask fun disk => disk.isExecutable file
  Work.change fun disk => disk.setExecutable destination executable

/-- What becomes of a file that is not a text. -/
def passBinary (fill : Fill) (file relative name : String) (content : ByteArray) : Work Unit :=
  match fill.route with
  | .inPlace => pure ()
  | .mirror target => writeLike file (Path.join target relative) content
  | .terminal => Work.print (omitted name)

/-- What becomes of a text. -/
def fillText (fill : Fill) (progress : Progress) (file relative name text : String) :
    Work Progress :=
  match fill.route with
  | .inPlace => do
    let (filled, progress) ← fill.renderFile progress name text (scopeNextTo fill.source file)
    pure { progress with pending := (file, filled) :: progress.pending }
  | .mirror target => do
    let destination := Path.join target relative
    let (filled, progress) ← fill.renderFile progress name text (scopeNextTo target destination)
    writeLike file destination filled.toUTF8
    pure progress
  | .terminal => do
    if asksForFiles text then Work.fail (.filesInTerminal name)
    let (filled, progress) ← fill.renderFile progress name text .nowhere
    Work.print (block name filled)
    pure progress

/-- Fills one file. -/
def fillVisit (fill : Fill) (progress : Progress) (visit : Visit) : Work Progress := do
  let file := visit.path fill.source
  let content ← Work.ask fun disk => disk.read file
  match String.fromUTF8? content with
  | some text => fill.fillText progress file visit.relative visit.name text
  | none => do
    fill.passBinary file visit.relative visit.name content
    pure progress

/-- Writes texts back. -/
def writeBack : List (String × String) → Work Unit
  | [] => pure ()
  | (file, text) :: rest => do
    Work.change fun disk => disk.write file text.toUTF8
    writeBack rest

/-- Where the files of a fill go; the directory that they are mirrored to is made. -/
def routeOf : Mode → Work Route
  | .inPlace => pure .inPlace
  | .mirror target => do
    Work.attempt fun disk => disk.makeDirectories target
    let place ← Work.ask fun disk => disk.canonical target
    pure (.mirror place.render)
  | .terminal => pure .terminal

end Fill

/-- Fills the template in a directory. -/
def fillDirectory (given : String) (patterns : List String) (vars : Variables) (mode : Fill.Mode) :
    Work Unit := do
  let source := (← Work.ask fun disk => disk.canonical given).render
  let set ← Work.ofExcept .pattern (IgnoreSet.ofPatterns source patterns)
  let route ← Fill.routeOf mode
  let visits ← Work.ofExcept (.walk source) ((← Work.disk).filesOf set)
  let fill : Fill := { given, source, context := vars.context, route }
  let progress ← visits.foldlM fill.fillVisit {}
  Fill.writeBack progress.pending.reverse

end Stencil
