import Stencil.Failure
import Stencil.Files.Disk

/-!
# Work

Work changes a disk and prints. It ends with a result or with a failure; what was changed and printed before
a failure stays. Whoever wants it undone has to undo it.
-/

namespace Stencil

/-- What work is done on. -/
structure World where
  disk : Files.Disk
  /-- What was printed. -/
  printed : String := ""
  /-- What was complained about by commands of templates. -/
  complaints : String := ""
  deriving DecidableEq, Inhabited

/-- Something that is done, with its result. -/
abbrev Work (α : Type) := ExceptT Failure (StateM World) α

namespace Work

variable {α β : Type}

/-- The result of some work in a world, and what the world is afterwards. -/
def on (work : Work α) (world : World) : Except Failure α × World := StateT.run work world

/-- The disk. -/
def disk : Work Files.Disk := do pure (← get).disk

/-- Changes the disk. -/
def setDisk (disk : Files.Disk) : Work Unit := modify fun world => { world with disk }

/-- Prints a text. -/
def print (text : String) : Work Unit := modify fun world => { world with printed := world.printed ++ text }

/-- Gives up. -/
def fail (failure : Failure) : Work α := throw failure

/-- A result, or the failure that a fault means. -/
def ofExcept {ε : Type} (failure : ε → Failure) (result : Except ε α) : Work α :=
  match result with
  | .ok a => pure a
  | .error fault => fail (failure fault)

/-- Asks the disk something. -/
def ask (question : Files.Disk → Except Files.Fault α) : Work α := do
  ofExcept .files (question (← disk))

/-- Changes the disk, if that is possible. -/
def change (action : Files.Disk → Except Files.Fault Files.Disk) : Work Unit := do
  setDisk (← ofExcept .files (action (← disk)))

/-- Changes the disk as far as possible. -/
def attempt (action : Files.Disk → Files.Disk × Except Files.Fault Unit) : Work Unit := do
  let (disk, result) := action (← disk)
  setDisk disk
  ofExcept .files result

/-- Does other work if some work fails, and fails for the same reason. -/
def onFailure (work : Work α) (other : Work Unit) : Work α :=
  tryCatch work fun failure => do
    tryCatch other fun _ => pure ()
    fail failure

end Work

end Stencil
