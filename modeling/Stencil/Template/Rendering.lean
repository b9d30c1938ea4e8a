import Stencil.Template.Fault
import Stencil.Template.Tree

/-!
# Renderings

A template can ask for three things outside of itself: another template by its name, leave to write a file,
and that a file be written. A rendering is everything that a template will do, as a tree of these requests
with a branch for each answer. It says nothing about directories; who runs it decides what is answered, and
can be reasoned about without knowing how templates work.

The files that are written are always those that leave was given for, as long as who runs the rendering
keeps to that; see `Stencil.Files.Site`.

A rendering that nests evaluations deeper than it was allowed to is exhausted. That is neither a text nor
a fault.
-/

namespace Stencil.Template

/-- Why a template cannot be loaded. -/
inductive LoadFault where
  | missing
  | unreadable
  | malformed (fault : Fault)
  deriving DecidableEq, Inhabited

/-- What a template does until it has a result. -/
inductive Rendering (α : Type) where
  | done (result : α)
  | fail (fault : Fault)
  | exhausted
  /-- Asks for a template. -/
  | load (name : String) (next : Except LoadFault Document → Rendering α)
  /-- Asks for leave to write a file; the answer is whether files can be written at all. -/
  | permit (path : String) (next : Bool → Rendering α)
  /-- Asks to write a file; the answer is whether it was written. -/
  | write (path text : String) (next : Bool → Rendering α)

namespace Rendering

variable {α β γ : Type}

instance : Inhabited (Rendering α) := ⟨.exhausted⟩

/-- One rendering and then another that depends on its result. -/
def bind (r : Rendering α) (f : α → Rendering β) : Rendering β :=
  match r with
  | .done a => f a
  | .fail fault => .fail fault
  | .exhausted => .exhausted
  | .load name next => .load name fun answer => (next answer).bind f
  | .permit path next => .permit path fun answer => (next answer).bind f
  | .write path text next => .write path text fun answer => (next answer).bind f

instance : Monad Rendering where
  pure := .done
  bind := bind

/-- The same rendering with its faults changed. -/
def mapFault (f : Fault → Fault) : Rendering α → Rendering α
  | .done a => .done a
  | .fail fault => .fail (f fault)
  | .exhausted => .exhausted
  | .load name next => .load name fun answer => (next answer).mapFault f
  | .permit path next => .permit path fun answer => (next answer).mapFault f
  | .write path text next => .write path text fun answer => (next answer).mapFault f

/-- A fault of a certain cause. -/
def raise (cause : Cause) : Rendering α := .fail { cause }

@[simp] theorem pure_eq_done (a : α) : (pure a : Rendering α) = .done a := rfl

@[simp] theorem bind_eq (r : Rendering α) (f : α → Rendering β) : (r >>= f) = r.bind f := rfl

@[simp] theorem done_bind (a : α) (f : α → Rendering β) : (Rendering.done a).bind f = f a := rfl

@[simp] theorem fail_bind (fault : Fault) (f : α → Rendering β) :
    (Rendering.fail fault).bind f = .fail fault := rfl

@[simp] theorem exhausted_bind (f : α → Rendering β) :
    (Rendering.exhausted : Rendering α).bind f = .exhausted := rfl

theorem bind_done (r : Rendering α) : r.bind .done = r := by
  induction r with
  | done | fail | exhausted => rfl
  | load name next ih => simp [bind, ih]
  | permit path next ih => simp [bind, ih]
  | write path text next ih => simp [bind, ih]

theorem bind_assoc (r : Rendering α) (f : α → Rendering β) (g : β → Rendering γ) :
    (r.bind f).bind g = r.bind fun a => (f a).bind g := by
  induction r with
  | done | fail | exhausted => rfl
  | load name next ih => simp [bind, ih]
  | permit path next ih => simp [bind, ih]
  | write path text next ih => simp [bind, ih]

/-- How a rendering ends. -/
inductive Outcome (α : Type) where
  | done (result : α)
  | failed (fault : Fault)
  /-- Evaluations were nested deeper than allowed. -/
  | exhausted
  deriving DecidableEq, Inhabited

/-- The end of a rendering where there are no other templates, and where no file can be written. -/
def alone : Rendering α → Outcome α
  | .done a => .done a
  | .fail fault => .failed fault
  | .exhausted => .exhausted
  | .load _ next => (next (.error .missing)).alone
  | .permit _ next => (next false).alone
  | .write _ _ next => (next false).alone

/-- The fault of a template that cannot be loaded. -/
def loadFault (name : String) : LoadFault → Rendering α
  | .missing => raise (.templateNotFound name)
  | .unreadable => raise (.invalid "could not read template")
  | .malformed fault => .fail fault

end Rendering

end Stencil.Template
