import Stencil.Template.Display

/-!
# Reading the arguments of a call

The arguments of a function, a filter or a check are read one after the other, each as what it should be;
what is left over at the end is a fault. Named arguments come as one argument, the last, and are looked up
by name by those who know of them.
-/

namespace Stencil.Template

/-- The arguments that are still to be read. -/
structure Arguments where
  rest : List Datum
  named : Entries Datum := []
  deriving Inhabited

/-- A reader of arguments. -/
abbrev Reading (α : Type) := StateT Arguments (Except Cause) α

namespace Reading

/-- The next argument, if there is one. -/
def next? : Reading (Option Datum) := do
  let args ← get
  set { args with rest := args.rest.drop 1 }
  pure args.rest.head?

/-- An argument. -/
def datum : Reading Datum := do
  match ← next? with
  | some d => pure d
  | none => throw .missingArgument

/-- A datum as text that must be text. -/
def asText (d : Datum) : Except Cause String :=
  match d with
  | .text s _ => .ok s
  | _ => .error (.invalid "value is not a string")

/-- A datum as the text that it has in the output. -/
def asShown (d : Datum) : Except Cause String :=
  match d with
  | .named _ => .error (.invalid "cannot convert kwargs to string")
  | d => .ok d.display

/-- A datum as an integer between bounds. -/
def asInt (low high : Int) (d : Datum) : Except Cause Int :=
  match d.toInt? with
  | some n =>
    if low ≤ n && n ≤ high then .ok n
    else .error (.invalid ("cannot convert " ++ d.kind.name ++ " to integer"))
  | none => .error (.invalid ("cannot convert " ++ d.kind.name ++ " to integer"))

/-- A datum as a count. -/
def asCount (d : Datum) : Except Cause Nat := (asInt 0 18446744073709551615 d).map Int.toNat

/-- A datum as a truth value. -/
def asBool (d : Datum) : Except Cause Bool :=
  match d with
  | .bool b => .ok b
  | d => .error (.invalid ("cannot convert " ++ d.kind.name ++ " to bool"))

/-- A datum as the items of a list or a stream. -/
def asItems (d : Datum) : Except Cause (List Datum) :=
  match d with
  | .list items => .ok items
  | .stream items _ => .ok items
  | .group common items => .ok [common, .list items]
  | d => .error (.invalid (d.kind.name ++ " is not a list"))

/-- An argument, read as what it should be. -/
def required {α : Type} (read : Datum → Except Cause α) : Reading α := do
  match read (← datum) with
  | .ok a => pure a
  | .error cause => throw cause

/-- An argument that may be left out, or be nothing. -/
def optional {α : Type} (read : Datum → Except Cause α) : Reading (Option α) := do
  match ← next? with
  | none => pure none
  | some .undefined => pure none
  | some .none => pure none
  | some d =>
    match read d with
    | .ok a => pure (some a)
    | .error cause => throw cause

/-- A named argument that may be left out, or be nothing. -/
def namedOptional {α : Type} (name : String) (read : Datum → Except Cause α) :
    Reading (Option α) := do
  let args ← get
  set { args with named := args.named.filter fun entry => entry.1 ≠ name }
  match Entries.get? name args.named with
  | none => pure none
  | some .undefined => pure none
  | some .none => pure none
  | some d =>
    match read d with
    | .ok a => pure (some a)
    | .error cause => throw cause

/-- All arguments that are left. -/
def remaining : Reading (List Datum) := do
  let args ← get
  set { args with rest := [] }
  pure args.rest

/-- Any datum. -/
def asAny (d : Datum) : Except Cause Datum := .ok d

/-- Reads arguments, all of them, named ones as one argument. -/
def run {α : Type} (reader : Reading α) (args : List Datum) : Except Cause α :=
  match StateT.run reader { rest := args } with
  | .error cause => .error cause
  | .ok (a, left) => if left.rest.isEmpty then .ok a else .error .tooManyArguments

/-- Reads arguments, all of them, with named ones looked up by their names. -/
def runNamed {α : Type} (reader : Reading α) (args : List Datum) : Except Cause α :=
  let start : Arguments := match args.getLast? with
    | some (.named entries) => { rest := args.dropLast, named := entries }
    | _ => { rest := args }
  match StateT.run reader start with
  | .error cause => .error cause
  | .ok (a, left) =>
    if left.rest.isEmpty && left.named.isEmpty then .ok a else .error .tooManyArguments

end Reading

end Stencil.Template
