import Stencil.Template.Arguments
import Stencil.Template.Operation
import Stencil.Text.Cased

/-!
# Checks

What can be asked of a datum with `is`.
-/

namespace Stencil.Template

/-- The names of the filters, in no particular order. -/
def filterNames : List String :=
  ["safe", "escape", "e", "lower", "upper", "title", "capitalize", "replace", "length", "count",
    "dictsort", "items", "reverse", "trim", "join", "split", "lines", "default", "d", "round", "abs",
    "int", "float", "attr", "first", "last", "min", "max", "sort", "list", "string", "bool", "batch",
    "slice", "sum", "indent", "select", "reject", "selectattr", "rejectattr", "map", "groupby",
    "unique", "chain", "zip", "pprint", "format", "tojson", "urlencode", "camel_case", "pascal_case",
    "snake_case", "screaming_snake_case", "kebab_case", "train_case", "title_case"]

/-- The names of the checks. -/
def checkNames : List String :=
  ["undefined", "defined", "none", "safe", "escaped", "filter", "test", "boolean", "odd", "even",
    "divisibleby", "number", "integer", "int", "float", "string", "sequence", "iterable", "mapping",
    "startingwith", "endingwith", "lower", "upper", "sameas", "eq", "equalto", "==", "ne", "!=", "lt",
    "lessthan", "<", "le", "<=", "gt", "greaterthan", ">", "ge", ">=", "in", "true", "false"]

namespace Check

/-- Whether a number is a multiple of another. -/
def isMultiple (a b : Datum) : Bool :=
  match Datum.pair? true a b with
  | some (.integers m n) => n ≠ 0 && m % n = 0
  | some (.decimals x y) => Decimal.remainder x y == 0.0
  | _ => false

/-- Whether two data are the same thing. -/
def isSame (a b : Datum) : Bool :=
  let isInteger (d : Datum) : Bool := match d with
    | .integer _ => true
    | _ => false
  a.kind = b.kind && Datum.same a b && isInteger a = isInteger b

open Reading in
/-- A check by its name. -/
def find? (name : String) : Option (List Datum → Except Cause Bool) :=
  let onOne (f : Datum → Bool) : Option (List Datum → Except Cause Bool) :=
    some <| run do
      let d ← datum
      pure (f d)
  let onTwo (f : Datum → Datum → Bool) : Option (List Datum → Except Cause Bool) :=
    some <| run do
      let a ← datum
      let b ← datum
      pure (f a b)
  let onKind (k : Kind) : Option (List Datum → Except Cause Bool) := onOne fun d => d.kind = k
  let onShown (f : String → String → Bool) : Option (List Datum → Except Cause Bool) :=
    some <| run do
      let s ← required asShown
      let t ← required asShown
      pure (f s t)
  let onName (names : List String) : Option (List Datum → Except Cause Bool) :=
    some <| run do
      let s ← required asText
      pure (names.contains s)
  let onLetters (f : Char → Bool) : Option (List Datum → Except Cause Bool) :=
    some <| run do
      let s ← required asShown
      pure (s.toList.all f)
  match name with
  | "undefined" => onKind .undefined
  | "defined" => onOne fun d => d.kind ≠ .undefined
  | "none" => onKind .none
  | "safe" => onOne isSafe
  | "escaped" => onOne isSafe
  | "filter" => onName filterNames
  | "test" => onName checkNames
  | "boolean" => onKind .bool
  | "odd" => onOne fun d => d.toInt?.any (· % 2 ≠ 0)
  | "even" => onOne fun d => d.toInt?.any (· % 2 = 0)
  | "divisibleby" => onTwo isMultiple
  | "number" => onKind .number
  | "integer" => onOne isInteger
  | "int" => onOne isInteger
  | "float" => onOne fun d => d.kind = .number && !isInteger d
  | "string" => onKind .text
  | "sequence" => onKind .sequence
  | "iterable" => onOne fun d => d.items?.isSome
  | "mapping" => onKind .map
  | "startingwith" => onShown fun s t => t.toList.isPrefixOf s.toList
  | "endingwith" => onShown fun s t => t.toList.isSuffixOf s.toList
  | "lower" => onLetters Text.isLowercase
  | "upper" => onLetters Text.isUppercase
  | "sameas" => onTwo isSame
  | "eq" => onTwo Datum.same
  | "equalto" => onTwo Datum.same
  | "==" => onTwo Datum.same
  | "ne" => onTwo fun a b => !Datum.same a b
  | "!=" => onTwo fun a b => !Datum.same a b
  | "lt" => onTwo isLess
  | "lessthan" => onTwo isLess
  | "<" => onTwo isLess
  | "le" => onTwo fun a b => !isLess b a
  | "<=" => onTwo fun a b => !isLess b a
  | "gt" => onTwo fun a b => isLess b a
  | "greaterthan" => onTwo fun a b => isLess b a
  | ">" => onTwo fun a b => isLess b a
  | "ge" => onTwo fun a b => !isLess a b
  | ">=" => onTwo fun a b => !isLess a b
  | "in" => onTwo fun a b => match Datum.contains b a with
    | .ok found => found
    | .error _ => false
  | "true" => onOne fun d => match d with
    | .bool b => b
    | _ => false
  | "false" => onOne fun d => match d with
    | .bool b => !b
    | _ => false
  | _ => none
where
  /-- Whether a datum is safe text. -/
  isSafe : Datum → Bool
    | .text _ safe => safe
    | _ => false
  /-- Whether a datum is an integer. -/
  isInteger : Datum → Bool
    | .integer _ => true
    | _ => false
  /-- Whether a datum comes before another. -/
  isLess (a b : Datum) : Bool := Datum.compare a b == .lt

end Check

end Stencil.Template
