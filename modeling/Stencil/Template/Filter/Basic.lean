import Stencil.Template.Check
import Stencil.Template.Filter.Format
import Stencil.Template.Filter.Number
import Stencil.Template.Filter.Row
import Stencil.Template.Filter.Text

/-!
# Filters

A filter makes one datum of another and of its arguments. Most are found by their names alone; `escape`
depends on how the output is escaped just now, and a few take the name of another filter or of a check
along with arguments for it. Those hand on fewer arguments than they got, so the chain of filters comes to
an end.
-/

namespace Stencil.Template.Filter

/-- The JSON text of a datum, safe to be put into a page. -/
def pageJson (layout : Datum.JsonLayout) (d : Datum) : Except Cause Datum :=
  match d.json? layout 0 with
  | none => .error .notSerializable
  | some json =>
    let hide (c : Char) : List Char :=
      if c = '<' then "\\u003c".toList
      else if c = '>' then "\\u003e".toList
      else if c = '&' then "\\u0026".toList
      else if c = '\'' then "\\u0027".toList
      else [c]
    .ok (.text (String.ofList (json.toList.flatMap hide)) true)

/-- How JSON text is to be laid out. -/
def jsonIndent (d : Datum) : Except Cause Datum.JsonLayout :=
  match d with
  | .bool true => .ok (some 2)
  | .bool false => .ok none
  | d => (Reading.asCount d).map some

/-- A default for what is missing, and also for what counts as false if that is asked for. -/
def orDefault (d : Datum) (other? : Option Datum) (lax : Bool) : Datum :=
  let other := other?.getD (.ofString "")
  match d with
  | .undefined => other
  | d => if lax && !d.isTrue then other else d

open Reading in
/-- The filters that need no others. -/
def simple? (mode : Escaping) (name : String) : Option (List Datum → Except Cause Datum) :=
  match name with
  | "default" => some default
  | "d" => some default
  | "attr" => some <| run do
      let d ← datum
      let key ← datum
      ofExcept (itemOf key d)
  | "escape" => some escape
  | "e" => some escape
  | "pprint" => some <| run do
      let d ← datum
      pure (.ofString (d.pretty 0))
  | "tojson" => some <| runNamed do
      let d ← datum
      let layout? ← optional jsonIndent
      let named? ← namedOptional "indent" jsonIndent
      ofExcept (pageJson (layout?.getD (named?.getD none)) d)
  | "format" => some format
  | other => (text? other).or ((row? other).or (number? other))
where
  /-- A datum, or a default for it. -/
  default (args : List Datum) : Except Cause Datum :=
    run (do
      let d ← datum
      let other? ← optional asAny
      let lax ← optional asBool
      pure (orDefault d other? (lax.getD false))) args
  /-- A datum as it is written in markup. -/
  escape (args : List Datum) : Except Cause Datum :=
    run (do
      let d ← datum
      match d with
      | .text s true => pure (.text s true)
      | d =>
        let s ← ofExcept ((if mode = .none then Escaping.markup else mode).apply d)
        pure (.text s true)) args

/-- Whether an item is kept: whether it, or what a way leads to from it, passes a check or counts as
true. -/
def passes (way? : Option String) (check? : Option (List Datum → Except Cause Bool))
    (args : List Datum) (d : Datum) : Except Cause Bool := do
  let tested ← match way? with
    | some way => follow way d
    | none => pure d
  match check? with
  | some check => check (tested :: args)
  | none => pure tested.isTrue

/-- A check by the name that is given, if one is. -/
def checkNamed (name? : Option String) :
    Except Cause (Option (List Datum → Except Cause Bool)) :=
  match name? with
  | none => .ok none
  | some name =>
    match Check.find? name with
    | some check => .ok (some check)
    | none => .error (.unknownCheck name)

/-- The items that pass a check, or those that do not. -/
def selected (keep : Bool) (way? : Option String) (name? : Option String) (args : List Datum)
    (d : Datum) : Except Cause Datum := do
  let check? ← checkNamed name?
  let items ← rowOf (d.kind.name ++ " is not iterable") d
  let kept ← items.filterMapM fun x => do
    let passed ← passes way? check? args x
    pure (if passed = keep then some x else none)
  pure (.list kept)

open Reading in
/-- Keeps the items that pass a check, or those that do not. -/
def select (keep byAttribute : Bool) (args : List Datum) : Except Cause Datum :=
  run (do
    let d ← datum
    let way? ← if byAttribute then some <$> required asShown else pure none
    let name? ← optional asShown
    let others ← remaining
    ofExcept (selected keep way? name? others d)) args

/-- What a way or a key leads to from an item, or a default. -/
def attributeOr (key : Datum) (default : Datum) (d : Datum) : Except Cause Datum :=
  let found := match key with
    | .text way _ => follow way d
    | key => itemOf key d
  match found with
  | .ok .undefined => .ok default
  | .ok found => .ok found
  | .error cause =>
    match default with
    | .undefined => .error cause
    | default => .ok default

/-- Puts the items of a row through a filter, or takes an attribute of each. -/
def mapped (find? : String → Option (List Datum → Except Cause Datum)) (args : List Datum) :
    Except Cause Datum :=
  match args with
  | [] => .error .missingArgument
  | d :: rest => do
    let (positional, named) := match rest.getLast? with
      | some (.named entries) => (rest.dropLast, entries)
      | _ => (rest, [])
    let items ← rowOf (d.kind.name ++ " is not iterable") d
    match Entries.get? "attribute" named with
    | some key =>
      if positional.isEmpty then
        let default := (Entries.get? "default" named).getD .undefined
        (items.mapM (attributeOr key default)).map .list
      else .error .tooManyArguments
    | none =>
      match positional with
      | [] => .error (.invalid "filter name is required")
      | .text name _ :: more =>
        match find? name with
        | some filter => (items.mapM fun x => filter (x :: more)).map .list
        | none => .error (.unknownFilter name)
      | _ => .error (.invalid "filter name must be a string")

/-- A filter by its name. Of the filters that take others along, only so many may be nested. -/
def find? (mode : Escaping) : Nat → String → Option (List Datum → Except Cause Datum)
  | 0, name => simple? mode name
  | more + 1, name =>
    match name with
    | "select" => some (select true false)
    | "reject" => some (select false false)
    | "selectattr" => some (select true true)
    | "rejectattr" => some (select false true)
    | "map" => some (mapped (find? mode more))
    | other => simple? mode other

/-- Applies a filter to a datum and its arguments. -/
def apply (mode : Escaping) (name : String) (args : List Datum) : Except Cause Datum :=
  match find? mode (args.length + 1) name with
  | some filter => filter args
  | none => .error (.unknownFilter name)

end Stencil.Template.Filter
