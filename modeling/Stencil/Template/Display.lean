import Stencil.Decimal.Layout
import Stencil.Json.Writer
import Stencil.Template.Datum
import Stencil.Template.Fault
import Stencil.Text.Printable

/-!
# The text of data

Data are printed in three ways: as text for the output, where a text is itself; as JSON; and in detail,
where a text stands between quotes, which is also how the items of lists and maps look in the output. A
detailed text may be laid out over several lines.
-/

namespace Stencil.Template

/-- The output has no exponents. -/
def outputLayout : Decimal.Layout := { from? := none, to? := none, plusSign := false }

/-- In detail, decimals from `0.0001` to below `10^16` have no exponent. -/
def detailLayout : Decimal.Layout := { from? := some (-4), to? := some 15, plusSign := false }

/-- The text of a decimal, finite or not. -/
def decimalText (layout : Decimal.Layout) (x : Float) : String :=
  if x.isNaN then "NaN"
  else if x.isInf then (if x > 0.0 then "inf" else "-inf")
  else layout.render x

/-- The text of a truth value. -/
def boolText (b : Bool) : String := if b then "True" else "False"

/-- The text of a function. -/
def Builtin.label : Builtin → String
  | .range => "minijinja::functions::builtins::range"
  | .dict => "minijinja::functions::builtins::dict"
  | .debug => "minijinja::functions::builtins::debug"
  | .namespace => "minijinja::functions::builtins::namespace"
  | .include => "cloney::renderer::include"
  | .toFile => "cloney::renderer::to_file"
  | .os => "cloney::renderer::os"
  | .arch => "cloney::renderer::arch"
  | .joinSingleQuote => "cloney::renderer::join_single_quote"
  | .joinDoubleQuote => "cloney::renderer::join_double_quote"

namespace Datum

mutual

/-- The text of a datum in detail. -/
def detail : Datum → String
  | .undefined => "undefined"
  | .none => "None"
  | .bool b => boolText b
  | .integer n => Json.integerText n
  | .decimal x => decimalText detailLayout x
  | .text s _ => Text.debug s
  | .list items => "[" ++ ", ".intercalate (details items) ++ "]"
  | .stream items _ => "[" ++ ", ".intercalate (details items) ++ "]"
  | .map entries => "\x7b" ++ ", ".intercalate (entryDetails entries) ++ "\x7d"
  | .named entries => "\x7b" ++ ", ".intercalate (namedDetails entries) ++ "\x7d"
  | .group common items =>
    "[" ++ detail common ++ ", [" ++ ", ".intercalate (details items) ++ "]]"
  | .function f => f.label
  | .macroRef head => "<macro " ++ head.name ++ ">"
  | .loop _ => "<loop>"
  | .space _ => "\x7b\x7d"
  | .writer shown => shown
  | .label shown => shown

/-- The texts of items in detail. -/
def details : List Datum → List String
  | [] => []
  | item :: rest => detail item :: details rest

/-- The texts of entries in detail. -/
def entryDetails : List (Datum × Datum) → List String
  | [] => []
  | (key, item) :: rest => (detail key ++ ": " ++ detail item) :: entryDetails rest

/-- The texts of named arguments in detail. -/
def namedDetails : List (String × Datum) → List String
  | [] => []
  | (key, item) :: rest => (Text.debug key ++ ": " ++ detail item) :: namedDetails rest

end

/-- The text of a datum in the output. -/
def display : Datum → String
  | .undefined => ""
  | .decimal x => decimalText outputLayout x
  | .text s _ => s
  | d => d.detail

/-- Lines further in. -/
def indented (depth : Nat) : String := String.ofList (List.replicate (4 * depth) ' ')

/-- Rows between brackets, one a line. -/
def bracketed (front back : String) (depth : Nat) (rows : List String) : String :=
  if rows.isEmpty then front ++ back
  else front ++ "\n" ++ "".intercalate (rows.map fun row => indented (depth + 1) ++ row ++ ",\n")
    ++ indented depth ++ back

mutual

/-- The text of a datum in detail, laid out over lines. -/
def pretty (depth : Nat) : Datum → String
  | .list items => bracketed "[" "]" depth (prettyAll (depth + 1) items)
  | .stream items _ => bracketed "[" "]" depth (prettyAll (depth + 1) items)
  | .map entries => bracketed "\x7b" "\x7d" depth (prettyEntries (depth + 1) entries)
  | .named entries => bracketed "\x7b" "\x7d" depth (prettyNamed (depth + 1) entries)
  | .group common items => bracketed "[" "]" depth [pretty (depth + 1) common,
      bracketed "[" "]" (depth + 1) (prettyAll (depth + 2) items)]
  | d => d.detail

/-- The texts of items, laid out over lines. -/
def prettyAll (depth : Nat) : List Datum → List String
  | [] => []
  | item :: rest => pretty depth item :: prettyAll depth rest

/-- The texts of entries, laid out over lines. -/
def prettyEntries (depth : Nat) : List (Datum × Datum) → List String
  | [] => []
  | (key, item) :: rest =>
    (pretty depth key ++ ": " ++ pretty depth item) :: prettyEntries depth rest

/-- The texts of named arguments, laid out over lines. -/
def prettyNamed (depth : Nat) : List (String × Datum) → List String
  | [] => []
  | (key, item) :: rest =>
    (Text.debug key ++ ": " ++ pretty depth item) :: prettyNamed depth rest

end

/-! ## JSON -/

/-- How JSON text is laid out: on one line, or over lines with so many blanks a level. -/
abbrev JsonLayout := Option Nat

/-- Rows of JSON text between brackets. -/
def jsonRows (layout : JsonLayout) (depth : Nat) (front back : String) (rows : List String) :
    String :=
  if rows.isEmpty then front ++ back
  else match layout with
    | Option.none => front ++ ",".intercalate rows ++ back
    | some width =>
      let blanks (depth : Nat) : String := String.ofList (List.replicate (width * depth) ' ')
      front ++ "\n" ++ ",\n".intercalate (rows.map fun row => blanks (depth + 1) ++ row) ++ "\n"
        ++ blanks depth ++ back

/-- The JSON text of a key, if it has one. -/
def jsonKey? : Datum → Option String
  | .text s _ => some (Json.quote s)
  | .integer n => some ("\"" ++ Json.integerText n ++ "\"")
  | .bool b => some (if b then "\"true\"" else "\"false\"")
  | .decimal x =>
    if x.isFinite then some ("\"" ++ Json.decimalLayout.render x ++ "\"") else Option.none
  | _ => Option.none

mutual

/-- The JSON text of a datum, if it has one. -/
def json? (layout : JsonLayout) (depth : Nat) : Datum → Option String
  | .undefined => some "null"
  | .none => some "null"
  | .bool b => some (if b then "true" else "false")
  | .integer n => some (Json.integerText n)
  | .decimal x => some (if x.isFinite then Json.decimalLayout.render x else "null")
  | .text s _ => some (Json.quote s)
  | .list items => (jsonAll? layout (depth + 1) items).map (jsonRows layout depth "[" "]")
  | .stream items _ => (jsonAll? layout (depth + 1) items).map (jsonRows layout depth "[" "]")
  | .map entries =>
    (jsonEntries? layout (depth + 1) entries).map (jsonRows layout depth "\x7b" "\x7d")
  | .named entries =>
    (jsonNamed? layout (depth + 1) entries).map (jsonRows layout depth "\x7b" "\x7d")
  | .group common items => do
    let first ← json? layout (depth + 1) common
    let rows ← jsonAll? layout (depth + 2) items
    some (jsonRows layout depth "[" "]" [first, jsonRows layout (depth + 1) "[" "]" rows])
  | d => some (Json.quote d.display)

/-- The JSON texts of items. -/
def jsonAll? (layout : JsonLayout) (depth : Nat) : List Datum → Option (List String)
  | [] => some []
  | item :: rest => do
    let first ← json? layout depth item
    let others ← jsonAll? layout depth rest
    some (first :: others)

/-- The JSON texts of entries. -/
def jsonEntries? (layout : JsonLayout) (depth : Nat) : List (Datum × Datum) → Option (List String)
  | [] => some []
  | (key, item) :: rest => do
    let name ← jsonKey? key
    let value ← json? layout depth item
    let others ← jsonEntries? layout depth rest
    some ((name ++ (if layout.isSome then ": " else ":") ++ value) :: others)

/-- The JSON texts of named arguments. -/
def jsonNamed? (layout : JsonLayout) (depth : Nat) : List (String × Datum) → Option (List String)
  | [] => some []
  | (key, item) :: rest => do
    let value ← json? layout depth item
    let others ← jsonNamed? layout depth rest
    some ((Json.quote key ++ (if layout.isSome then ": " else ":") ++ value) :: others)

end

end Datum

/-! ## Markup -/

/-- A character as it is written in markup. -/
def markupChar (c : Char) : List Char :=
  if c = '<' then "&lt;".toList
  else if c = '>' then "&gt;".toList
  else if c = '&' then "&amp;".toList
  else if c = '"' then "&quot;".toList
  else if c = '\'' then "&#x27;".toList
  else if c = '/' then "&#x2f;".toList
  else [c]

/-- A text as it is written in markup. -/
def markup (s : String) : String := String.ofList (s.toList.flatMap markupChar)

/-- What is done to data before they are put into the output. -/
inductive Escaping where
  | none
  | markup
  | json
  deriving DecidableEq, Inhabited

/-- The text of a datum for the output. -/
def Escaping.apply (mode : Escaping) (d : Datum) : Except Cause String :=
  match mode, d with
  | _, .text s true => .ok s
  | .none, d => .ok d.display
  | .markup, d =>
    match d.kind with
    | .undefined => .ok d.display
    | .none => .ok d.display
    | .bool => .ok d.display
    | .number => .ok d.display
    | _ => .ok (Stencil.Template.markup d.display)
  | .json, d =>
    match d.json? Option.none 0 with
    | some text => .ok text
    | Option.none => .error .notSerializable

end Stencil.Template
