import Stencil.Decimal.Binary
import Stencil.Decimal.Reading
import Stencil.Value

/-!
# What expressions stand for

The values of variables, and what only templates have: nothing at all where a variable is missing, text
that is known to be safe, streams, functions, macros, loops and namespaces.

A map is kept sorted by its keys, which may be anything, in the order that `compare` defines: first by
kind, then by contents. Namespaces change while a template is rendered and loops move on, so a datum only
names them; they are kept apart (`Stencil.Template.Machine`).
-/

namespace Stencil.Template

/-- The functions that every template has. -/
inductive Builtin where
  | range
  | dict
  | debug
  | namespace
  | include
  | toFile
  | os
  | arch
  | joinSingleQuote
  | joinDoubleQuote
  deriving DecidableEq, Inhabited

/-- What shows of a macro, and where it is kept. -/
structure MacroHead where
  /-- The place of its body. -/
  place : Nat
  /-- The rendering that made it, outside of which it cannot be called. -/
  home : Nat
  name : String
  parameters : List String
  usesCaller : Bool
  deriving DecidableEq, Inhabited

/-- What an expression stands for. -/
inductive Datum where
  /-- What a missing variable stands for. -/
  | undefined
  | none
  | bool (b : Bool)
  | integer (n : Int)
  | decimal (x : Float)
  /-- Text, and whether it is safe to be put into markup. -/
  | text (s : String) (safe : Bool)
  | list (items : List Datum)
  /-- Items that are made one after the other, and whether their number is known beforehand. -/
  | stream (items : List Datum) (counted : Bool)
  | map (entries : List (Datum × Datum))
  /-- Named arguments. -/
  | named (entries : List (String × Datum))
  /-- Items that have something in common. -/
  | group (common : Datum) (items : List Datum)
  | function (f : Builtin)
  | macroRef (head : MacroHead)
  | loop (place : Nat)
  | space (place : Nat)
  /-- What lets a template write files. -/
  | writer (label : String)
  /-- Something that only has a text. -/
  | label (text : String)
  deriving Inhabited

/-- The kinds of data, in their order. -/
inductive Kind where
  | undefined
  | none
  | bool
  | number
  | text
  | bytes
  | sequence
  | map
  | stream
  | plain
  deriving DecidableEq, Inhabited

/-- The place of a kind in the order of kinds. -/
def Kind.rank : Kind → Nat
  | .undefined => 0
  | .none => 1
  | .bool => 2
  | .number => 3
  | .text => 4
  | .bytes => 5
  | .sequence => 6
  | .map => 7
  | .stream => 8
  | .plain => 9

/-- The name of a kind. -/
def Kind.name : Kind → String
  | .undefined => "undefined"
  | .none => "none"
  | .bool => "bool"
  | .number => "number"
  | .text => "string"
  | .bytes => "bytes"
  | .sequence => "sequence"
  | .map => "map"
  | .stream => "iterator"
  | .plain => "plain object"

namespace Datum

/-- Text that is not known to be safe. -/
def ofString (s : String) : Datum := .text s false

/-- The kind of a datum. -/
def kind : Datum → Kind
  | .undefined => .undefined
  | .none => .none
  | .bool _ => .bool
  | .integer _ => .number
  | .decimal _ => .number
  | .text _ _ => .text
  | .list _ => .sequence
  | .stream _ _ => .stream
  | .map _ => .map
  | .named _ => .map
  | .group _ _ => .sequence
  | .function _ => .plain
  | .macroRef _ => .plain
  | .loop _ => .map
  | .space _ => .map
  | .writer _ => .plain
  | .label _ => .plain

/-- The least integer that can be computed with. -/
def minInteger : Int := -170141183460469231731687303715884105728

/-- The largest integer that can be computed with. -/
def maxInteger : Int := 170141183460469231731687303715884105727

/-- An integer if it can be computed with. -/
def inRange? (n : Int) : Option Int :=
  if minInteger ≤ n && n ≤ maxInteger then some n else Option.none

/-- The integer that a datum stands for, if it does. -/
def toInt? : Datum → Option Int
  | .bool b => some (if b then 1 else 0)
  | .integer n => inRange? n
  | .decimal x => if Decimal.isWhole x then inRange? (Decimal.wholePart x) else Option.none
  | _ => Option.none

/-- The double nearest to an integer. -/
def floatOf (n : Int) : Float := Decimal.toFloat (n < 0) n.natAbs 0

/-- The double nearest to a datum, if it is a number or a truth value. -/
def toFloat? : Datum → Option Float
  | .bool b => some (if b then 1.0 else 0.0)
  | .integer n => some (floatOf n)
  | .decimal x => some x
  | _ => Option.none

/-- The double that is equal to a datum. -/
def toFloatExactly? (d : Datum) : Option Float :=
  match d with
  | .integer n =>
    let x := floatOf n
    if Decimal.wholePart x = n then some x else Option.none
  | other => other.toFloat?

/-- Two data brought into one form, in which they can be computed with. -/
inductive Pair where
  | integers (a b : Int)
  | decimals (a b : Float)
  | texts (a b : String)

/-- Brings two data into one form; a number becomes a decimal beside one, exactly if that is asked
for. -/
def pair? (exactly : Bool) (a b : Datum) : Option Pair :=
  let decimal? (d : Datum) : Option Float := if exactly then d.toFloatExactly? else d.toFloat?
  match a, b with
  | .text s _, .text t _ => some (.texts s t)
  | .decimal x, _ => (decimal? b).map fun y => .decimals x y
  | _, .decimal y => (decimal? a).map fun x => .decimals x y
  | _, _ =>
    match a.toInt?, b.toInt? with
    | some m, some n => some (.integers m n)
    | _, _ => Option.none

/-- Whether a datum counts as true. -/
def isTrue : Datum → Bool
  | .undefined => false
  | .none => false
  | .bool b => b
  | .integer n => n != 0
  | .decimal x => x != 0.0
  | .text s _ => !s.isEmpty
  | .list items => !items.isEmpty
  | .stream items counted => !counted || !items.isEmpty
  | .map entries => !entries.isEmpty
  | .named entries => !entries.isEmpty
  | _ => true

/-- The text that a datum is, if it is text. -/
def text? : Datum → Option String
  | .text s _ => some s
  | _ => Option.none

/-- The order of two numbers or texts that were brought into one form. -/
def comparePair : Pair → Ordering
  | .integers a b => Ord.compare a b
  | .decimals a b => Ord.compare (Decimal.orderKey a) (Decimal.orderKey b)
  | .texts a b => if a < b then .lt else if a = b then .eq else .gt

mutual

/-- The order of data: by kind, then by contents; of rows, by the first items that differ. -/
def compare (a b : Datum) : Ordering :=
  match Ord.compare a.kind.rank b.kind.rank with
  | .lt => .lt
  | .gt => .gt
  | .eq =>
    match a, b with
    | .list xs, .list ys => compareAll xs ys
    | .stream xs _, .stream ys _ => compareAll xs ys
    | .group x xs, .group y ys =>
      match compare x y with
      | .eq => compareAll xs ys
      | other => other
    | .map xs, .map ys => compareEntries xs ys
    | .named xs, .named ys => compareNamed xs ys
    | a, b =>
      match pair? true a b with
      | some pair => comparePair pair
      | Option.none => .eq

/-- The order of rows. -/
def compareAll : List Datum → List Datum → Ordering
  | [], [] => .eq
  | [], _ => .lt
  | _, [] => .gt
  | x :: xs, y :: ys =>
    match compare x y with
    | .eq => compareAll xs ys
    | other => other

/-- The order of maps. -/
def compareEntries : List (Datum × Datum) → List (Datum × Datum) → Ordering
  | [], [] => .eq
  | [], _ => .lt
  | _, [] => .gt
  | (k, x) :: xs, (l, y) :: ys =>
    match compare k l with
    | .eq =>
      match compare x y with
      | .eq => compareEntries xs ys
      | other => other
    | other => other

/-- The order of named arguments. -/
def compareNamed : List (String × Datum) → List (String × Datum) → Ordering
  | [], [] => .eq
  | [], _ => .lt
  | _, [] => .gt
  | (k, x) :: xs, (l, y) :: ys =>
    if k < l then .lt
    else if k = l then
      match compare x y with
      | .eq => compareNamed xs ys
      | other => other
    else .gt

end

mutual

/-- Whether two data are equal. Numbers are equal across their forms, and so are lists and streams. -/
def same (a b : Datum) : Bool :=
  match a, b with
  | .undefined, .undefined => true
  | .none, .none => true
  | .list xs, .list ys => sameAll xs ys
  | .list xs, .stream ys _ => sameAll xs ys
  | .stream xs _, .list ys => sameAll xs ys
  | .stream xs _, .stream ys _ => sameAll xs ys
  | .group x xs, .group y ys => same x y && sameAll xs ys
  | .map xs, .map ys => sameEntries xs ys
  | .named xs, .named ys => sameNamed xs ys
  | .function f, .function g => f = g
  | .macroRef m, .macroRef n => m = n
  | .loop i, .loop j => i = j
  | .space i, .space j => i = j
  | .writer s, .writer t => s = t
  | .label s, .label t => s = t
  | a, b =>
    match pair? true a b with
    | some (.integers m n) => m = n
    | some (.decimals x y) => x == y
    | some (.texts s t) => s = t
    | Option.none => false

/-- Whether two rows are equal. -/
def sameAll : List Datum → List Datum → Bool
  | [], [] => true
  | x :: xs, y :: ys => same x y && sameAll xs ys
  | _, _ => false

/-- Whether two maps are equal. -/
def sameEntries : List (Datum × Datum) → List (Datum × Datum) → Bool
  | [], [] => true
  | (k, x) :: xs, (l, y) :: ys => same k l && same x y && sameEntries xs ys
  | _, _ => false

/-- Whether named arguments are equal. -/
def sameNamed : List (String × Datum) → List (String × Datum) → Bool
  | [], [] => true
  | (k, x) :: xs, (l, y) :: ys => k == l && same x y && sameNamed xs ys
  | _, _ => false

end

/-! ## Maps -/

/-- Gives a key a value in a sorted map. -/
def insertEntry (key value : Datum) : List (Datum × Datum) → List (Datum × Datum)
  | [] => [(key, value)]
  | (other, old) :: rest =>
    match compare key other with
    | .lt => (key, value) :: (other, old) :: rest
    | .eq => (other, value) :: rest
    | .gt => (other, old) :: insertEntry key value rest

/-- A map of entries; of several with one key the last counts. -/
def ofPairs (entries : List (Datum × Datum)) : Datum :=
  .map (entries.foldl (fun acc entry => insertEntry entry.1 entry.2 acc) [])

/-- The value of a key in a map. -/
def valueOf? (key : Datum) (entries : List (Datum × Datum)) : Option Datum :=
  (entries.find? fun entry => compare entry.1 key == .eq).map Prod.snd

mutual

/-- A variable's value as a datum. -/
def ofValue : Value → Datum
  | .null => .none
  | .bool b => .bool b
  | .integer n => .integer n
  | .decimal x => .decimal x
  | .text s => ofString s
  | .list items => .list (ofValues items)
  | .map entries => .map (ofEntries entries)

/-- The items of a list as data. -/
def ofValues : List Value → List Datum
  | [] => []
  | item :: rest => ofValue item :: ofValues rest

/-- The entries of a map as data. -/
def ofEntries : List (String × Value) → List (Datum × Datum)
  | [] => []
  | (key, item) :: rest => (ofString key, ofValue item) :: ofEntries rest

end

/-! ## Rows -/

/-- What a row has behind each other: the items of a list, the keys of a map, the characters of a text.
What is missing has nothing. -/
def items? : Datum → Option (List Datum)
  | .undefined => some []
  | .none => some []
  | .text s _ => some (s.toList.map fun c => ofString (String.singleton c))
  | .list items => some items
  | .stream items _ => some items
  | .map entries => some (entries.map Prod.fst)
  | .named entries => some (entries.map fun entry => ofString entry.1)
  | .group common items => some [common, .list items]
  | _ => Option.none

/-- The number of items, if it is known. -/
def length? : Datum → Option Nat
  | .undefined => Option.none
  | .none => Option.none
  | .stream _ false => Option.none
  | d => d.items?.map List.length

/-- The item at a place; a negative place counts from the end. -/
def nth? (items : List Datum) (place : Int) : Option Datum :=
  if place < 0 then
    if place.natAbs ≤ items.length then items[items.length - place.natAbs]? else Option.none
  else items[place.toNat]?

/-- An attribute, by its name. -/
def attribute? (name : String) : Datum → Option Datum
  | .map entries => valueOf? (ofString name) entries
  | .named entries => Entries.get? name entries
  | .group common items =>
    if name = "grouper" then some common
    else if name = "list" then some (.list items)
    else Option.none
  | .macroRef head =>
    if name = "name" then some (ofString head.name)
    else if name = "arguments" then some (.list (head.parameters.map ofString))
    else if name = "caller" then some (.bool head.usesCaller)
    else Option.none
  | _ => Option.none

/-- What a key leads to: an entry of a map, an item of a row, a character of a text. -/
def item? (d key : Datum) : Option Datum :=
  match d with
  | .map entries => valueOf? key entries
  | .text _ _ => do nth? (← d.items?) (← key.toInt?)
  | .list items => do nth? items (← key.toInt?)
  | .stream items _ => do nth? items (← key.toInt?)
  | .group _ _ =>
    match key with
    | .text name _ => d.attribute? name
    | _ => do nth? (← d.items?) (← key.toInt?)
  | _ =>
    match key with
    | .text name _ => d.attribute? name
    | _ => Option.none

end Datum

end Stencil.Template
