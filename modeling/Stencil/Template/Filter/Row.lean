import Stencil.Template.Arguments
import Stencil.Template.Operation
import Stencil.Text.Letter
import Stencil.Text.Split

/-!
# Filters on lists, streams and maps
-/

namespace Stencil.Template.Filter

/-- What a row has behind each other; a fault names what was tried. -/
def rowOf (tried : String) (d : Datum) : Except Cause (List Datum) :=
  match d.items? with
  | some items => .ok items
  | none => .error (.invalid tried)

/-- An attribute, which nothing has no more of. -/
def attributeOf (name : String) (d : Datum) : Except Cause Datum :=
  match d with
  | .undefined => .error .undefinedValue
  | d => .ok ((d.attribute? name).getD .undefined)

/-- What a key leads to. -/
def itemOf (key d : Datum) : Except Cause Datum :=
  match d with
  | .undefined => .error .undefinedValue
  | d => .ok ((d.item? key).getD .undefined)

/-- The number that a piece of a way is, if it is one. -/
def index? (piece : List Char) : Option Nat :=
  let digits := match piece with
    | '+' :: rest => rest
    | chars => chars
  if digits ≠ [] && digits.all Decimal.isDigit then some (Decimal.ofDigits digits) else none

/-- Follows a way of attributes and places with points between them. -/
def follow (way : String) (d : Datum) : Except Cause Datum :=
  (Text.splitOn '.' way.toList).foldlM (fun d piece =>
    match index? piece with
    | some n => itemOf (.integer n) d
    | none => attributeOf (String.ofList piece) d) d

/-- Follows a way to its end, or gives a default. -/
def followOr (way : String) (default d : Datum) : Datum :=
  match follow way d with
  | .ok .undefined => default
  | .ok found => found
  | .error _ => default

/-- The order of data, in which texts may count without their case. -/
def order (caseCounts : Bool) (a b : Datum) : Ordering :=
  if caseCounts then Datum.compare a b
  else match a, b with
    | .text s _, .text t _ => Datum.compare (.ofString s.toLower) (.ofString t.toLower)
    | a, b => Datum.compare a b

/-- Sorts by keys; what is equal keeps its order. -/
def sortOn (key : Datum → Datum) (caseCounts : Bool) (items : List Datum) : List Datum :=
  items.mergeSort fun a b => order caseCounts (key a) (key b) != .gt

/-- A row backwards. -/
def backwards (d : Datum) : Except Cause Datum :=
  match d with
  | .undefined => .ok .undefined
  | .none => .ok .none
  | .text s _ => .ok (.ofString (String.ofList s.toList.reverse))
  | d =>
    match d.items? with
    | some items => .ok (.stream items.reverse true)
    | none => .error (.invalid ("cannot reverse values of type " ++ d.kind.name))

/-- Texts behind each other; a separator comes only where something stands before it. -/
def joinTexts (mark : String) (parts : List String) : String :=
  parts.foldl (fun acc part => if acc.isEmpty then part else acc ++ mark ++ part) ""

/-- The least item, the first of several. -/
def least : List Datum → Datum
  | [] => .undefined
  | x :: rest => rest.foldl (fun a b => if Datum.compare b a == .lt then b else a) x

/-- The greatest item, the last of several. -/
def greatest : List Datum → Datum
  | [] => .undefined
  | x :: rest => rest.foldl (fun a b => if Datum.compare b a == .lt then a else b) x

/-- A row in parts of a size. -/
def partsOf (size : Nat) : Nat → List Datum → List (List Datum)
  | 0, _ => []
  | _ + 1, [] => []
  | fuel + 1, items => items.take size :: partsOf size fuel (items.drop size)

/-- A row in parts of a size; the last one may be filled up. -/
def batches (size : Nat) (filler? : Option Datum) (items : List Datum) : List Datum :=
  (partsOf size items.length items).map fun part =>
    match filler? with
    | some filler => .list (part ++ List.replicate (size - part.length) filler)
    | none => .list part

/-- A row in so many parts, the first ones longer by one where it does not come out even; the others
may be filled up. -/
def columns (count : Nat) (filler? : Option Datum) (items : List Datum) : List Datum :=
  let size := items.length / count
  let longer := items.length % count
  (List.range count).map fun i =>
    let start := i * size + min i longer
    let part := (items.drop start).take (if i < longer then size + 1 else size)
    match filler? with
    | some filler => .list (if longer ≤ i then part ++ [filler] else part)
    | none => .list part

/-- The sum of a row. -/
def total (items : List Datum) : Except Cause Datum :=
  items.foldlM (fun acc d => match d with
    | .undefined => .ok acc
    | d => Datum.add acc d) (.integer 0)

/-- Drops items whose keys were there before. -/
def distinctOn (key : Datum → Datum) : List Datum → List Datum → List Datum
  | _, [] => []
  | seen, x :: rest =>
    if seen.any fun k => Datum.compare k (key x) == .eq then distinctOn key seen rest
    else x :: distinctOn key (key x :: seen) rest

/-- Puts neighbours with equal keys together. The name of a group is the key of its last item. -/
def groupsFrom (same : Datum → Datum → Bool) (key : Datum → Datum) :
    List Datum → List Datum → List Datum
  | members, [] =>
    match members with
    | [] => []
    | last :: _ => [.group (key last) members.reverse]
  | [], x :: rest => groupsFrom same key [x] rest
  | last :: members, x :: rest =>
    if same (key last) (key x) then groupsFrom same key (x :: last :: members) rest
    else .group (key last) (last :: members).reverse :: groupsFrom same key [x] rest

/-- Rows side by side, as long as all have an item. -/
def sideBySide : Nat → List (List Datum) → List Datum
  | 0, _ => []
  | fuel + 1, rows =>
    match rows.mapM List.head? with
    | some heads => .list heads :: sideBySide fuel (rows.map (List.drop 1))
    | none => []

/-- The entries of a map. -/
def entriesOf? : Datum → Option (List (Datum × Datum))
  | .map entries => some entries
  | .named entries => some (entries.map fun entry => (.ofString entry.1, entry.2))
  | _ => none

/-- Rows behind each other, maps as one map in which the last entry of a name counts. -/
def chained (parts : List Datum) : Datum :=
  match parts.mapM entriesOf? with
  | some entries => Datum.ofPairs entries.flatten
  | none =>
    let items := (parts.map fun part => (part.items?).getD []).flatten
    if parts.all fun part => part.kind = .sequence then .list items else .stream items false

/-- The entries of a map in an order. -/
def sortedEntries (byValue caseCounts backward : Bool) (entries : List (Datum × Datum)) :
    List Datum :=
  let key (entry : Datum × Datum) : Datum := if byValue then entry.2 else entry.1
  let sorted := entries.mergeSort fun a b => order caseCounts (key a) (key b) != .gt
  (if backward then sorted.reverse else sorted).map fun entry => .list [entry.1, entry.2]

/-- The key by which items are told apart: texts count without their case unless it counts. -/
def tellingKey (caseCounts : Bool) (d : Datum) : Datum :=
  match d with
  | .text s _ => if caseCounts then d else .ofString (Stencil.Text.lower s)
  | d => d

/-- The number of items. -/
def count : Reading Datum := do
  let d ← Reading.datum
  match d.length? with
  | some n => pure (.integer n)
  | none => throw (.invalid ("cannot calculate length of value of type " ++ d.kind.name))

open Reading in
/-- The filters on rows. -/
def row? (name : String) : Option (List Datum → Except Cause Datum) :=
  match name with
  | "length" => some <| run count
  | "count" => some <| run count
  | "items" => some <| run do
      let d ← datum
      match entriesOf? d with
      | some entries => pure (.stream (entries.map fun entry => .list [entry.1, entry.2]) true)
      | none => throw (.invalid "cannot convert value into pair list")
  | "dictsort" => some <| runNamed do
      let d ← datum
      let sortBy? ← namedOptional "by" asText
      let caseCounts ← namedOptional "case_sensitive" asBool
      let backward ← namedOptional "reverse" asBool
      match entriesOf? d with
      | some entries =>
        let byValue ← match sortBy? with
          | none => pure false
          | some "key" => pure false
          | some "value" => pure true
          | some other => throw (.invalid ("invalid value '" ++ other ++ "' for 'by' parameter"))
        pure (.list (sortedEntries byValue (caseCounts.getD false) (backward.getD false) entries))
      | none => throw (.invalid "cannot convert value into pair list")
  | "reverse" => some <| run do
      let d ← datum
      ofExcept (backwards d)
  | "join" => some <| run do
      let d ← datum
      let mark := (← optional asShown).getD ""
      match d.items? with
      | some items => pure (.ofString (joinTexts mark (items.map Datum.display)))
      | none => throw (.invalid ("cannot join value of type " ++ d.kind.name))
  | "first" => some <| run do
      let d ← datum
      match d with
      | .undefined => throw (.invalid "cannot get first item from value")
      | .none => throw (.invalid "cannot get first item from value")
      | d =>
        let items ← ofExcept (rowOf "cannot get first item from value" d)
        pure (items.head?.getD .undefined)
  | "last" => some <| run do
      let d ← datum
      if d.kind = .text || d.kind = .sequence || d.kind = .stream then
        pure ((d.items?.bind List.getLast?).getD .undefined)
      else throw (.invalid "cannot get last item from value")
  | "min" => some <| run do
      let d ← datum
      least <$> ofExcept (rowOf "cannot convert value to list" d)
  | "max" => some <| run do
      let d ← datum
      greatest <$> ofExcept (rowOf "cannot convert value to list" d)
  | "sort" => some <| runNamed do
      let d ← datum
      let items ← ofExcept (rowOf "cannot convert value to list" d)
      let caseCounts := (← namedOptional "case_sensitive" asBool).getD false
      let way? ← namedOptional "attribute" asText
      let backward := (← namedOptional "reverse" asBool).getD false
      let sorted := match way? with
        | some way => sortOn (followOr way .undefined) caseCounts items
        | none => sortOn id caseCounts items
      pure (.list (if backward then sorted.reverse else sorted))
  | "list" => some <| run do
      let d ← datum
      .list <$> ofExcept (rowOf "cannot convert value to list" d)
  | "batch" => some <| run do
      let d ← datum
      let size ← required asCount
      let filler? ← optional asAny
      if size = 0 then throw (.invalid "count cannot be 0")
      let items ← ofExcept (rowOf (d.kind.name ++ " is not iterable") d)
      pure (.list (batches size filler? items))
  | "slice" => some <| run do
      let d ← datum
      let size ← required asCount
      let filler? ← optional asAny
      if size = 0 then throw (.invalid "count cannot be 0")
      let items ← ofExcept (rowOf (d.kind.name ++ " is not iterable") d)
      pure (.list (columns size filler? items))
  | "sum" => some <| run do
      let d ← datum
      let items ← ofExcept (rowOf (d.kind.name ++ " is not iterable") d)
      ofExcept (total items)
  | "unique" => some <| runNamed do
      let d ← datum
      let caseCounts := (← namedOptional "case_sensitive" asBool).getD false
      let way? ← namedOptional "attribute" asText
      let items ← ofExcept (rowOf (d.kind.name ++ " is not iterable") d)
      let key (x : Datum) : Datum := tellingKey caseCounts <| match way? with
        | some way => followOr way .undefined x
        | none => x
      pure (.list (distinctOn key [] items))
  | "groupby" => some <| runNamed do
      let d ← datum
      let way? ← optional asText
      let default := (← namedOptional "default" asAny).getD .undefined
      let caseCounts := (← namedOptional "case_sensitive" asBool).getD false
      let way ← match way? with
        | some way => pure way
        | none => do
          match ← namedOptional "attribute" asText with
          | some way => pure way
          | none => throw .missingArgument
      let items ← ofExcept (rowOf (d.kind.name ++ " is not iterable") d)
      let key := followOr way default
      pure (.list (groupsFrom (fun a b => order caseCounts a b == .eq) key []
        (sortOn key caseCounts items)))
  | "chain" => some <| run do
      let d ← datum
      let others ← remaining
      pure (chained (d :: others))
  | "zip" => some <| run do
      let d ← datum
      let others ← remaining
      let rows ← ofExcept ((d :: others).mapM fun part =>
        rowOf ("zip filter argument must be iterable, got " ++ part.kind.name) part)
      pure (.stream (sideBySide ((rows.map List.length).foldl max 0) rows) false)
  | _ => none

end Stencil.Template.Filter
