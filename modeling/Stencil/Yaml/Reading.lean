import Stencil.Yaml.Node

/-!
# From nodes to values

Any document can be read as a value: a tag of YAML's own is obeyed, one of the application's is an
error, since no value has a place for it. The keys of a map are taken as they are written. Where a
document is read for something definite, a text or a list, it is read by what is expected there:
any scalar will do as a text, and nothing at all as an empty list.
-/

namespace Stencil.Yaml

/-- What a tag asks for. -/
inductive TagKind where
  /-- No tag. -/
  | none
  /-- A tag of the application. -/
  | own
  | bool
  | integer
  | decimal
  | null
  /-- Any other tag, which makes a scalar a text. -/
  | other
  deriving DecidableEq

/-- What the tag of a node asks for. -/
def TagKind.ofTag : Option String → TagKind
  | .none => .none
  | some tag =>
    if tag.startsWith "!" then .own
    else if tag = "tag:yaml.org,2002:bool" then .bool
    else if tag = "tag:yaml.org,2002:int" then .integer
    else if tag = "tag:yaml.org,2002:float" then .decimal
    else if tag = "tag:yaml.org,2002:null" then .null
    else .other

/-- The value of a plain scalar. -/
def plainValue? (text : String) : Option Value :=
  match Plain.ofString text with
  | .null => some .null
  | .bool b => some (.bool b)
  | .integer n => some (.integer n)
  | .outOfRange => none
  | .decimal x => some (Value.ofFloat x)
  | .text => some (.text text)

/-- The value of a scalar. -/
def scalarValue? (tag : Option String) (written : Notation) (text : String) : Option Value :=
  match TagKind.ofTag tag with
  | .none => if written = .plain then plainValue? text else some (.text text)
  | .own => none
  | .bool => (bool? text).map .bool
  | .integer =>
    match integer? text.toList with
    | some n => if Value.minInteger ≤ n && n ≤ Value.maxInteger then some (.integer n) else none
    | none => none
  | .decimal => (decimal? text).map Value.ofFloat
  | .null => if isNull text then some .null else none
  | .other => some (.text text)

namespace Node

/-- The text of a scalar, whatever it means. -/
def text? : Node → Option String
  | .scalar _ _ text => some text
  | _ => none

/-- Whether a node is a plain scalar without characters, which is what stands where nothing is
written. -/
def isBlank : Node → Bool
  | .scalar _ .plain text => text.isEmpty
  | _ => false

mutual

/-- The value of a node. -/
def value? : Node → Option Value
  | .scalar tag written text => scalarValue? tag written text
  | .sequence tag items =>
    if TagKind.ofTag tag = .own then none else (values? items).map .list
  | .mapping tag entries =>
    if TagKind.ofTag tag = .own then none else (entryValues? entries).map Value.ofEntries
  | .alias _ => none
  | .anchored _ node => node.value?

/-- The values of the items of a sequence. -/
def values? : List Node → Option (List Value)
  | [] => some []
  | item :: rest => do
    let value ← item.value?
    let values ← values? rest
    some (value :: values)

/-- The entries of a mapping, with their keys as they are written. -/
def entryValues? : List (Node × Node) → Option (Entries Value)
  | [] => some []
  | (key, item) :: rest => do
    let key ← key.text?
    let value ← item.value?
    let entries ← entryValues? rest
    some ((key, value) :: entries)

end

/-- Whether a node is left out or says `null`, where something may be left out. -/
def isMissing? : Node → Option Bool
  | .scalar tag .plain text =>
    match tag with
    | some tag =>
      if tag = "tag:yaml.org,2002:null" then if isNull text then some true else none
      else some false
    | none => some (text.isEmpty || isNull text)
  | _ => some false

/-- Reads something that may be left out. -/
def optional? {α : Type} (read? : Node → Option α) (node : Node) : Option (Option α) := do
  if ← node.isMissing? then some none else (read? node).map some

/-- Reads a truth value. -/
def flag? : Node → Option Bool
  | .scalar tag written text =>
    if written = .plain || (written = .literal && tag = some "tag:yaml.org,2002:bool") then bool? text
    else none
  | _ => none

/-- Reads a list of things of one kind. -/
def listOf? {α : Type} (read? : Node → Option α) : Node → Option (List α)
  | .sequence _ items => items.mapM read?
  | node => if node.isBlank then some [] else none

/-- Reads the entries of a mapping. -/
def mapping? : Node → Option (List (Node × Node))
  | .mapping _ entries => some entries
  | node => if node.isBlank then some [] else none

end Node

/-- The value of a text that holds one document. -/
def read? (text : String) : Option Value := do (← Node.ofString? text).value?

end Stencil.Yaml
