import Stencil.Manifest.Basic
import Stencil.Yaml.Reading

/-!
# Drafts: manifests as they are written

A draft has the fields of a manifest with whatever stands in them, and the names of the fields that no
manifest has. A text is a draft if every field that a manifest does have occurs at most once and is of
the right kind; a field that is left out is empty.
-/

namespace Stencil

/-- A declaration as it is written. -/
structure Declaration.Draft where
  name? : Option String
  description? : Option String
  default? : Option Value
  sample? : Option Value
  validate? : Option Bool
  /-- The fields that no declaration has, in the order in which they come first. -/
  unknown : List String
  deriving Inhabited

/-- The configuration of a manifest as it is written. -/
structure Configuration.Draft where
  configuration : Configuration
  unknown : List String
  deriving Inhabited

/-- A manifest as it is written. -/
structure Manifest.Draft where
  name? : Option String
  description? : Option String
  templateVersion : Value
  manifestVersion : Value
  authors : List String
  license? : Option String
  configuration : Configuration.Draft
  declarations : List Declaration.Draft
  unknown : List String
  deriving Inhabited

namespace Yaml.Node

mutual

/-- Whether a field that nobody asked for can be passed over: its values are values, and the keys in
it are texts. -/
def isSkippable : Node → Bool
  | .scalar tag written text => (scalarValue? tag written text).isSome
  | .sequence tag items => TagKind.ofTag tag ≠ .own && areSkippable items
  | .mapping tag entries => TagKind.ofTag tag ≠ .own && areEntriesSkippable entries
  | .alias _ => false
  | .anchored _ node => node.isSkippable

/-- Whether the items of a sequence can be passed over. -/
def areSkippable : List Node → Bool
  | [] => true
  | item :: rest => item.isSkippable && areSkippable rest

/-- Whether the entries of a mapping can be passed over. -/
def areEntriesSkippable : List (Node × Node) → Bool
  | [] => true
  | (key, value) :: rest =>
    (match key with
      | .scalar tag written text =>
        match scalarValue? tag written text with
        | some (.text _) => true
        | _ => false
      | _ => false)
    && value.isSkippable && areEntriesSkippable rest

end

/-- The fields of a mapping. -/
def fields? (node : Node) : Option (Entries Node) := do
  (← node.mapping?).mapM fun (key, value) => do some (← key.text?, value)

/-- Reads a field that may be left out but not repeated. -/
def field? {α : Type} (fields : Entries Node) (name : String) (missing : α)
    (read? : Node → Option α) : Option α :=
  match fields.filter (fun field => field.1 = name) with
  | [] => some missing
  | [(_, node)] => read? node
  | _ => none

/-- The names of the fields that are not among the known ones, if all of those can be passed over. -/
def unknownFields? (fields : Entries Node) (known : List String) : Option (List String) :=
  let unknown := fields.filter fun field => !known.contains field.1
  if unknown.all fun field => field.2.isSkippable then
    some (Entries.names (Entries.distinct unknown))
  else none

end Yaml.Node

open Yaml (Node)

/-- Reads a declaration. -/
def Declaration.Draft.ofNode? (node : Node) : Option Declaration.Draft := do
  let fields ← node.fields?
  let name? ← Node.field? fields "name" none (Node.optional? Node.text?)
  let description? ← Node.field? fields "description" none (Node.optional? Node.text?)
  let default? ← Node.field? fields "default" none (Node.optional? Node.value?)
  let sample? ← Node.field? fields "example" none (Node.optional? Node.value?)
  let validate? ← Node.field? fields "validate" none (Node.optional? Node.flag?)
  let unknown ← Node.unknownFields? fields ["name", "description", "default", "example", "validate"]
  some { name?, description?, default?, sample?, validate?, unknown }

/-- Reads the configuration. -/
def Configuration.Draft.ofNode? (node : Node) : Option Configuration.Draft := do
  let fields ← node.fields?
  let ignorePaths ← Node.field? fields "ignore_paths" [] (Node.listOf? Node.text?)
  let postCloneCommands ←
    Node.field? fields "post_clone_commands" [] (Node.listOf? (Node.listOf? Node.text?))
  let unknown ← Node.unknownFields? fields ["ignore_paths", "post_clone_commands"]
  some { configuration := { ignorePaths, postCloneCommands }, unknown }

/-- Reads a manifest. -/
def Manifest.Draft.ofNode? (node : Node) : Option Manifest.Draft := do
  let fields ← node.fields?
  let name? ← Node.field? fields "name" none (Node.optional? Node.text?)
  let description? ← Node.field? fields "description" none (Node.optional? Node.text?)
  let templateVersion ← Node.field? fields "template_version" .null Node.value?
  let manifestVersion ← Node.field? fields "manifest_version" .null Node.value?
  let authors ← Node.field? fields "authors" [] (Node.listOf? Node.text?)
  let license? ← Node.field? fields "license" none (Node.optional? Node.text?)
  let configuration ← Node.field? fields "configuration"
    { configuration := { ignorePaths := [], postCloneCommands := [] }, unknown := [] }
    Configuration.Draft.ofNode?
  let declarations ← Node.field? fields "variables" [] (Node.listOf? Declaration.Draft.ofNode?)
  let unknown ← Node.unknownFields? fields
    ["name", "description", "template_version", "manifest_version", "authors", "license",
      "configuration", "variables"]
  some { name?, description?, templateVersion, manifestVersion, authors, license?, configuration,
         declarations, unknown }

/-- Reads a manifest from the text of its file. -/
def Manifest.Draft.ofString? (text : String) : Option Manifest.Draft := do
  Manifest.Draft.ofNode? (← Node.ofString? text)

end Stencil
