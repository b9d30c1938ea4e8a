import Stencil.Yaml.Lexer
import Stencil.Yaml.Scalar

/-!
# Nodes: what a document says

A document is a tree of scalars, sequences and mappings. An alias stands for the node with its
anchor. Anchors are told apart by number: a name gets the count of different names so far, so a name
that is given again may share its number with a name that comes later, and the later node counts for
both.

`Node.ofString?` reads a stream of exactly one document and replaces its aliases. Nesting is limited
to 128 collections, aliases included, which also ends a node that contains itself; and the aliases
followed may not be more than a hundred times the parts of the document.
-/

namespace Stencil.Yaml

/-- A node of a document. -/
inductive Node where
  | scalar (tag : Option String) (written : Notation) (text : String)
  | sequence (tag : Option String) (items : List Node)
  | mapping (tag : Option String) (entries : List (Node × Node))
  /-- The node whose anchor has the number. -/
  | alias (id : Nat)
  /-- A node with the number of its anchor. -/
  | anchored (id : Nat) (node : Node)
  deriving Inhabited

/-- The handles of tags and what they stand for. -/
abbrev TagTable := List (String × String)

/-- The handles that need no directive. -/
def defaultTags : TagTable := [("!", "!"), ("!!", "tag:yaml.org,2002:")]

/-- What is left to read, and the anchors so far with their numbers. -/
structure NodeReader where
  tokens : List Token
  anchors : List (String × Nat)
  tags : TagTable

namespace NodeReader

/-- A node that is left out. -/
def absent (tag : Option String := none) : Node := .scalar tag .plain ""

/-- Goes on behind the first tokens. -/
def skip (reader : NodeReader) (n : Nat) : NodeReader := { reader with tokens := reader.tokens.drop n }

/-- The full text of a tag, if its handle is known. -/
def resolveTag? (reader : NodeReader) (handle suffix : String) : Option String :=
  if handle.isEmpty then some suffix
  else (reader.tags.lookup handle).map (· ++ suffix)

/-- Reads an anchor and a tag, in either order. -/
def properties? (reader : NodeReader) :
    Option (Option String × Option (String × String) × NodeReader) :=
  match reader.tokens with
  | .anchor name :: .tag handle suffix :: _ => some (some name, some (handle, suffix), reader.skip 2)
  | .anchor name :: _ => some (some name, none, reader.skip 1)
  | .tag handle suffix :: .anchor name :: _ => some (some name, some (handle, suffix), reader.skip 2)
  | .tag handle suffix :: _ => some (none, some (handle, suffix), reader.skip 1)
  | _ => some (none, none, reader)

/-- Gives an anchor its number. -/
def number (reader : NodeReader) (name : Option String) : Option Nat × NodeReader :=
  match name with
  | none => (none, reader)
  | some name =>
    let id := reader.anchors.length
    let anchors :=
      if (reader.anchors.lookup name).isSome then
        reader.anchors.map fun (other, old) => if other = name then (other, id) else (other, old)
      else reader.anchors ++ [(name, id)]
    (some id, { reader with anchors })

end NodeReader

/-- A node with the number of its anchor, if it has one. -/
def Node.withAnchor (node : Node) : Option Nat → Node
  | none => node
  | some id => .anchored id node

/-- Whether a list of tokens goes on with something other than a node of a block. -/
def endsBlockNode : List Token → Bool
  | .key :: _ => true
  | .value :: _ => true
  | .blockEnd :: _ => true
  | _ => false

/-- Whether a list of tokens goes on with the end of an entry in brackets. -/
def endsFlowEntry (close : Token) : List Token → Bool
  | .flowEntry :: _ => true
  | token :: _ => token = close
  | [] => false

mutual

/-- Reads a node. Block collections may start where `inBlock` is set, and a sequence without a block
of its own, as the value of a key, where `indentless` is. -/
def NodeReader.node? : Nat → Bool → Bool → NodeReader → Option (Node × NodeReader)
  | 0, _, _, _ => none
  | fuel + 1, inBlock, indentless, reader =>
    match reader.tokens with
    | .alias name :: _ =>
      (reader.anchors.lookup name).map fun id => (.alias id, reader.skip 1)
    | _ =>
      match reader.properties? with
      | none => none
      | some (anchor, written, reader) =>
        let tag? : Option (Option String) := match written with
          | none => some none
          | some (handle, suffix) => (reader.resolveTag? handle suffix).map some
        match tag? with
        | none => none
        | some tag =>
          let (id, reader) := reader.number anchor
          let finish (result : Option (Node × NodeReader)) : Option (Node × NodeReader) :=
            result.map fun (node, reader) => (node.withAnchor id, reader)
          match reader.tokens with
          | .scalar written text :: _ =>
            finish (some (.scalar (if tag = some "!" then none else tag) written text, reader.skip 1))
          | .flowSequenceStart :: _ =>
            finish ((NodeReader.flowItems? fuel true [] (reader.skip 1)).map
              fun (items, reader) => (.sequence tag items, reader))
          | .flowMappingStart :: _ =>
            finish ((NodeReader.flowEntries? fuel true [] (reader.skip 1)).map
              fun (entries, reader) => (.mapping tag entries, reader))
          | token :: _ =>
            if indentless && token = .blockEntry then
              finish ((NodeReader.indentlessItems? fuel [] reader).map
                fun (items, reader) => (.sequence tag items, reader))
            else if inBlock && token = .blockSequenceStart then
              finish ((NodeReader.blockItems? fuel [] (reader.skip 1)).map
                fun (items, reader) => (.sequence tag items, reader))
            else if inBlock && token = .blockMappingStart then
              finish ((NodeReader.blockEntries? fuel [] (reader.skip 1)).map
                fun (entries, reader) => (.mapping tag entries, reader))
            else if anchor.isSome || tag.isSome then finish (some (NodeReader.absent tag, reader))
            else none
          | [] => none

/-- Reads the items of a block sequence. -/
def NodeReader.blockItems? : Nat → List Node → NodeReader → Option (List Node × NodeReader)
  | 0, _, _ => none
  | fuel + 1, acc, reader =>
    match reader.tokens with
    | .blockEnd :: _ => some (acc.reverse, reader.skip 1)
    | .blockEntry :: next =>
      let reader := reader.skip 1
      match next with
      | .blockEntry :: _ => NodeReader.blockItems? fuel (NodeReader.absent :: acc) reader
      | .blockEnd :: _ => NodeReader.blockItems? fuel (NodeReader.absent :: acc) reader
      | _ =>
        match NodeReader.node? fuel true false reader with
        | none => none
        | some (item, reader) => NodeReader.blockItems? fuel (item :: acc) reader
    | _ => none

/-- Reads the items of a sequence that has no block of its own. -/
def NodeReader.indentlessItems? : Nat → List Node → NodeReader → Option (List Node × NodeReader)
  | 0, _, _ => none
  | fuel + 1, acc, reader =>
    match reader.tokens with
    | .blockEntry :: next =>
      let reader := reader.skip 1
      let empty := endsBlockNode next || next.head? == some .blockEntry
      if empty then NodeReader.indentlessItems? fuel (NodeReader.absent :: acc) reader
      else
        match NodeReader.node? fuel true false reader with
        | none => none
        | some (item, reader) => NodeReader.indentlessItems? fuel (item :: acc) reader
    | _ => some (acc.reverse, reader)

/-- Reads the entries of a block mapping. -/
def NodeReader.blockEntries? :
    Nat → List (Node × Node) → NodeReader → Option (List (Node × Node) × NodeReader)
  | 0, _, _ => none
  | fuel + 1, acc, reader =>
    match reader.tokens with
    | .blockEnd :: _ => some (acc.reverse, reader.skip 1)
    | .key :: next =>
      let reader := reader.skip 1
      let key? :=
        if endsBlockNode next then some (NodeReader.absent, reader)
        else NodeReader.node? fuel true true reader
      match key? with
      | none => none
      | some (key, reader) =>
        let value? := match reader.tokens with
          | .value :: next =>
            let reader := reader.skip 1
            if endsBlockNode next then some (NodeReader.absent, reader)
            else NodeReader.node? fuel true true reader
          | _ => some (NodeReader.absent, reader)
        match value? with
        | none => none
        | some (value, reader) => NodeReader.blockEntries? fuel ((key, value) :: acc) reader
    | _ => none

/-- Reads the items of a sequence in brackets; behind the first one a comma comes before each. -/
def NodeReader.flowItems? : Nat → Bool → List Node → NodeReader → Option (List Node × NodeReader)
  | 0, _, _, _ => none
  | fuel + 1, first, acc, reader =>
    match reader.tokens with
    | .flowSequenceEnd :: _ => some (acc.reverse, reader.skip 1)
    | tokens =>
      let reader? :=
        if first then some reader
        else if tokens.head? == some .flowEntry then some (reader.skip 1)
        else none
      match reader? with
      | none => none
      | some reader =>
        match reader.tokens with
        | .flowSequenceEnd :: _ => some (acc.reverse, reader.skip 1)
        | .key :: next =>
          -- A key in a sequence is a mapping of one entry.
          let reader := reader.skip 1
          let key? :=
            if endsFlowEntry .flowSequenceEnd next || next.head? == some .value then
              some (NodeReader.absent, reader.skip 1)
            else NodeReader.node? fuel false false reader
          match key? with
          | none => none
          | some (key, reader) =>
            let value? := match reader.tokens with
              | .value :: next =>
                let reader := reader.skip 1
                if endsFlowEntry .flowSequenceEnd next then some (NodeReader.absent, reader)
                else NodeReader.node? fuel false false reader
              | _ => some (NodeReader.absent, reader)
            match value? with
            | none => none
            | some (value, reader) =>
              NodeReader.flowItems? fuel false (.mapping none [(key, value)] :: acc) reader
        | _ =>
          match NodeReader.node? fuel false false reader with
          | none => none
          | some (item, reader) => NodeReader.flowItems? fuel false (item :: acc) reader

/-- Reads the entries of a mapping in braces; behind the first one a comma comes before each. -/
def NodeReader.flowEntries? :
    Nat → Bool → List (Node × Node) → NodeReader → Option (List (Node × Node) × NodeReader)
  | 0, _, _, _ => none
  | fuel + 1, first, acc, reader =>
    match reader.tokens with
    | .flowMappingEnd :: _ => some (acc.reverse, reader.skip 1)
    | tokens =>
      let reader? :=
        if first then some reader
        else if tokens.head? == some .flowEntry then some (reader.skip 1)
        else none
      match reader? with
      | none => none
      | some reader =>
        match reader.tokens with
        | .flowMappingEnd :: _ => some (acc.reverse, reader.skip 1)
        | .key :: next =>
          let reader := reader.skip 1
          let key? :=
            if endsFlowEntry .flowMappingEnd next || next.head? == some .value then
              some (NodeReader.absent, reader)
            else NodeReader.node? fuel false false reader
          match key? with
          | none => none
          | some (key, reader) =>
            let value? := match reader.tokens with
              | .value :: next =>
                let reader := reader.skip 1
                if endsFlowEntry .flowMappingEnd next then some (NodeReader.absent, reader)
                else NodeReader.node? fuel false false reader
              | _ => some (NodeReader.absent, reader)
            match value? with
            | none => none
            | some (value, reader) =>
              NodeReader.flowEntries? fuel false ((key, value) :: acc) reader
        | _ =>
          match NodeReader.node? fuel false false reader with
          | none => none
          | some (key, reader) =>
            NodeReader.flowEntries? fuel false ((key, NodeReader.absent) :: acc) reader

end

/-! ## Documents -/

/-- Reads directives up to the start of the document. A version is 1.1 or 1.2 and given once; a
handle is given once. -/
def directives? : List Token → Bool → TagTable → Option (TagTable × List Token)
  | .versionDirective major minor :: rest, versionSeen, tags =>
    if versionSeen || major ≠ 1 || (minor ≠ 1 && minor ≠ 2) then none
    else directives? rest true tags
  | .tagDirective handle uri :: rest, versionSeen, tags =>
    if (tags.lookup handle).isSome then none
    else directives? rest versionSeen (tags ++ [(handle, uri)])
  | .documentStart :: rest, _, tags => some (tags, rest)
  | _, _, _ => none

/-- Whether a document without content ends here. -/
def endsDocument : List Token → Bool
  | .versionDirective _ _ :: _ => true
  | .tagDirective _ _ :: _ => true
  | .documentStart :: _ => true
  | .documentEnd :: _ => true
  | .streamEnd :: _ => true
  | _ => false

/-- Whether a document starts here with a directive or its mark. -/
def startsExplicitly : List Token → Bool
  | .versionDirective _ _ :: _ => true
  | .tagDirective _ _ :: _ => true
  | .documentStart :: _ => true
  | _ => false

/-- The only document of a stream, its aliases still in place. -/
def Node.ofTokens? (tokens : List Token) : Option Node :=
  let fuel := 2 * tokens.length + 4
  let result? : Option (Node × List Token) :=
    if tokens.head? == some .streamEnd then some (NodeReader.absent, tokens)
    else if startsExplicitly tokens then do
      let (tags, rest) ← directives? tokens false []
      if endsDocument rest then some (NodeReader.absent, rest)
      else
        let (node, reader) ← NodeReader.node? fuel true false
          { tokens := rest, anchors := [], tags := tags ++ defaultTags }
        some (node, reader.tokens)
    else do
      let (node, reader) ← NodeReader.node? fuel true false
        { tokens, anchors := [], tags := defaultTags }
      some (node, reader.tokens)
  match result? with
  | some (node, rest) =>
    if rest.dropWhile (· = .documentEnd) == [.streamEnd] then some node else none
  | none => none

mutual

/-- The anchored nodes in a node with their numbers, in the order in which they start. -/
def Node.anchors : Node → List (Nat × Node)
  | .scalar _ _ _ => []
  | .alias _ => []
  | .sequence _ items => Node.anchoredItems items
  | .mapping _ entries => Node.anchoredEntries entries
  | .anchored id node => (id, node) :: node.anchors

/-- The anchored nodes among the items of a sequence. -/
def Node.anchoredItems : List Node → List (Nat × Node)
  | [] => []
  | item :: rest => item.anchors ++ Node.anchoredItems rest

/-- The anchored nodes among the entries of a mapping. -/
def Node.anchoredEntries : List (Node × Node) → List (Nat × Node)
  | [] => []
  | (key, value) :: rest => key.anchors ++ value.anchors ++ Node.anchoredEntries rest

end

mutual

/-- How many parts a node has: one for a scalar or an alias, two for a collection and those of what
it holds. -/
def Node.parts : Node → Nat
  | .scalar _ _ _ => 1
  | .alias _ => 1
  | .sequence _ items => 2 + Node.partsOfItems items
  | .mapping _ entries => 2 + Node.partsOfEntries entries
  | .anchored _ node => node.parts

/-- The parts of the items of a sequence. -/
def Node.partsOfItems : List Node → Nat
  | [] => 0
  | item :: rest => item.parts + Node.partsOfItems rest

/-- The parts of the entries of a mapping. -/
def Node.partsOfEntries : List (Node × Node) → Nat
  | [] => 0
  | (key, value) :: rest => key.parts + value.parts + Node.partsOfEntries rest

end

/-- How deep collections may be nested. -/
def maxDepth : Nat := 128

/-- The node that an alias stands for, any other node without its anchor. The state is the number of
aliases that may still be followed. -/
def Node.target? (table : List (Nat × Node)) : Node → StateT Nat Option Node
  | .alias id => do
    let left ← get
    match left, table.lookup id with
    | left + 1, some node => do
      set left
      pure node
    | _, _ => failure
  | .anchored _ node => pure node
  | node => pure node

/-- Replaces the aliases in a node that may still open so many levels. -/
def Node.resolve? (table : List (Nat × Node)) : Nat → Node → StateT Nat Option Node
  | 0, node => do
    match ← node.target? table with
    | .scalar tag written text => pure (.scalar tag written text)
    | _ => failure
  | depth + 1, node => do
    match ← node.target? table with
    | .scalar tag written text => pure (.scalar tag written text)
    | .sequence tag items => do
      pure (.sequence tag (← items.mapM (Node.resolve? table depth)))
    | .mapping tag entries => do
      let resolved ← entries.mapM fun (key, value) => do
        let key ← Node.resolve? table depth key
        let value ← Node.resolve? table depth value
        pure (key, value)
      pure (.mapping tag resolved)
    | _ => failure

/-- The document of a text that holds exactly one, its aliases replaced. -/
def Node.ofString? (text : String) : Option Node := do
  let node ← Node.ofTokens? (← Token.ofString? text)
  -- The later of two nodes with one number counts.
  let table := node.anchors.reverse
  let (resolved, _) ← (Node.resolve? table maxDepth node).run (100 * node.parts)
  some resolved

end Stencil.Yaml
