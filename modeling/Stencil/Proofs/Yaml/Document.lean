import Mathlib.Data.List.Forall2
import Stencil.Yaml.Node

/-!
# Documents of blocks

A document of block mappings, block sequences and scalars, without tags, anchors and aliases, is read
back from its tokens and resolves to itself. What stands in a block is told by its tokens and its node
(`Reads`), so that blocks are put together without regard to what they hold.
-/

namespace Stencil.Yaml

/-- The tokens of a block sequence, given those of its items. -/
def sequenceTokens (items : List (List Token)) : List Token :=
  .blockSequenceStart :: items.flatMap (.blockEntry :: ·) ++ [.blockEnd]

/-- The tokens of an entry of a block mapping, given its key and the tokens of its value. -/
def entryTokens (entry : String × List Token) : List Token :=
  .key :: .scalar .plain entry.1 :: .value :: entry.2

/-- The tokens of a block mapping, given its keys and the tokens of its values. -/
def mappingTokens (entries : List (String × List Token)) : List Token :=
  .blockMappingStart :: entries.flatMap entryTokens ++ [.blockEnd]

/-- Whether a node of a block may start with a token; not if it ends one or belongs to what is around
it. -/
def Token.startsNode : Token → Bool
  | .scalar _ _ => true
  | .blockSequenceStart => true
  | .blockMappingStart => true
  | _ => false

/-- Wherever a node of a block may stand, the tokens are read as the node. -/
structure Reads (tokens : List Token) (node : Node) : Prop where
  head : ∃ token rest, tokens = token :: rest ∧ token.startsNode = true
  node? : ∀ (fuel : Nat) (indentless : Bool) (rest : List Token) (tags : TagTable),
    tokens.length ≤ fuel →
      NodeReader.node? fuel true indentless ⟨tokens ++ rest, [], tags⟩ = some (node, ⟨rest, [], tags⟩)

theorem reads_scalar (written : Notation) (text : String) :
    Reads [.scalar written text] (.scalar none written text) := by
  refine ⟨⟨_, _, rfl, rfl⟩, fun fuel _ _ _ hfuel => ?_⟩
  obtain ⟨fuel, rfl⟩ : ∃ n, fuel = n + 1 := ⟨fuel - 1, by simp at hfuel; omega⟩
  rfl

/-- The tokens of an entry are read as its key and its value. -/
def ReadsEntry (entry : String × List Token) (nodes : Node × Node) : Prop :=
  nodes.1 = .scalar none .plain entry.1 ∧ Reads entry.2 nodes.2

section

variable {tags : TagTable} {rest : List Token}

/-- Behind the hyphen of an item comes its node. -/
theorem blockItems?_item {fuel : Nat} {acc : List Node} {token : Token} (h : token.startsNode = true) :
    NodeReader.blockItems? (fuel + 1) acc ⟨.blockEntry :: token :: rest, [], tags⟩ =
      (NodeReader.node? fuel true false ⟨token :: rest, [], tags⟩).bind fun (item, reader) =>
        NodeReader.blockItems? fuel (item :: acc) reader := by
  rw [NodeReader.blockItems?]
  cases token <;> first
    | exact absurd h Bool.false_ne_true
    | (simp only [NodeReader.skip, List.drop_succ_cons, List.drop_zero]
       cases NodeReader.node? fuel true false _ <;> rfl)

theorem blockItems?_reads {items : List (List Token)} {nodes : List Node}
    (h : List.Forall₂ Reads items nodes) {fuel : Nat} (acc : List Node)
    (rest : List Token) (tags : TagTable) (hfuel : (items.flatMap (Token.blockEntry :: ·)).length < fuel) :
    NodeReader.blockItems? fuel acc
        ⟨items.flatMap (Token.blockEntry :: ·) ++ .blockEnd :: rest, [], tags⟩ =
      some (acc.reverse ++ nodes, ⟨rest, [], tags⟩) := by
  induction h generalizing fuel acc with
  | nil =>
    obtain ⟨fuel, rfl⟩ : ∃ n, fuel = n + 1 := ⟨fuel - 1, by omega⟩
    simp [NodeReader.blockItems?, NodeReader.skip]
  | @cons item node items nodes hitem _ ih =>
    obtain ⟨fuel, rfl⟩ : ∃ n, fuel = n + 1 := ⟨fuel - 1, by omega⟩
    simp only [List.flatMap_cons, List.length_append, List.length_cons] at hfuel
    have hread := hitem.node? fuel false (items.flatMap (Token.blockEntry :: ·) ++ .blockEnd :: rest)
      tags (by omega)
    obtain ⟨token, more, rfl, htoken⟩ := hitem.head
    simp only [List.cons_append] at hread
    simp only [List.flatMap_cons, List.cons_append, List.append_assoc, blockItems?_item htoken, hread,
      Option.bind_some, ih _ (show _ < fuel by omega)]
    simp

theorem reads_sequence {items : List (List Token)} {nodes : List Node}
    (h : List.Forall₂ Reads items nodes) : Reads (sequenceTokens items) (.sequence none nodes) := by
  refine ⟨⟨_, _, rfl, rfl⟩, fun fuel indentless rest tags hfuel => ?_⟩
  simp only [sequenceTokens, List.cons_append, List.length_cons, List.length_append] at hfuel
  obtain ⟨fuel, rfl⟩ : ∃ n, fuel = n + 1 := ⟨fuel - 1, by omega⟩
  have hitems := blockItems?_reads h [] rest tags (show _ < fuel by omega)
  simp only [sequenceTokens, List.cons_append, List.append_assoc, List.nil_append]
  simp only [NodeReader.node?, NodeReader.properties?, NodeReader.number, NodeReader.skip]
  simp [hitems, Node.withAnchor]

/-- Behind a key and its colon comes the node of the value. -/
theorem blockEntries?_entry {fuel : Nat} {acc : List (Node × Node)} {key : String} {token : Token}
    (h : token.startsNode = true) :
    NodeReader.blockEntries? (fuel + 2) acc
        ⟨.key :: .scalar .plain key :: .value :: token :: rest, [], tags⟩ =
      (NodeReader.node? (fuel + 1) true true ⟨token :: rest, [], tags⟩).bind fun (value, reader) =>
        NodeReader.blockEntries? (fuel + 1) ((.scalar none .plain key, value) :: acc) reader := by
  have hkey (rest : List Token) :
      NodeReader.node? (fuel + 1) true true ⟨.scalar .plain key :: rest, [], tags⟩ =
        some (.scalar none .plain key, ⟨rest, [], tags⟩) := rfl
  rw [NodeReader.blockEntries?]
  simp only [NodeReader.skip, List.drop_succ_cons, List.drop_zero, endsBlockNode, hkey,
    Bool.false_eq_true, if_false]
  cases token <;> first
    | exact absurd h Bool.false_ne_true
    | (simp only [Bool.false_eq_true, if_false]
       cases NodeReader.node? (fuel + 1) true true _ <;> rfl)

theorem blockEntries?_reads {entries : List (String × List Token)} {nodes : List (Node × Node)}
    (h : List.Forall₂ ReadsEntry entries nodes) {fuel : Nat} (acc : List (Node × Node))
    (rest : List Token) (tags : TagTable) (hfuel : (entries.flatMap entryTokens).length < fuel) :
    NodeReader.blockEntries? fuel acc
        ⟨entries.flatMap entryTokens ++ .blockEnd :: rest, [], tags⟩ =
      some (acc.reverse ++ nodes, ⟨rest, [], tags⟩) := by
  induction h generalizing fuel acc with
  | nil =>
    obtain ⟨fuel, rfl⟩ : ∃ n, fuel = n + 1 := ⟨fuel - 1, by omega⟩
    simp [NodeReader.blockEntries?, NodeReader.skip]
  | @cons entry node entries nodes hentry _ ih =>
    obtain ⟨key, value⟩ := entry
    obtain ⟨keyNode, valueNode⟩ := node
    obtain ⟨hkey, hvalue⟩ := hentry
    dsimp only at hkey hvalue
    subst hkey
    simp only [List.flatMap_cons, entryTokens, List.length_append, List.length_cons] at hfuel
    obtain ⟨fuel, rfl⟩ : ∃ n, fuel = n + 2 := ⟨fuel - 2, by omega⟩
    have hread := hvalue.node? (fuel + 1) true (entries.flatMap entryTokens ++ .blockEnd :: rest) tags
      (by omega)
    obtain ⟨token, more, rfl, htoken⟩ := hvalue.head
    simp only [List.cons_append] at hread
    simp only [List.flatMap_cons, entryTokens, List.cons_append, List.append_assoc,
      blockEntries?_entry htoken, hread, Option.bind_some, ih _ (show _ < fuel + 1 by omega)]
    simp

theorem reads_mapping {entries : List (String × List Token)} {nodes : List (Node × Node)}
    (h : List.Forall₂ ReadsEntry entries nodes) : Reads (mappingTokens entries) (.mapping none nodes) := by
  refine ⟨⟨_, _, rfl, rfl⟩, fun fuel indentless rest tags hfuel => ?_⟩
  simp only [mappingTokens, List.cons_append, List.length_cons, List.length_append] at hfuel
  obtain ⟨fuel, rfl⟩ : ∃ n, fuel = n + 1 := ⟨fuel - 1, by omega⟩
  have hentries := blockEntries?_reads h [] rest tags (show _ < fuel by omega)
  simp only [mappingTokens, List.cons_append, List.append_assoc, List.nil_append]
  simp only [NodeReader.node?, NodeReader.properties?, NodeReader.number, NodeReader.skip]
  simp [hentries, Node.withAnchor]

/-- A stream of one block mapping. -/
theorem ofTokens?_mapping {entries : List (String × List Token)} {node : Node}
    (h : Reads (mappingTokens entries) node) :
    Node.ofTokens? (mappingTokens entries ++ [.streamEnd]) = some node := by
  have hread := h.node? (2 * (mappingTokens entries ++ [Token.streamEnd]).length + 4) false
    [.streamEnd] defaultTags (by simp; omega)
  have hhead : (mappingTokens entries ++ [Token.streamEnd]).head? = some .blockMappingStart := rfl
  have hexplicit : startsExplicitly (mappingTokens entries ++ [Token.streamEnd]) = false := rfl
  simp only [Node.ofTokens?, hhead, hexplicit, hread]
  rfl

end

/-! ## Resolving -/

/-- A node holds no alias and no anchor, down to some depth. -/
def IsSettled (depth : Nat) (node : Node) : Prop :=
  ∀ table, Node.resolve? table depth node = pure node

theorem isSettled_scalar (depth : Nat) (tag : Option String) (written : Notation) (text : String) :
    IsSettled depth (.scalar tag written text) := by
  intro table
  cases depth <;> simp [Node.resolve?, Node.target?]

theorem mapM_eq_pure {α : Type} {m : Type → Type} [Monad m] [LawfulMonad m] {f : α → m α}
    {items : List α} (h : ∀ item ∈ items, f item = pure item) : items.mapM f = pure items := by
  induction items with
  | nil => simp
  | cons item items ih =>
    simp only [List.mem_cons, forall_eq_or_imp] at h
    simp [List.mapM_cons, h.1, ih h.2]

theorem isSettled_sequence {depth : Nat} {tag : Option String} {items : List Node}
    (h : ∀ item ∈ items, IsSettled depth item) : IsSettled (depth + 1) (.sequence tag items) := by
  intro table
  simp only [Node.resolve?, Node.target?, pure_bind]
  rw [mapM_eq_pure fun item hmem => h item hmem table]
  simp

theorem isSettled_mapping {depth : Nat} {tag : Option String} {entries : List (Node × Node)}
    (h : ∀ entry ∈ entries, IsSettled depth entry.1 ∧ IsSettled depth entry.2) :
    IsSettled (depth + 1) (.mapping tag entries) := by
  intro table
  simp only [Node.resolve?, Node.target?, pure_bind]
  rw [mapM_eq_pure fun entry hmem => by
    simp [(h entry hmem).1 table, (h entry hmem).2 table]]
  simp

end Stencil.Yaml
