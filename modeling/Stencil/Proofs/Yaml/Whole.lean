import Stencil.Proofs.Yaml.Alone
import Stencil.Proofs.Yaml.Line
import Stencil.Yaml.Reading

/-!
# Texts that are read as themselves

A document whose value is the text it is written in is a single plain scalar: the value of a document is
a text only if it is that of one of its scalars, and no scalar but a plain one without anything around
it is as heavy as the whole document.
-/

namespace Stencil.Yaml

/-- The node of a document without its anchor: no alias, and a scalar only if there is a token for it or
nothing is written. -/
inductive Root (tokens : List Token) : Node → Prop where
  | absent (tag : Option String) : Root tokens (NodeReader.absent tag)
  | scalar {written : Notation} {text : String} (tag : Option String) :
      Token.scalar written text ∈ tokens → Root tokens (.scalar tag written text)
  | sequence (tag : Option String) (items : List Node) : Root tokens (.sequence tag items)
  | mapping (tag : Option String) (entries : List (Node × Node)) : Root tokens (.mapping tag entries)

theorem Root.mono {tokens more : List Token} {node : Node} (h : Root tokens node)
    (hsub : tokens <:+ more) : Root more node := by
  cases h with
  | absent tag => exact .absent tag
  | scalar tag hmem => exact .scalar tag (hsub.subset hmem)
  | sequence tag items => exact .sequence tag items
  | mapping tag entries => exact .mapping tag entries

/-! ## From tokens to the node -/

theorem NodeReader.properties?_suffix {reader reader' : NodeReader} {anchor : Option String}
    {written : Option (String × String)} (h : reader.properties? = some (anchor, written, reader')) :
    reader'.tokens <:+ reader.tokens := by
  unfold NodeReader.properties? at h
  split at h <;> cases h
  any_goals exact List.drop_suffix _ _
  exact List.suffix_refl _

theorem NodeReader.number_tokens (reader : NodeReader) (anchor : Option String) :
    (reader.number anchor).2.tokens = reader.tokens := by
  cases anchor <;> rfl

/-- Where no anchor is known yet, a node is read that is no alias. -/
theorem node?_root {fuel : Nat} {inBlock indentless : Bool} {tokens : List Token} {tags : TagTable}
    {node : Node} {reader : NodeReader}
    (h : NodeReader.node? fuel inBlock indentless ⟨tokens, [], tags⟩ = some (node, reader)) :
    ∃ id inner, node = Node.withAnchor inner id ∧ Root tokens inner := by
  cases fuel with
  | zero => simp [NodeReader.node?] at h
  | succ fuel =>
    rw [NodeReader.node?] at h
    split at h
    · simp at h
    · split at h
      · cases h
      next anchor written inner hproperties =>
      have hsuffix := NodeReader.properties?_suffix hproperties
      dsimp only at h
      split at h
      · cases h
      next tag _ =>
      have htokens := NodeReader.number_tokens inner anchor
      have hsequence {items? : Option (List Node × NodeReader)}
          (h : Option.map (fun found => (found.1.withAnchor (inner.number anchor).1, found.2))
            (items?.map fun found => (Node.sequence tag found.1, found.2)) = some (node, reader)) :
          ∃ id inner, node = Node.withAnchor inner id ∧ Root tokens inner := by
        obtain ⟨found, hfound, heq⟩ := Option.map_eq_some_iff.1 h
        obtain ⟨items, -, rfl⟩ := Option.map_eq_some_iff.1 hfound
        cases heq
        exact ⟨_, _, rfl, .sequence _ _⟩
      have hmapping {entries? : Option (List (Node × Node) × NodeReader)}
          (h : Option.map (fun found => (found.1.withAnchor (inner.number anchor).1, found.2))
            (entries?.map fun found => (Node.mapping tag found.1, found.2)) = some (node, reader)) :
          ∃ id inner, node = Node.withAnchor inner id ∧ Root tokens inner := by
        obtain ⟨found, hfound, heq⟩ := Option.map_eq_some_iff.1 h
        obtain ⟨entries, -, rfl⟩ := Option.map_eq_some_iff.1 hfound
        cases heq
        exact ⟨_, _, rfl, .mapping _ _⟩
      split at h
      next written text rest hscalar =>
        obtain ⟨rfl, -⟩ : Node.withAnchor _ _ = node ∧ _ := by simpa using h
        refine ⟨_, _, rfl, .scalar _ (hsuffix.subset ?_)⟩
        rw [← htokens, hscalar]
        exact List.mem_cons_self
      next => exact hsequence h
      next => exact hmapping h
      next =>
        split_ifs at h
        · exact hsequence h
        · exact hsequence h
        · exact hmapping h
        · cases h
          exact ⟨_, _, rfl, .absent _⟩
      next => cases h

theorem directives?_suffix {tokens rest : List Token} {versionSeen : Bool} {tags tags' : TagTable}
    (h : directives? tokens versionSeen tags = some (tags', rest)) : rest <:+ tokens := by
  induction tokens generalizing versionSeen tags with
  | nil => simp [directives?] at h
  | cons token more ih =>
    unfold directives? at h
    split at h
    next heq =>
      cases heq
      split_ifs at h
      exact (ih h).trans (List.suffix_cons _ _)
    next heq =>
      cases heq
      split_ifs at h
      exact (ih h).trans (List.suffix_cons _ _)
    next heq =>
      cases heq
      cases h
      exact List.suffix_cons _ _
    next => cases h

theorem ofTokens?_root {tokens : List Token} {node : Node} (h : Node.ofTokens? tokens = some node) :
    ∃ id inner, node = Node.withAnchor inner id ∧ Root tokens inner := by
  have habsent : ∃ id inner, NodeReader.absent = Node.withAnchor inner id ∧ Root tokens inner :=
    ⟨none, _, rfl, .absent none⟩
  simp only [Node.ofTokens?] at h
  split at h
  next found rest hresult =>
    split_ifs at h
    cases h
    split_ifs at hresult
    · cases hresult
      exact habsent
    · obtain ⟨⟨tags, behind⟩, hdirectives, hresult⟩ := Option.bind_eq_some_iff.1 hresult
      dsimp only at hresult
      split_ifs at hresult
      · cases hresult
        exact habsent
      · obtain ⟨⟨read, reader⟩, hread, heq⟩ := Option.bind_eq_some_iff.1 hresult
        cases heq
        obtain ⟨id, inner, hnode, hroot⟩ := node?_root hread
        exact ⟨id, inner, hnode, hroot.mono (directives?_suffix hdirectives)⟩
    · obtain ⟨⟨read, reader⟩, hread, heq⟩ := Option.bind_eq_some_iff.1 hresult
      cases heq
      exact node?_root hread
  next => cases h

/-! ## From the node to the value -/

/-- The root of a document is no alias, and resolving leaves it what it is. -/
theorem resolve?_root {tokens : List Token} {table : List (Nat × Node)} {depth limit left : Nat}
    {id : Option Nat} {node resolved : Node} (hroot : Root tokens node)
    (h : (Node.resolve? table (depth + 1) (node.withAnchor id)).run limit = some (resolved, left)) :
    Root tokens resolved := by
  have htarget : (node.withAnchor id).target? table = pure node := by
    cases id <;> cases hroot <;> rfl
  rw [Node.resolve?, htarget, pure_bind] at h
  cases hroot with
  | absent tag =>
    cases h
    exact .absent tag
  | scalar tag hmem =>
    cases h
    exact .scalar tag hmem
  | sequence tag items =>
    simp only [StateT.run_bind, Option.bind_eq_bind, Option.bind_eq_some_iff] at h
    obtain ⟨_, -, heq⟩ := h
    cases heq
    exact .sequence tag _
  | mapping tag entries =>
    simp only [StateT.run_bind, Option.bind_eq_bind, Option.bind_eq_some_iff] at h
    obtain ⟨_, -, heq⟩ := h
    cases heq
    exact .mapping tag _

theorem ofFloat_ne_text (x : Float) (text : String) : Value.ofFloat x ≠ .text text := by
  unfold Value.ofFloat
  split <;> simp

theorem eq_of_plainValue? {text text' : String} (h : plainValue? text = some (.text text')) :
    text = text' := by
  unfold plainValue? at h
  split at h <;> simp [ofFloat_ne_text] at h
  exact h

theorem eq_of_scalarValue? {tag : Option String} {written : Notation} {text text' : String}
    (h : scalarValue? tag written text = some (.text text')) : text = text' := by
  unfold scalarValue? at h
  split at h
  · split_ifs at h
    · exact eq_of_plainValue? h
    · simpa using h
  · cases h
  · simp at h
  · split at h
    · split_ifs at h
      simp at h
    · cases h
  · simp [ofFloat_ne_text] at h
  · split_ifs at h
    simp at h
  · simpa using h

/-- A document is read as a text only if one of its tokens is a scalar of that text, or if the text is
empty. -/
theorem value?_root {tokens : List Token} {node : Node} {text : String} (hroot : Root tokens node)
    (h : node.value? = some (.text text)) :
    text = "" ∨ ∃ written, Token.scalar written text ∈ tokens := by
  cases hroot with
  | absent tag => exact .inl (eq_of_scalarValue? h).symm
  | scalar tag hmem => exact .inr ⟨_, eq_of_scalarValue? h ▸ hmem⟩
  | sequence tag items =>
    rw [Node.value?] at h
    split_ifs at h
    simp at h
  | mapping tag entries =>
    rw [Node.value?] at h
    split_ifs at h
    simp [Value.ofEntries] at h

theorem read?_text {written text : String} (h : read? written = some (.text text)) :
    ∃ tokens, Token.ofString? written = some tokens ∧
      (text = "" ∨ ∃ written, Token.scalar written text ∈ tokens) := by
  obtain ⟨resolved, hresolved, hvalue⟩ := Option.bind_eq_some_iff.1 h
  obtain ⟨tokens, htokens, hresolved⟩ := Option.bind_eq_some_iff.1 hresolved
  obtain ⟨node, hnode, hresolved⟩ := Option.bind_eq_some_iff.1 hresolved
  obtain ⟨⟨inner, left⟩, hresolve, heq⟩ := Option.bind_eq_some_iff.1 hresolved
  obtain rfl : inner = resolved := by simpa using heq
  obtain ⟨id, bare, rfl, hroot⟩ := ofTokens?_root hnode
  exact ⟨tokens, htokens, value?_root (resolve?_root hroot hresolve) hvalue⟩

/-- A single plain scalar has the value that its text spells. -/
theorem read?_plain {text : String} (h : Token.ofString? text = some [.scalar .plain text, .streamEnd]) :
    read? text = plainValue? text := by
  simp only [read?, Node.ofString?, h, Option.bind_eq_bind, Option.bind_some]
  rfl

/-! ## The text -/

theorem opensPlain_of_startsPlain {chars : List Char} (h : (Lexer.start chars).startsPlain = true)
    (hdash : chars.head? = some '-' → isBlankOrEnd chars[1]? = false) : opensPlain chars = true := by
  cases chars with
  | nil => cases h
  | cons c rest =>
    have hpeek : (Lexer.start (c :: rest)).cursor.peek? = some c := rfl
    obtain ⟨hopen, -, -⟩ := Lexer.of_startsPlain hpeek h
    have hindicators : "-?:,[]\x7b\x7d#&*!|>'\"%@\x60".toList = indicators := rfl
    simp only [Lexer.startsPlain, hpeek, hindicators, hopen, Bool.false_or] at h
    simp only [opensPlain, hopen, Bool.not_false, Bool.true_and]
    by_cases hc : c = '-'
    · subst hc
      have hnext : isBlankOrEnd rest.head? = false := by
        simpa [List.head?_eq_getElem?] using hdash rfl
      simp [hnext]
    · simpa [Lexer.inFlow, Lexer.start, Cursor.peekAt?, List.head?_eq_getElem?, hc] using h

/-- The tokens of a text are those of a run over its characters, a byte order mark in front left out. -/
theorem run?_of_ofString? {text : String} {tokens : List Token} (h : Token.ofString? text = some tokens) :
    text.toList.all isAllowed = true ∧
      ∃ chars fuel lexer, (text.toList = chars ∨ text.toList = '\ufeff' :: chars) ∧
        Lexer.run? fuel (Lexer.start chars) = some lexer ∧ tokens = lexer.tokens.reverse := by
  simp only [Token.ofString?] at h
  split_ifs at h with hallowed
  obtain ⟨lexer, hrun, rfl⟩ := Option.map_eq_some_iff.1 h
  split at hrun
  next heq => exact ⟨hallowed, _, _, lexer, .inr heq, hrun, rfl⟩
  next => exact ⟨hallowed, _, _, lexer, .inl rfl, hrun, rfl⟩

/-- A text that is read as itself is a plain scalar on one line, if no separators are about, and it is
one that spells a text. -/
theorem isPlainLine_of_read? {text : String} (h : read? text = some (.text text))
    (hseparator : ¬ HasSeparator text.toList) :
    isPlainLine text.toList = true ∧ plainValue? text = some (.text text) ∧
      text.toList.all isAllowed = true := by
  obtain ⟨tokens, htokens, hscalar⟩ := read?_text h
  obtain ⟨hallowed, chars, fuel, lexer, hmark, hrun, rfl⟩ := run?_of_ofString? htokens
  have hweight : weight chars ≤ weight text.toList := by
    rcases hmark with heq | heq <;> simp [heq]
  rcases hscalar with rfl | ⟨written, hmem⟩
  · cases h
  obtain ⟨hstarts, hdash, ⟨lineEnded, next, hnext, hread⟩, hplain⟩ :=
    Lexer.run?_alone hrun (List.mem_reverse.1 hmem) hweight
  have hsum := plainScalar?_weight hread
  -- A byte order mark would be missing in what is read.
  obtain heq : text.toList = chars := by
    rcases hmark with heq | heq
    · exact heq
    · rw [heq] at hsum
      simp [Cursor.weight, Lexer.start, charWeight, isBreak] at hsum
      omega
  have hopens := opensPlain_of_startsPlain hstarts hdash
  subst heq
  obtain ⟨c, rest, hcons, hopen, -⟩ := exists_of_opensPlain hopens
  have hrest : (Lexer.start text.toList).cursor.rest = c :: rest := hcons
  have hstays := staysPlain_of_plainScalar? hrest hopen hseparator hread (Nat.le_refl _)
  refine ⟨?_, ?_, hallowed⟩
  · simp [isPlainLine, hopens]
    exact hstays
  · rw [hplain] at htokens
    rw [← read?_plain htokens, h]

end Stencil.Yaml
