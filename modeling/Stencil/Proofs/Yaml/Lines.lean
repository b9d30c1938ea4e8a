import Stencil.Proofs.Yaml.Document
import Stencil.Proofs.Yaml.Entries

/-!
# Blocks, line by line

Mappings whose values are scalars on the line of their key, and sequences whose items are scalars on the
line of their hyphen. Whatever is between two lines of a block (`settle?`) and however the scalars are
written (`Writes`), the tokens are those of one line after the other.
-/

namespace Stencil.Yaml

/-! ## Between lines -/

/-- The column that blanks, line ends and comments lead to, inside of a comment or not; a comment may
not start right of a limit, and has to end. -/
def settle? (limit : Nat) : Bool → Nat → List Char → Option Nat
  | false, column, [] => some column
  | true, _, [] => none
  | false, column, c :: rest =>
    if c = ' ' then settle? limit false (column + 1) rest
    else if c = '\n' then settle? limit false 0 rest
    else if c = '#' ∧ column ≤ limit then settle? limit true column rest
    else none
  | true, column, c :: rest =>
    if c = '\n' then settle? limit false 0 rest
    else if isBreakOrEnd (some c) then none
    else settle? limit true column rest

/-- What has been checked settles, behind what there is of a comment already. -/
theorem settles_behind {limit column column₁ column' : Nat} {inComment : Bool}
    {gap rest rest' : List Char} (h : settle? limit inComment column gap = some column₁)
    (hrest : Settles limit column₁ rest column' rest') :
    (inComment = false → Settles limit column (gap ++ rest) column' rest') ∧
      (inComment = true → column ≤ limit → ∀ text : List Char,
        (∀ c ∈ text, isBreakOrEnd (some c) = false) →
          Settles limit column ('#' :: text ++ (gap ++ rest)) column' rest') := by
  induction gap generalizing inComment column with
  | nil =>
    cases inComment with
    | false =>
      obtain rfl : column = column₁ := by simpa [settle?] using h
      exact ⟨fun _ => hrest, by simp⟩
    | true => simp [settle?] at h
  | cons c gap ih =>
    cases inComment with
    | false =>
      refine ⟨fun _ => ?_, by simp⟩
      simp only [settle?] at h
      split_ifs at h with hblank hfeed hcomment
      · exact hblank ▸ .blank ((ih h).1 rfl)
      · exact hfeed ▸ .lineEnd ((ih h).1 rfl)
      · obtain ⟨rfl, hcolumn⟩ := hcomment
        exact (ih h).2 rfl hcolumn [] (by simp)
    | true =>
      refine ⟨by simp, fun _ hcolumn text htext => ?_⟩
      simp only [settle?] at h
      split_ifs at h with hfeed hend
      · exact hfeed ▸ .comment hcolumn htext ((ih h).1 rfl)
      · have htext' : ∀ d ∈ text ++ [c], isBreakOrEnd (some d) = false := by
          intro d hd
          rcases List.mem_append.1 hd with hd | hd
          · exact htext d hd
          · obtain rfl : d = c := by simpa using hd
            simpa using hend
        simpa using (ih h).2 rfl hcolumn (text ++ [c]) htext'

theorem settles_of_settle? {limit column column₁ column' : Nat} {gap rest rest' : List Char}
    (h : settle? limit false column gap = some column₁)
    (hrest : Settles limit column₁ rest column' rest') :
    Settles limit column (gap ++ rest) column' rest' :=
  (settles_behind h hrest).1 rfl

/-! ## Scalars -/

/-- How a scalar is written up to the end of its line. A comment is told where no key may start. -/
inductive Writes : Bool → List Char → Notation → String → Prop where
  | plain {allowed : Bool} {text : String} :
      isPlainLine text.toList = true → Writes allowed text.toList .plain text
  | commented {text : String} {comment : List Char} :
      isPlainLine text.toList = true → (∀ c ∈ comment, isBreakOrEnd (some c) = false) →
      Writes false (text.toList ++ ' ' :: '#' :: comment) .plain text
  | quoted {allowed : Bool} {text : String} :
      (∀ c ∈ text.toList, isQuotable c = true) → Writes allowed (Json.quote text).toList .quoted text

namespace Lexer

variable {lexer : Lexer} {limit column column' index line : Nat} {rest rest' : List Char}
  {tokens tokens₁ tokens₂ : List Token} {allowed : Bool} {indent indent₁ : Int}
  {outer outer₁ outer₂ : List Int}

theorem leads_of_writes {written : List Char} {form : Notation} {text : String}
    (h : Writes allowed written form text) (hlimit : limit ≤ column)
    (hsettles : Settles limit 0 rest column' rest') :
    ∃ lexer', Leads ⟨⟨' ' :: written ++ '\n' :: rest, index, line, column⟩, tokens, [none], allowed,
        limit, outer⟩ lexer' ∧
      lexer'.Rests rest' column' (.scalar form text :: tokens) limit outer := by
  cases h with
  | plain hplain => simpa only [String.ofList_toList] using leads_plain hplain hlimit hsettles
  | commented hplain hcomment =>
    simpa only [String.ofList_toList, List.cons_append] using
      leads_plain_comment hplain hlimit hcomment hsettles
  | quoted htext => exact leads_quoted htext hlimit hsettles

theorem closes_of_le (h : indent ≤ column) : Closes column tokens indent outer tokens indent outer :=
  fun cursor =>
    have hle : (Lexer.mk cursor tokens [none] true indent outer).indent ≤ column := h
    closeTo_of_le hle

/-- A block that is right of the column is closed before those around it. -/
theorem closes_inner {outside : Int} (hindent : (column : Int) < indent)
    (h : Closes column (.blockEnd :: tokens) outside outer tokens₁ indent₁ outer₁) :
    Closes column tokens indent (outside :: outer) tokens₁ indent₁ outer₁ := fun cursor => by
  have hnot : ¬ indent ≤ (column : Int) := by omega
  rw [closeBlocks]
  simpa [inFlow, hnot, push] using h cursor

end Lexer

/-! ## Mappings -/

/-- An entry of a mapping: a key, and behind its colon a scalar on the same line. -/
structure Field where
  key : String
  written : List Char
  form : Notation
  text : String
  isKey : Lexer.IsKey key.toList
  writes : Writes false written form text

namespace Field

/-- The line of an entry. -/
def chars (field : Field) : List Char := field.key.toList ++ ':' :: ' ' :: field.written ++ ['\n']

/-- The lines of one entry after the other, with what is between them. -/
def block (field : Field) : List (List Char × Field) → List Char → List Char
  | [], rest => field.chars ++ rest
  | (gap, next) :: more, rest => field.chars ++ (gap ++ next.block more rest)

/-- The key of an entry and the tokens of its value. -/
def entry (field : Field) : String × List Token := (field.key, [.scalar field.form field.text])

/-- The tokens of an entry. -/
def tokens (field : Field) : List Token := entryTokens field.entry

/-- The nodes of an entry. -/
def nodes (field : Field) : Node × Node :=
  (.scalar none .plain field.key, .scalar none field.form field.text)

theorem flatMap_entries (fields : List Field) :
    (fields.map entry).flatMap entryTokens = fields.flatMap tokens := by
  rw [List.flatMap_map]
  rfl

theorem mappingTokens_entries (fields : List Field) : mappingTokens (fields.map entry) =
    .blockMappingStart :: fields.flatMap tokens ++ [.blockEnd] := by
  rw [mappingTokens, flatMap_entries]

/-- Scalars with keys are read as a part of the entries of a mapping. -/
theorem reads_entries (fields : List Field) :
    List.Forall₂ ReadsEntry (fields.map entry) (fields.map nodes) := by
  induction fields with
  | nil => exact .nil
  | cons field fields ih => exact .cons ⟨rfl, reads_scalar _ _⟩ ih

theorem exists_block (field : Field) (more : List (List Char × Field)) (rest : List Char) :
    ∃ tail, field.block more rest = field.key.toList ++ tail := by
  cases more <;> simp [block, chars]

end Field

theorem settles_key {limit column : Nat} {key rest : List Char} (hkey : Lexer.IsKey key)
    (hcolumn : column ≤ limit) : Settles limit column (key ++ rest) column (key ++ rest) := by
  obtain ⟨hne, -, hall⟩ := hkey
  obtain ⟨c, key, rfl⟩ := List.exists_cons_of_ne_nil hne
  have hc := hall c (by simp)
  refine .content hcolumn (Lexer.isBlankOrEnd_of_isKeyChar hc) ?_ ?_
  · rintro rfl; exact absurd hc (by decide)
  · rintro rfl; exact absurd hc (by decide)

namespace Lexer

variable {lexer : Lexer} {column column' : Nat} {rest rest' : List Char}
  {tokens tokens₁ tokens₂ : List Token} {indent indent₁ : Int} {outer outer₁ outer₂ : List Int}

theorem Rests.field {field : Field} (h : lexer.Rests (field.chars ++ rest) column tokens indent outer)
    (hclose : Closes column tokens indent outer tokens₁ indent₁ outer₁)
    (hopen : Opens .blockMappingStart column tokens₁ indent₁ outer₁ tokens₂ outer₂)
    (hsettles : Settles column 0 rest column' rest') :
    ∃ lexer', lexer.Leads lexer' ∧
      lexer'.Rests rest' column' (field.tokens.reverse ++ tokens₂) column outer₂ := by
  simp only [Field.chars, List.append_assoc, List.cons_append, List.nil_append] at h
  obtain ⟨index, line, column₁, hcolumn, hkey⟩ := h.key field.isKey rfl hclose hopen
  obtain ⟨lexer', hleads, hrests⟩ := leads_of_writes field.writes (Nat.le_of_lt hcolumn) hsettles
  exact ⟨lexer', hkey.trans hleads, by simpa [Field.tokens, entryTokens, Field.entry] using hrests⟩

/-- A key whose value starts on a later line. -/
theorem Rests.keyLine {limit : Nat} {key : String}
    (h : lexer.Rests (key.toList ++ ':' :: '\n' :: rest) column tokens indent outer)
    (hkey : IsKey key.toList) (hclose : Closes column tokens indent outer tokens₁ indent₁ outer₁)
    (hopen : Opens .blockMappingStart column tokens₁ indent₁ outer₁ tokens₂ outer₂)
    (hsettles : Settles limit 0 rest column' rest') :
    ∃ lexer', lexer.Leads lexer' ∧ lexer'.Rests rest' column'
      (.value :: .scalar .plain key :: .key :: tokens₂) column outer₂ := by
  obtain ⟨index, line, column₁, -, hleads⟩ := h.key hkey rfl hclose hopen
  rw [String.ofList_toList] at hleads
  exact ⟨_, hleads, rests_of_lineEnd hsettles (by simp)⟩

theorem Rests.block {field : Field} {more : List (List Char × Field)}
    (h : lexer.Rests (field.block more rest) column tokens indent outer)
    (hclose : Closes column tokens indent outer tokens₁ indent₁ outer₁)
    (hopen : Opens .blockMappingStart column tokens₁ indent₁ outer₁ tokens₂ outer₂)
    (hgaps : ∀ next ∈ more, settle? column false 0 next.1 = some column)
    (hsettles : Settles column 0 rest column' rest') :
    ∃ lexer', lexer.Leads lexer' ∧ lexer'.Rests rest' column'
      (((field :: more.map Prod.snd).flatMap Field.tokens).reverse ++ tokens₂) column outer₂ := by
  induction more generalizing lexer field tokens indent outer tokens₁ indent₁ outer₁ tokens₂ outer₂ with
  | nil => simpa using Rests.field h hclose hopen hsettles
  | cons next more ih =>
    obtain ⟨gap, next⟩ := next
    simp only [List.mem_cons, forall_eq_or_imp] at hgaps
    have hnext : Settles column column (next.block more rest) column (next.block more rest) := by
      obtain ⟨tail, heq⟩ := next.exists_block more rest
      exact heq ▸ settles_key next.isKey (Nat.le_refl _)
    obtain ⟨mid, hfield, hmid⟩ := Rests.field h hclose hopen (settles_of_settle? hgaps.1 hnext)
    obtain ⟨lexer', hleads, hrests⟩ :=
      ih hmid (closes_of_le (Int.le_refl _)) .same hgaps.2
    exact ⟨lexer', hfield.trans hleads, by simpa using hrests⟩

end Lexer

/-! ## Sequences -/

/-- An item of a sequence: a scalar behind a hyphen. -/
structure Item where
  written : List Char
  form : Notation
  text : String
  writes : Writes true written form text

namespace Item

/-- The lines of one item after the other, with what is in front of a hyphen. -/
def block (gap : List Char) (item : Item) : List Item → List Char → List Char
  | [], rest => '-' :: ' ' :: item.written ++ '\n' :: rest
  | next :: more, rest => '-' :: ' ' :: item.written ++ '\n' :: (gap ++ next.block gap more rest)

/-- The tokens of an item. -/
def tokens (item : Item) : List Token := [.blockEntry, .scalar item.form item.text]

theorem sequenceTokens_items (items : List Item) :
    sequenceTokens (items.map fun item => [.scalar item.form item.text]) =
      .blockSequenceStart :: items.flatMap tokens ++ [.blockEnd] := by
  rw [sequenceTokens, List.flatMap_map]
  rfl

theorem exists_block (gap : List Char) (item : Item) (more : List Item) (rest : List Char) :
    ∃ tail, item.block gap more rest = '-' :: tail := by
  cases more <;> simp [block]

end Item

theorem settles_item {limit column : Nat} (gap : List Char) (item : Item) (more : List Item)
    (rest : List Char) (hcolumn : column ≤ limit) :
    Settles limit column (item.block gap more rest) column (item.block gap more rest) := by
  obtain ⟨tail, heq⟩ := item.exists_block gap more rest
  exact heq ▸ .content hcolumn rfl (by decide) (by decide)

namespace Lexer

variable {lexer : Lexer} {column column' : Nat} {gap rest rest' : List Char}
  {tokens tokens₁ tokens₂ : List Token} {indent indent₁ : Int} {outer outer₁ outer₂ : List Int}

theorem Rests.items {item : Item} {more : List Item}
    (h : lexer.Rests (item.block gap more rest) column tokens indent outer) (hcolumn : column ≠ 0)
    (hclose : Closes column tokens indent outer tokens₁ indent₁ outer₁)
    (hopen : Opens .blockSequenceStart column tokens₁ indent₁ outer₁ tokens₂ outer₂)
    (hgap : settle? column false 0 gap = some column) (hsettles : Settles column 0 rest column' rest') :
    ∃ lexer', lexer.Leads lexer' ∧ lexer'.Rests rest' column'
      (((item :: more).flatMap Item.tokens).reverse ++ tokens₂) column outer₂ := by
  induction more generalizing lexer item tokens indent outer tokens₁ indent₁ outer₁ tokens₂ outer₂ with
  | nil =>
    obtain ⟨index, line, hitem⟩ := Rests.item h hcolumn hclose hopen
    obtain ⟨lexer', hleads, hrests⟩ := leads_of_writes item.writes (Nat.le_succ _) hsettles
    exact ⟨lexer', hitem.trans hleads, by simpa [Item.tokens] using hrests⟩
  | cons next more ih =>
    have hnext := settles_item gap next more rest (Nat.le_refl column)
    obtain ⟨index, line, hitem⟩ := Rests.item h hcolumn hclose hopen
    obtain ⟨mid, hwritten, hmid⟩ :=
      leads_of_writes item.writes (Nat.le_succ _) (settles_of_settle? hgap hnext)
    obtain ⟨lexer', hleads, hrests⟩ := ih hmid (closes_of_le (Int.le_refl _)) .same
    exact ⟨lexer', (hitem.trans hwritten).trans hleads, by simpa [Item.tokens] using hrests⟩

/-- An item that is a mapping, its first key on the line of the hyphen. -/
theorem Rests.mappingItem {field : Field} {more : List (List Char × Field)}
    (h : lexer.Rests ('-' :: ' ' :: field.block more rest) column tokens indent outer)
    (hcolumn : column ≠ 0) (hclose : Closes column tokens indent outer tokens₁ indent₁ outer₁)
    (hopen : Opens .blockSequenceStart column tokens₁ indent₁ outer₁ tokens₂ outer₂)
    (hgaps : ∀ next ∈ more, settle? (column + 2) false 0 next.1 = some (column + 2))
    (hsettles : Settles (column + 2) 0 rest column' rest') :
    ∃ lexer', lexer.Leads lexer' ∧ lexer'.Rests rest' column'
      (((field :: more.map Prod.snd).flatMap Field.tokens).reverse ++
        .blockMappingStart :: .blockEntry :: tokens₂) ((column + 2 : Nat) : Int)
      ((column : Int) :: outer₂) := by
  obtain ⟨index, line, hitem⟩ := Rests.item h hcolumn hclose hopen
  have hfield : Settles (column + 2) (column + 1) (' ' :: field.block more rest) (column + 2)
      (field.block more rest) := by
    obtain ⟨tail, heq⟩ := field.exists_block more rest
    exact heq ▸ .blank (settles_key field.isKey (Nat.le_refl _))
  have hrests : Rests ⟨⟨' ' :: field.block more rest, index, line, column + 1⟩, .blockEntry :: tokens₂,
      [none], true, column, outer₂⟩ (field.block more rest) (column + 2) (.blockEntry :: tokens₂) column
      outer₂ :=
    rests_of_settles hfield (by simp)
  obtain ⟨lexer', hleads, hrests⟩ :=
    hrests.block (closes_of_le (by omega)) (.inner (by omega)) hgaps hsettles
  exact ⟨lexer', hitem.trans hleads, hrests⟩

end Lexer

end Stencil.Yaml
