import Stencil.Proofs.Yaml.Document
import Stencil.Proofs.Yaml.Lines
import Stencil.Proofs.Yaml.Whole
import Stencil.Starter.Basic

/-!
# The tokens of a starter's manifest

A starter's manifest is a mapping of scalars, with the authors as a sequence of scalars and the
variables as a sequence of mappings of scalars. A text is written plain only if it is read as itself, so
it is one plain scalar on a line; and what it is written as between quotes is read back, unless there is
a character in it that may not stand in a stream or ends a line (`Yaml.isQuotable`).
-/

namespace Stencil.Starter

open Yaml

/-! ## Texts -/

/-- Whether every character of a text comes back from between quotes. -/
def IsQuotable (text : String) : Prop := ∀ c ∈ text.toList, isQuotable c = true

/-- How a text is written. -/
def form (text : String) : Notation := if isPlain text then .plain else .quoted

theorem read?_of_isPlain {text : String} (h : isPlain text = true) : read? text = some (.text text) := by
  unfold isPlain at h
  split at h
  next read heq => rw [heq, of_decide_eq_true h]
  next => cases h

theorem not_hasSeparator {text : String} (h : IsQuotable text) : ¬ HasSeparator text.toList := by
  rintro (hmem | hmem)
  · exact absurd (h _ hmem) (by decide)
  · exact absurd (h _ hmem) (by decide)

theorem writes_scalar {text : String} (h : IsQuotable text) (allowed : Bool) :
    Writes allowed (scalar text).toList (form text) text := by
  cases hplain : isPlain text with
  | true =>
    have hline := isPlainLine_of_read? (read?_of_isPlain hplain) (not_hasSeparator h)
    have hwrites : Writes allowed text.toList .plain text := .plain hline.1
    simpa [scalar, form, hplain] using hwrites
  | false => simpa [scalar, form, hplain] using Writes.quoted h

/-- No text is taken for one that is left out. -/
theorem isMissing?_form {text : String} (h : IsQuotable text) :
    (Node.scalar none (form text) text).isMissing? = some false := by
  cases hplain : isPlain text with
  | true =>
    have hvalue := (isPlainLine_of_read? (read?_of_isPlain hplain) (not_hasSeparator h)).2.1
    have hnull : ¬ (text = "" ∨ isNull text = true) := fun hnull => by
      have : Plain.ofString text = .null := by
        rcases hnull with rfl | hnull <;> simp [Plain.ofString, *]
      simp [plainValue?, this] at hvalue
    simpa [form, hplain, Node.isMissing?, String.isEmpty_iff, not_or] using hnull
  | false => simp [form, hplain, Node.isMissing?]

/-! ## Lines -/

/-- The entry of a text of the user's. -/
def textField (key text : String) (h : IsQuotable text)
    (hkey : Lexer.IsKey key.toList := by decide) : Field :=
  ⟨key, (scalar text).toList, form text, text, hkey, writes_scalar h false⟩

/-- The entry of a text that is written plain. -/
def plainField (key text : String) (h : isPlainLine text.toList = true := by decide)
    (hkey : Lexer.IsKey key.toList := by decide) : Field :=
  ⟨key, text.toList, .plain, text, hkey, .plain h⟩

/-- The entry of a text that is written plain, with a comment. -/
def commentedField (key text comment : String) (h : isPlainLine text.toList = true := by decide)
    (hcomment : comment.toList.all (fun c => !isBreakOrEnd (some c)) = true := by decide)
    (hkey : Lexer.IsKey key.toList := by decide) : Field :=
  ⟨key, text.toList ++ ' ' :: '#' :: comment.toList, .plain, text, hkey,
    .commented h fun c hc => by simpa using List.all_eq_true.mp hcomment c hc⟩

/-- The entry of the version of the template. -/
def versionField : Field where
  key := "template_version"
  written := "\"0.0.0\"".toList
  form := .quoted
  text := "0.0.0"
  isKey := by decide
  writes := by
    have hquote : (Json.quote "0.0.0").toList = "\"0.0.0\"".toList := by
      simp only [Json.quote, String.toList_ofList]
      rfl
    exact hquote ▸ .quoted (List.all_eq_true.mp (by decide))

/-- The item of an author. -/
def authorItem (author : String) (h : IsQuotable author) : Item :=
  ⟨(scalar author).toList, form author, author, writes_scalar h true⟩

/-- What is in front of the key of a variable, behind the first. -/
def margin : List Char := [' ', ' ', ' ', ' ']

/-- The first of the example variables. -/
def appNameField : Field := plainField "name" "app_name"

/-- The lines of the first example variable behind its name. -/
def appNameMore : List (List Char × Field) :=
  [(margin, plainField "description" "The name of the application."),
    (margin, plainField "default" "my-app"),
    (margin, commentedField "example" "my-app" " The example fixes the type of the variable.")]

/-- The second of the example variables. -/
def enableHttpsField : Field := plainField "name" "enable_https"

/-- The lines of the second example variable behind its name. -/
def enableHttpsMore : List (List Char × Field) :=
  [(margin, plainField "description" "Whether to enable HTTPS or not."),
    (margin, commentedField "default" "true" " Remove the default to make the variable required."),
    (margin, plainField "example" "true")]

/-- The lines of the example variables, from their key on. -/
def variableChars : List Char :=
  "variables".toList ++ ':' :: '\n' :: ' ' :: ' ' :: '-' :: ' ' ::
    appNameField.block appNameMore
      ('\n' :: ' ' :: ' ' :: '-' :: ' ' :: enableHttpsField.block enableHttpsMore [])

theorem exampleLines_toList : exampleLines.toList =
    "\n# Example variables. Delete this section and add your own variables.\n".toList ++
      variableChars := by
  have hfirst (rest : List Char) : ' ' :: ' ' :: '-' :: ' ' :: appNameField.block appNameMore rest =
      "  - name: app_name\n".toList ++ ("    description: The name of the application.\n".toList ++
        ("    default: my-app\n".toList ++
          ("    example: my-app # The example fixes the type of the variable.\n".toList ++ rest))) := rfl
  have hsecond : ' ' :: ' ' :: '-' :: ' ' :: enableHttpsField.block enableHttpsMore [] =
      "  - name: enable_https\n".toList ++ ("    description: Whether to enable HTTPS or not.\n".toList ++
        ("    default: true # Remove the default to make the variable required.\n".toList ++
          "    example: true\n".toList)) := rfl
  have hchars : variableChars = "variables".toList ++ ':' :: '\n' :: (' ' :: ' ' :: '-' :: ' ' ::
    appNameField.block appNameMore ('\n' :: (' ' :: ' ' :: '-' :: ' ' ::
      enableHttpsField.block enableHttpsMore []))) := rfl
  have hkey : "variables:\n".toList = "variables".toList ++ [':', '\n'] := rfl
  have hgap : "    example: my-app # The example fixes the type of the variable.\n\n".toList =
      "    example: my-app # The example fixes the type of the variable.\n".toList ++ ['\n'] := rfl
  rewrite [hchars, hfirst, hsecond]
  unfold exampleLines
  simp only [String.toList_append, -String.reduceAppend, hkey, hgap, List.append_assoc, List.cons_append,
    List.nil_append]

/-- The texts of the user's that a manifest is written with. -/
def texts (starter : Starter) : List String :=
  starter.name :: starter.description :: starter.license :: starter.authors

section

variable {starter : Starter} (h : ∀ text ∈ starter.texts, IsQuotable text)

/-- The first entry of a manifest. -/
def nameField : Field :=
  textField "name" starter.name (h _ (by simp [texts]))

/-- The entries behind the first up to the license, with what is in front of them. -/
def rootMore : List (List Char × Field) :=
  [('\n' :: "# The description of this template repository.\n".toList,
      textField "description" starter.description (h _ (by simp [texts]))),
    ('\n' :: "# The version of this template. Change it as you make changes to your template.\n".toList,
      versionField),
    ('\n' ::
        "# The version of this manifest. Do not change it unless you know what you are doing.\n".toList,
      plainField "manifest_version" "v2"),
    ('\n' :: "# The license of this template repository.\n".toList,
      textField "license" starter.license (h _ (by simp [texts])))]

theorem manifest_toList : (starter.manifest Settings.standard).toList =
    "# The name of this template repository.\n".toList ++
      (nameField h).block (rootMore h)
        ((authorLines starter.authors).toList ++ exampleLines.toList) := by
  have hblock (rest : List Char) : (nameField h).block (rootMore h) rest =
      "name".toList ++ ':' :: ' ' :: (scalar starter.name).toList ++ ['\n'] ++
      (('\n' :: "# The description of this template repository.\n".toList) ++
        ("description".toList ++ ':' :: ' ' :: (scalar starter.description).toList ++ ['\n'] ++
      (('\n' :: "# The version of this template. Change it as you make changes to your template.\n".toList) ++
        ("template_version".toList ++ ':' :: ' ' :: "\"0.0.0\"".toList ++ ['\n'] ++
      (('\n' ::
          "# The version of this manifest. Do not change it unless you know what you are doing.\n".toList) ++
        ("manifest_version".toList ++ ':' :: ' ' :: "v2".toList ++ ['\n'] ++
      (('\n' :: "# The license of this template repository.\n".toList) ++
        ("license".toList ++ ':' :: ' ' :: (scalar starter.license).toList ++ ['\n'] ++ rest)))))))) := rfl
  have hname : "name: ".toList = "name".toList ++ [':', ' '] := rfl
  have hdescription : "description: ".toList = "description".toList ++ [':', ' '] := rfl
  have hversion : "template_version: \"".toList = "template_version".toList ++ [':', ' ', '"'] := rfl
  have hquoted : "\"0.0.0\"".toList = '"' :: "0.0.0".toList ++ ['"'] := rfl
  have hafter : "\"\n\n".toList = ['"', '\n', '\n'] := rfl
  have hmanifest : "manifest_version: ".toList = "manifest_version".toList ++ [':', ' '] := rfl
  have hlicense : "license: ".toList = "license".toList ++ [':', ' '] := rfl
  have hend : "\n".toList = ['\n'] := rfl
  have hends : "\n\n".toList = ['\n', '\n'] := rfl
  rewrite [hblock]
  unfold manifest
  simp only [String.toList_append, -String.reduceAppend, Settings.standard, hname, hdescription, hversion,
    hquoted, hafter, hmanifest, hlicense, hend, hends, List.append_assoc, List.cons_append,
    List.nil_append]

/-! ## The authors -/

theorem authors_toList {author : String} {more : List String}
    (h : ∀ text ∈ author :: more, IsQuotable text) (rest : List Char) :
    (String.join ((author :: more).map fun author => "  - " ++ scalar author ++ "\n")).toList ++ rest =
      ' ' :: ' ' :: (authorItem author (h _ (by simp))).block [' ', ' ']
        (more.pmap authorItem fun text hmem => h text (by simp [hmem])) rest := by
  have hdash : "  - ".toList = [' ', ' ', '-', ' '] := rfl
  have hend : "\n".toList = ['\n'] := rfl
  induction more generalizing author with
  | nil => simp [hdash, hend, Item.block, authorItem]
  | cons next more ih =>
    have hnext := ih fun text (hmem : text ∈ next :: more) => h text (List.mem_cons_of_mem _ hmem)
    rw [List.map_cons, String.join_cons, String.toList_append, List.append_assoc, hnext]
    simp [hdash, hend, Item.block, authorItem]

theorem authorLines_toList {author : String} {more : List String}
    (h : ∀ text ∈ author :: more, IsQuotable text) (rest : List Char) :
    (authorLines (author :: more)).toList ++ rest =
      ('\n' :: "# The authors of this template repository.\n".toList) ++
        ("authors".toList ++ ':' :: '\n' :: ' ' :: ' ' ::
          (authorItem author (h _ (by simp))).block [' ', ' ']
            (more.pmap authorItem fun text hmem => h text (by simp [hmem])) rest) := by
  have hkey : "\n# The authors of this template repository.\nauthors:\n".toList =
    ('\n' :: "# The authors of this template repository.\n".toList) ++ ("authors".toList ++ [':', '\n']) :=
    rfl
  rw [authorLines, if_neg (by simp), String.toList_append, List.append_assoc, authors_toList h, hkey]
  simp only [List.append_assoc, List.cons_append, List.nil_append]

end

/-! ## Reading -/

section

variable {lexer : Lexer} {tokens tokens₁ : List Token} {indent : Int} {outer : List Int}

/-- The tokens of the example variables. -/
def variableTokens : List Token :=
  sequenceTokens
    [mappingTokens ((appNameField :: appNameMore.map Prod.snd).map Field.entry),
      mappingTokens ((enableHttpsField :: enableHttpsMore.map Prod.snd).map Field.entry)]

/-- From the key of the variables to the end of the text. -/
theorem leads_variables (h : lexer.Rests variableChars 0 tokens indent outer)
    (hclose : Lexer.Closes 0 tokens indent outer tokens₁ 0 [-1]) :
    ∃ lexer' inner, lexer.Leads lexer' ∧ lexer'.Rests [] 0 inner 4 [2, 0, -1] ∧
      .blockEnd :: .blockEnd :: inner =
        (entryTokens ("variables", variableTokens)).reverse ++ tokens₁ := by
  have hgaps : ∀ next ∈ appNameMore, settle? 4 false 0 next.1 = some 4 := by
    simp [appNameMore, margin, settle?]
  have hgaps' : ∀ next ∈ enableHttpsMore, settle? 4 false 0 next.1 = some 4 := by
    simp [enableHttpsMore, margin, settle?]
  have hdash (limit : Nat) (hlimit : 2 ≤ limit) (rest : List Char) :
      Settles limit 2 ('-' :: rest) 2 ('-' :: rest) := .content hlimit rfl (by decide) (by decide)
  -- The key, and then one variable after the other, each an item whose block is closed behind it.
  obtain ⟨lexer₁, hkey, hrests⟩ := h.keyLine (by decide) hclose .same
    (.blank (.blank (hdash 2 (Nat.le_refl _) _)))
  obtain ⟨lexer₂, hfirst, hrests⟩ := hrests.mappingItem (by decide) (Lexer.closes_of_le (by decide))
    (.inner (by decide)) hgaps (.lineEnd (.blank (.blank (hdash 4 (by decide) _))))
  obtain ⟨lexer₃, hsecond, hrests⟩ := hrests.mappingItem (by decide)
    (Lexer.closes_inner (by decide) (Lexer.closes_of_le (by decide))) .same hgaps' (.done (by decide))
  refine ⟨lexer₃, _, (hkey.trans hfirst).trans hsecond, hrests, ?_⟩
  simp only [entryTokens, variableTokens, sequenceTokens, Field.mappingTokens_entries]
  generalize (appNameField :: appNameMore.map Prod.snd).flatMap Field.tokens = first
  generalize (enableHttpsField :: enableHttpsMore.map Prod.snd).flatMap Field.tokens = second
  simp

/-- The entry of the authors, if there are any. -/
def authorEntries (authors : List String) : List (String × List Token) :=
  if authors.isEmpty then []
  else [("authors", sequenceTokens (authors.map fun author => [.scalar (form author) author]))]

theorem settles_variables {limit : Nat} (h : limit = 0 ∨ limit = 2) :
    Settles limit 0 exampleLines.toList 0 variableChars := by
  rw [exampleLines_toList]
  refine settles_of_settle? ?_ (settles_key (by decide) (Nat.zero_le _))
  rcases h with rfl | rfl <;> decide

/-- From the line of the license to the key of the variables. Between the two come the authors, if there
are any; either way the block that is open at the end is closed before the variables. -/
theorem leads_authors {authors : List String} (h : ∀ text ∈ authors, IsQuotable text) :
    ∃ rest, Settles 0 0 ((authorLines authors).toList ++ exampleLines.toList) 0 rest ∧
      ∀ lexer tokens, Lexer.Rests lexer rest 0 tokens 0 [-1] →
        ∃ lexer' tokens' indent outer, lexer.Leads lexer' ∧
          lexer'.Rests variableChars 0 tokens' indent outer ∧
          Lexer.Closes 0 tokens' indent outer
            (((authorEntries authors).flatMap entryTokens).reverse ++ tokens) 0 [-1] := by
  cases authors with
  | nil =>
    have hnone : (authorLines []).toList = [] := rfl
    rw [hnone, List.nil_append]
    refine ⟨variableChars, settles_variables (.inl rfl), fun lexer tokens hrests => ?_⟩
    exact ⟨lexer, tokens, 0, [-1], .refl lexer, hrests, Lexer.closes_of_le (Int.le_refl 0)⟩
  | cons author more =>
    rw [authorLines_toList h]
    refine ⟨_, settles_of_settle? (by decide) (settles_key (by decide) (Nat.le_refl 0)),
      fun lexer tokens hrests => ?_⟩
    obtain ⟨lexer₁, hkey, hrests⟩ := hrests.keyLine (by decide)
      (Lexer.closes_of_le (Int.le_refl 0)) .same
      (.blank (.blank (settles_item _ _ _ _ (Nat.le_refl 2))))
    obtain ⟨lexer₂, hitems, hrests⟩ := hrests.items (by decide) (Lexer.closes_of_le (by decide))
      (.inner (by decide)) (by decide) (settles_variables (.inr rfl))
    have htokens : sequenceTokens ((author :: more).map fun author => [.scalar (form author) author]) =
        .blockSequenceStart :: ((authorItem author (h _ (by simp)) ::
          more.pmap authorItem fun text hmem => h text (by simp [hmem])).flatMap Item.tokens) ++
            [.blockEnd] := by
      rw [← Item.sequenceTokens_items, List.map_cons, List.map_cons, List.map_pmap]
      simp [authorItem]
    refine ⟨lexer₂, _, _, _, hkey.trans hitems, hrests, ?_⟩
    rw [authorEntries, if_neg (by simp), htokens]
    generalize List.flatMap Item.tokens _ = items
    have hclosed (inner : List Token) : Lexer.Closes 0 inner 2 [0, -1] (.blockEnd :: inner) 0 [-1] :=
      Lexer.closes_inner (by decide) (Lexer.closes_of_le (Int.le_refl 0))
    simpa [entryTokens] using hclosed _

end

/-- The entries of a manifest. -/
def entries {starter : Starter} (h : ∀ text ∈ starter.texts, IsQuotable text) :
    List (String × List Token) :=
  (nameField h :: (rootMore h).map Prod.snd).map Field.entry ++
    (authorEntries starter.authors ++ [("variables", variableTokens)])

theorem isAllowed_scalar {text : String} (h : IsQuotable text) :
    (scalar text).toList.all isAllowed = true := by
  unfold scalar
  split_ifs with hplain
  · exact (isPlainLine_of_read? (read?_of_isPlain hplain) (not_hasSeparator h)).2.2
  · exact isAllowed_quote h

theorem isAllowed_authorLines {authors : List String} (h : ∀ text ∈ authors, IsQuotable text) :
    (authorLines authors).toList.all isAllowed = true := by
  have hlines : (String.join (authors.map fun author => "  - " ++ scalar author ++ "\n")).toList.all
      isAllowed = true := by
    induction authors with
    | nil => rfl
    | cons author more ih =>
      have hauthor := isAllowed_scalar (h author (by simp))
      have hmore := ih fun text hmem => h text (by simp [hmem])
      rw [List.map_cons, String.join_cons]
      simp only [String.toList_append, List.all_append, hauthor, hmore]
      decide
  unfold authorLines
  split_ifs
  · rfl
  · rw [String.toList_append, List.all_append, hlines]
    decide

theorem isAllowed_exampleLines : exampleLines.toList.all isAllowed = true := by
  unfold exampleLines
  simp only [String.toList_append, -String.reduceAppend, List.all_append, Bool.and_eq_true]
  and_intros <;> decide

theorem isAllowed_manifest {starter : Starter} (h : ∀ text ∈ starter.texts, IsQuotable text) :
    (starter.manifest Settings.standard).toList.all isAllowed = true := by
  have hauthors : (authorLines starter.authors).toList.all isAllowed = true :=
    isAllowed_authorLines fun text hmem => h text (by simp [texts, hmem])
  unfold manifest
  simp only [String.toList_append, -String.reduceAppend, List.all_append, Bool.and_eq_true, hauthors,
    isAllowed_exampleLines, isAllowed_scalar (h starter.name (by simp [texts])),
    isAllowed_scalar (h starter.description (by simp [texts])),
    isAllowed_scalar (h starter.license (by simp [texts])), and_true]
  and_intros <;> decide

/-- A manifest with texts that come back from between quotes is read as a mapping of its entries. -/
theorem ofString?_manifest {starter : Starter} (h : ∀ text ∈ starter.texts, IsQuotable text) :
    Token.ofString? (starter.manifest Settings.standard) =
      some (mappingTokens (entries h) ++ [.streamEnd]) := by
  have htext := manifest_toList h
  have hquotable : ∀ text ∈ starter.authors, IsQuotable text := fun text hmem =>
    h text (by simp [texts, hmem])
  obtain ⟨rest, hsettles, hrest⟩ := leads_authors hquotable
  have hname : Settles 0 0 (starter.manifest Settings.standard).toList 0 ((nameField h).block (rootMore h)
      ((authorLines starter.authors).toList ++ exampleLines.toList)) := by
    obtain ⟨tail, heq⟩ := (nameField h).exists_block (rootMore h)
      ((authorLines starter.authors).toList ++ exampleLines.toList)
    rw [htext, heq]
    exact settles_of_settle? (by decide) (settles_key (nameField h).isKey (Nat.le_refl _))
  have hstart : Lexer.Rests (Lexer.start (starter.manifest Settings.standard).toList) _ 0 [] (-1) [] :=
    Lexer.rests_of_settles hname (by simp)
  have hgaps : ∀ next ∈ rootMore h, settle? 0 false 0 next.1 = some 0 := by
    simp only [rootMore, List.mem_cons, List.not_mem_nil, or_false, forall_eq_or_imp, forall_eq]
    decide
  obtain ⟨lexer₁, hroot, hrests⟩ := hstart.block (Lexer.closes_of_le (by decide)) (.inner (by decide))
    hgaps hsettles
  obtain ⟨lexer₂, tokens, indent, outer, hauthors, hrests, hclose⟩ := hrest _ _ hrests
  obtain ⟨lexer₃, inner, hvariables, hrests, hinner⟩ := leads_variables hrests hclose
  obtain ⟨chars, hhead⟩ : ∃ chars, (starter.manifest Settings.standard).toList = '#' :: chars :=
    ⟨_, htext⟩
  have hends (cursor : Cursor) : Lexer.closeBlocks (-1) [-1]
      ⟨cursor, .blockEnd :: .blockEnd :: inner, [none], true, 0, [-1]⟩ =
        ⟨cursor, .blockEnd :: .blockEnd :: .blockEnd :: inner, [none], true, -1, []⟩ := by
    simp [Lexer.closeBlocks, Lexer.inFlow, Lexer.push]
  rw [((hroot.trans hauthors).trans hvariables).ofString? hhead (by decide) (isAllowed_manifest h) hrests
    (Lexer.closes_inner (by decide) (Lexer.closes_inner (by decide) (Lexer.closes_of_le (by decide))))
    hends, hinner]
  rw [entries, mappingTokens, List.flatMap_append, List.flatMap_append, Field.flatMap_entries]
  generalize List.flatMap Field.tokens _ = first
  generalize List.flatMap _ (authorEntries starter.authors) = second
  simp

end Stencil.Starter
