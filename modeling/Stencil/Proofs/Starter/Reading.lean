import Stencil.Manifest.Check
import Stencil.Proofs.Starter.Tokens

/-!
# What a starter's manifest says

The document of a starter's manifest is the mapping of its fields (`fields`). No text of the user's in it
is taken for one that is left out, since one that is written plain is known to be read as a text. The
draft breaks no rule, so it is the manifest that the starter describes. A character that may not stand in
a stream is written as it is, in quotes or without them, and then there is no document.
-/

namespace Stencil.Starter

open Yaml

/-! ## The document -/

/-- A key with its value, as the nodes of an entry. -/
def keyed (field : String × Node) : Node × Node := (.scalar none .plain field.1, field.2)

/-- A text of the user's, as a node. -/
def textNode (text : String) : Node := .scalar none (form text) text

/-- The entry of the authors, if there are any. -/
def authorFields (authors : List String) : Entries Node :=
  if authors.isEmpty then [] else [("authors", .sequence none (authors.map textNode))]

/-- The first of the example variables. -/
def appNameFields : Entries Node :=
  [("name", .scalar none .plain "app_name"),
    ("description", .scalar none .plain "The name of the application."),
    ("default", .scalar none .plain "my-app"), ("example", .scalar none .plain "my-app")]

/-- The second of the example variables. -/
def enableHttpsFields : Entries Node :=
  [("name", .scalar none .plain "enable_https"),
    ("description", .scalar none .plain "Whether to enable HTTPS or not."),
    ("default", .scalar none .plain "true"), ("example", .scalar none .plain "true")]

/-- The example variables. -/
def variablesNode : Node :=
  .sequence none [.mapping none (appNameFields.map keyed), .mapping none (enableHttpsFields.map keyed)]

/-- The fields of a manifest. -/
def fields (starter : Starter) : Entries Node :=
  [("name", textNode starter.name), ("description", textNode starter.description),
    ("template_version", .scalar none .quoted "0.0.0"), ("manifest_version", .scalar none .plain "v2"),
    ("license", textNode starter.license)] ++
  (authorFields starter.authors ++ [("variables", variablesNode)])

theorem reads_variables : Reads variableTokens variablesNode :=
  reads_sequence (.cons (reads_mapping (Field.reads_entries _))
    (.cons (reads_mapping (Field.reads_entries _)) .nil))

theorem reads_authors (authors : List String) :
    Reads (sequenceTokens (authors.map fun author => [.scalar (form author) author]))
      (.sequence none (authors.map textNode)) := by
  refine reads_sequence ?_
  induction authors with
  | nil => exact .nil
  | cons author more ih => exact .cons (reads_scalar _ _) ih

theorem reads_fields {starter : Starter} (h : ∀ text ∈ starter.texts, IsQuotable text) :
    Reads (mappingTokens (entries h)) (.mapping none (starter.fields.map keyed)) := by
  refine reads_mapping ?_
  rw [entries, fields, List.map_append, List.map_append]
  refine List.rel_append (Field.reads_entries _) (List.rel_append ?_ ?_)
  · unfold authorEntries authorFields
    split_ifs
    · exact .nil
    · exact .cons ⟨rfl, reads_authors _⟩ .nil
  · exact .cons ⟨rfl, reads_variables⟩ .nil

theorem isSettled_keyed {depth : Nat} {fields : Entries Node}
    (h : ∀ field ∈ fields, IsSettled depth field.2) :
    IsSettled (depth + 1) (.mapping none (fields.map keyed)) := by
  refine isSettled_mapping fun entry hentry => ?_
  obtain ⟨field, hfield, rfl⟩ := List.mem_map.1 hentry
  exact ⟨isSettled_scalar _ _ _ _, h field hfield⟩

/-- No field of a manifest holds an alias or an anchor. -/
theorem isSettled_fields (starter : Starter) :
    IsSettled maxDepth (.mapping none (starter.fields.map keyed)) := by
  have hauthors : IsSettled 127 (.sequence none (starter.authors.map textNode)) :=
    isSettled_sequence fun item hitem => by
      obtain ⟨author, -, rfl⟩ := List.mem_map.1 hitem
      exact isSettled_scalar _ _ _ _
  have happName : ∀ field ∈ appNameFields, IsSettled 125 field.2 := by
    simp [appNameFields, isSettled_scalar]
  have henableHttps : ∀ field ∈ enableHttpsFields, IsSettled 125 field.2 := by
    simp [enableHttpsFields, isSettled_scalar]
  have hvariables : IsSettled 127 variablesNode := by
    refine isSettled_sequence fun item hitem => ?_
    simp only [List.mem_cons, List.not_mem_nil, or_false] at hitem
    rcases hitem with rfl | rfl
    · exact isSettled_keyed happName
    · exact isSettled_keyed henableHttps
  refine isSettled_keyed fun field hfield => ?_
  simp only [fields, authorFields, List.mem_append, List.mem_cons, List.not_mem_nil, or_false] at hfield
  rcases hfield with (rfl | rfl | rfl | rfl | rfl) | hfield | rfl
  any_goals exact isSettled_scalar _ _ _ _
  · split_ifs at hfield
    · simp at hfield
    · obtain rfl : field = _ := by simpa using hfield
      exact hauthors
  · exact hvariables

/-- The document of a manifest. -/
theorem ofString?_fields {starter : Starter} (h : ∀ text ∈ starter.texts, IsQuotable text) :
    Node.ofString? (starter.manifest Settings.standard) =
      some (.mapping none (starter.fields.map keyed)) := by
  simp only [Node.ofString?, ofString?_manifest h, Option.bind_eq_bind, Option.bind_some,
    ofTokens?_mapping (reads_fields h), isSettled_fields starter _]
  rfl

/-! ## The draft -/

theorem fields?_keyed (fields : Entries Node) :
    (Node.mapping none (fields.map keyed)).fields? = some fields := by
  simp only [Node.fields?, Node.mapping?, Option.bind_eq_bind, Option.bind_some]
  induction fields with
  | nil => rfl
  | cons field fields ih => 
    simp only [List.map_cons, List.mapM_cons, ih]
    rfl

/-- The example variables, as they are declared. -/
def exampleDrafts : List Declaration.Draft :=
  [{ name? := some "app_name", description? := some "The name of the application.",
     default? := some (.text "my-app"), sample? := some (.text "my-app"), validate? := none,
     unknown := [] },
   { name? := some "enable_https", description? := some "Whether to enable HTTPS or not.",
     default? := some (.bool true), sample? := some (.bool true), validate? := none, unknown := [] }]

/-- What a manifest says. -/
def draft (starter : Starter) : Manifest.Draft where
  name? := some starter.name
  description? := some starter.description
  templateVersion := .text "0.0.0"
  manifestVersion := .text "v2"
  authors := starter.authors
  license? := some starter.license
  configuration := { configuration := { ignorePaths := [], postCloneCommands := [] }, unknown := [] }
  declarations := exampleDrafts
  unknown := []

theorem optional?_textNode {text : String} (h : IsQuotable text) :
    Node.optional? Node.text? (textNode text) = some (some text) := by
  simp [Node.optional?, textNode, isMissing?_form h, Node.text?]

theorem listOf?_authors (authors : List String) :
    Node.listOf? Node.text? (.sequence none (authors.map textNode)) = some authors := by
  simp only [Node.listOf?]
  induction authors with
  | nil => rfl
  | cons author more ih => simp [List.mapM_cons, ih, textNode, Node.text?]

theorem listOf?_variables :
    Node.listOf? Declaration.Draft.ofNode? variablesNode = some exampleDrafts := by
  rfl

theorem ofNode?_fields {starter : Starter} (h : ∀ text ∈ starter.texts, IsQuotable text) :
    Manifest.Draft.ofNode? (.mapping none (starter.fields.map keyed)) = some starter.draft := by
  have hname := optional?_textNode (h starter.name (by simp [texts]))
  have hdescription := optional?_textNode (h starter.description (by simp [texts]))
  have hlicense := optional?_textNode (h starter.license (by simp [texts]))
  have hversion : (Node.scalar none .quoted "0.0.0").value? = some (.text "0.0.0") := rfl
  have hmanifest : (Node.scalar none .plain "v2").value? = some (.text "v2") := rfl
  have hunknown : (Entries.distinct ([] : Entries Node)).names = [] := rfl
  rw [Manifest.Draft.ofNode?, fields?_keyed]
  cases hauthors : starter.authors with
  | nil =>
    simp [fields, authorFields, hauthors, Node.field?, hname, hdescription, hlicense, hversion, hmanifest,
      listOf?_variables, Node.unknownFields?, hunknown, draft]
  | cons author more =>
    have hlist : Node.listOf? Node.text? (.sequence none (textNode author :: more.map textNode)) =
        some (author :: more) := listOf?_authors (author :: more)
    simp [fields, authorFields, hauthors, Node.field?, hname, hdescription, hlicense, hversion, hmanifest,
      hlist, listOf?_variables, Node.unknownFields?, hunknown, draft]

/-! ## The manifest -/

/-- The example variables of a new template. -/
def exampleDeclarations : List Declaration :=
  [{ name := "app_name", description := "The name of the application.", default? := some (.text "my-app"),
     sample := .text "my-app", validate := true },
   { name := "enable_https", description := "Whether to enable HTTPS or not.",
     default? := some (.bool true), sample := .bool true, validate := true }]

/-- The manifest that a new template is to have. -/
def described (settings : Settings) (starter : Starter) : Manifest where
  name := starter.name
  description := starter.description
  templateVersion := settings.defaultTemplateVersion
  manifestVersion := settings.newManifestVersion
  authors := starter.authors
  license := starter.license
  configuration := { ignorePaths := [], postCloneCommands := [] }
  declarations := exampleDeclarations

theorem not_isAllBlank_withDefaults (starter : Starter) :
    Text.isAllBlank (starter.withDefaults Settings.standard).name = false := by
  unfold withDefaults orElse
  dsimp only
  split_ifs with hblank
  · decide
  · simpa using hblank

theorem check_draft {starter : Starter} (h : Text.isAllBlank starter.name = false) :
    starter.draft.check Settings.standard.supportedVersions = .ok (starter.described Settings.standard) := by
  have hviolations : starter.draft.violations Settings.standard.supportedVersions = [] := by
    have hversion : starter.draft.templateVersionViolations = [] := by rfl
    have hmanifest :
        starter.draft.manifestVersionViolations Settings.standard.supportedVersions = [] := by rfl
    have hdeclarations : Declaration.Draft.allViolations [] exampleDrafts = [] := by rfl
    have hname : starter.draft.nameViolations = [] := by simp [Manifest.Draft.nameViolations, draft, h]
    simp only [Manifest.Draft.violations, hname, hversion, hmanifest]
    exact hdeclarations
  rw [Manifest.Draft.check, hviolations]
  rfl

/-! ## Characters that may not stand in a stream -/

theorem mem_scalar {text : String} {c : Char} (hmem : c ∈ text.toList) (hcontrol : 32 ≤ c.toNat)
    (hforbidden : isAllowed c = false) : c ∈ (scalar text).toList := by
  unfold scalar
  split_ifs
  · exact hmem
  · exact mem_quote hmem hcontrol hforbidden

theorem mem_authorLines {authors : List String} {author : String} {c : Char} (hauthor : author ∈ authors)
    (hmem : c ∈ (scalar author).toList) : c ∈ (authorLines authors).toList := by
  have hlines : c ∈ (String.join (authors.map fun author => "  - " ++ scalar author ++ "\n")).toList := by
    induction authors with
    | nil => cases hauthor
    | cons first more ih =>
      rw [List.map_cons, String.join_cons]
      simp only [String.toList_append, List.mem_append]
      rcases List.mem_cons.1 hauthor with rfl | hauthor
      · exact .inl (.inl (.inr hmem))
      · exact .inr (ih hauthor)
  have hsome : authors.isEmpty = false := by
    cases authors
    · cases hauthor
    · rfl
  rw [authorLines, hsome]
  simp only [Bool.false_eq_true, if_false, String.toList_append, List.mem_append, hlines, or_true]

theorem mem_manifest {settings : Settings} {starter : Starter} {text : String} {c : Char}
    (htext : text ∈ starter.texts) (hmem : c ∈ (scalar text).toList) :
    c ∈ (starter.manifest settings).toList := by
  simp only [texts, List.mem_cons] at htext
  unfold manifest
  simp only [String.toList_append, -String.reduceAppend, List.mem_append]
  rcases htext with rfl | rfl | rfl | hauthor
  · simp only [hmem, true_or, or_true]
  · simp only [hmem, true_or, or_true]
  · simp only [hmem, true_or, or_true]
  · simp only [mem_authorLines hauthor hmem, true_or, or_true]

/-- A text that holds a character out of place has no tokens. -/
theorem ofString?_forbidden {text : String} {c : Char} (hmem : c ∈ text.toList)
    (hforbidden : isAllowed c = false) : Manifest.Draft.ofString? text = none := by
  have hall : text.toList.all isAllowed = false :=
    List.all_eq_false.2 ⟨c, hmem, by simp [hforbidden]⟩
  simp [Manifest.Draft.ofString?, Node.ofString?, Token.ofString?, hall]

end Stencil.Starter
