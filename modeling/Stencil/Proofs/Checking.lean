import Mathlib
import Stencil.Manifest.Check

/-!
# What checking a draft comes to

The rules of manifests are said here one by one, each about a place of the draft (`Rule`) and with the violation
that reports it (`Manifest.Draft.Broken`), and apart from that what it is for a draft to break none of them
(`Manifest.Draft.Valid`). Checking goes over the places in one order (`Rule.rank`) and does not stop at the first
broken rule. That nothing is left out, nothing is reported twice and nothing else is reported is one fact about a
stretch of places (`Lists`): two stretches that meet are put together (`Lists.append`), so the proof follows the
places one after the other, and the declarations by induction.

What a draft amounts to is said by a relation as well (`Manifest.Decodes`), which has a manifest for every draft
that breaks no rule.
-/

namespace Stencil

/-! ## The rules -/

/-- What a rule about a declaration looks at, in the order of the checks. -/
inductive Rule.Part where
  | name
  | sample
  | default
  | fields
  deriving DecidableEq

/-- What a rule looks at, in the order of the checks; declarations go by their index. -/
inductive Rule where
  | rootFields
  | name
  | templateVersion
  | manifestVersion
  | commands
  | configurationFields
  | declaration (index : Nat) (part : Rule.Part)
  deriving DecidableEq

/-- When a part of a declaration has its turn. -/
def Rule.Part.rank : Rule.Part → Nat
  | .name => 0
  | .sample => 1
  | .default => 2
  | .fields => 3

/-- When a rule has its turn. -/
def Rule.rank : Rule → Nat
  | .rootFields => 0
  | .name => 1
  | .templateVersion => 2
  | .manifestVersion => 3
  | .commands => 4
  | .configurationFields => 5
  | .declaration index part => 6 + 4 * index + part.rank

theorem Rule.Part.rank_lt (part : Rule.Part) : part.rank < 4 := by
  cases part <;> decide

theorem Rule.Part.rank_injective {part other : Rule.Part} (h : part.rank = other.rank) : part = other := by
  cases part <;> cases other <;> first | rfl | cases h

theorem Rule.rank_injective {rule other : Rule} (h : rule.rank = other.rank) : rule = other := by
  have hleast (index : Nat) (part : Rule.Part) : 6 ≤ (Rule.declaration index part).rank := by
    rw [Rule.rank]
    omega
  cases rule with
  | declaration index part =>
      cases other with
      | declaration index' part' =>
          have hpart := part.rank_lt
          have hpart' := part'.rank_lt
          rw [Rule.rank, Rule.rank] at h
          obtain rfl : index = index' := by omega
          obtain rfl : part = part' := Rule.Part.rank_injective (by omega)
          rfl
      | _ => exact absurd (h ▸ hleast index part) (by decide)
  -- Of the other rules each has a rank of its own, below those of all declarations.
  | _ =>
      cases other with
      | declaration index' part' => exact absurd (h ▸ hleast index' part') (by decide)
      | _ => first | rfl | cases h

/-- What a version is written as: a text that is not blank stands for itself, a number for its digits. -/
inductive Value.Writes : Value → String → Prop
  | text {s : String} (h : Text.isAllBlank s = false) : (Value.text s).Writes s
  | integer (n : Int) : (Value.integer n).Writes (Json.integerText n)
  | decimal (x : Float) : (Value.decimal x).Writes (Json.decimalLayout.render x)

theorem versionText?_eq_some {value : Value} {version : String} :
    versionText? value = some version ↔ value.Writes version := by
  constructor
  · intro h
    cases value with
    | text s =>
        rw [versionText?] at h
        split at h
        · cases h
        · rename_i hblank
          cases h
          exact .text (by simpa using hblank)
    | integer n =>
        cases h
        exact .integer n
    | decimal x =>
        cases h
        exact .decimal x
    | _ => cases h
  · rintro (⟨h⟩ | n | x)
    · simp [versionText?, h]
    · rfl
    · rfl

theorem versionText?_eq_none {value : Value} : versionText? value = none ↔ ∀ version, ¬ value.Writes version := by
  simp only [Option.eq_none_iff_forall_ne_some, ne_eq, versionText?_eq_some]

/-- Whether a manifest of this version may not list commands yet. -/
def LacksCommands (version : String) : Prop := ∃ n, versionNumber? version = some n ∧ n < 2

theorem predates_commandsMinimum {version : String} :
    predates version commandsMinimum = true ↔ LacksCommands version := by
  have hminimum : versionNumber? commandsMinimum = some 2 := by decide
  rw [predates, hminimum, LacksCommands]
  cases versionNumber? version <;> simp

namespace Manifest.Draft

variable {supported : List String} {draft : Manifest.Draft}

/-- A rule is broken, and the violation says so. What a version of the manifest allows is only judged for a version
that is supported, and a default only where there is an example. -/
inductive Broken (supported : List String) (draft : Manifest.Draft) : Rule → Violation → Prop
  | rootFields (h : draft.unknown ≠ []) :
    Broken supported draft .rootFields (.unknownRootFields draft.unknown)
  | name (h : Text.isAllBlank (draft.name?.getD "") = true) :
    Broken supported draft .name (.missingRootField "name")
  | noTemplateVersion (h : ∀ version, ¬ draft.templateVersion.Writes version) :
    Broken supported draft .templateVersion (.missingRootField "template_version")
  | templateVersion {version : String} (h : draft.templateVersion.Writes version)
    (hinvalid : Version.isValid version = false) :
    Broken supported draft .templateVersion (.malformedVersion "template_version" version)
  | noManifestVersion (h : ∀ version, ¬ draft.manifestVersion.Writes version) :
    Broken supported draft .manifestVersion (.missingRootField "manifest_version")
  | manifestVersion {version : String} (h : draft.manifestVersion.Writes version)
    (hunsupported : version ∉ supported) :
    Broken supported draft .manifestVersion (.unsupportedManifestVersion version supported)
  | commands {version : String} (h : draft.manifestVersion.Writes version) (hsupported : version ∈ supported)
    (hcommands : draft.configuration.configuration.postCloneCommands ≠ []) (hlacks : LacksCommands version) :
    Broken supported draft .commands
      (.unsupportedFeature version "configuration.post_clone_commands" commandsMinimum)
  | configurationFields (h : draft.configuration.unknown ≠ []) :
    Broken supported draft .configurationFields (.unknownConfigurationFields draft.configuration.unknown)
  | unnamed {i : Nat} {d : Declaration.Draft} (hd : draft.declarations[i]? = some d) (h : d.name = "") :
    Broken supported draft (.declaration i .name) (.missingVariableField d.name "name")
  | repeated {i j : Nat} {d e : Declaration.Draft} (hd : draft.declarations[i]? = some d) (h : d.name ≠ "")
    (hj : j < i) (he : draft.declarations[j]? = some e) (hname : e.name = d.name) :
    Broken supported draft (.declaration i .name) (.duplicateVariable d.name)
  | sample {i : Nat} {d : Declaration.Draft} (hd : draft.declarations[i]? = some d) (h : d.sample? = none) :
    Broken supported draft (.declaration i .sample) (.missingVariableField d.name "example")
  | default {i : Nat} {d : Declaration.Draft} {sample value : Value} (hd : draft.declarations[i]? = some d)
    (hsample : d.sample? = some sample) (hvalue : d.default? = some value) (h : sample.fits value = false) :
    Broken supported draft (.declaration i .default)
      (.defaultMismatch d.name value.shapeText sample.shapeText)
  | fields {i : Nat} {d : Declaration.Draft} (hd : draft.declarations[i]? = some d) (h : d.unknown ≠ []) :
    Broken supported draft (.declaration i .fields) (.unknownVariableFields d.name d.unknown)

/-- No rule is broken. -/
structure Valid (supported : List String) (draft : Manifest.Draft) : Prop where
  rootFields : draft.unknown = []
  configurationFields : draft.configuration.unknown = []
  declarationFields : ∀ d ∈ draft.declarations, d.unknown = []
  name : Text.isAllBlank (draft.name?.getD "") = false
  templateVersion : ∃ version, draft.templateVersion.Writes version ∧ Version.isValid version = true
  manifestVersion : ∃ version ∈ supported, draft.manifestVersion.Writes version ∧
    (LacksCommands version → draft.configuration.configuration.postCloneCommands = [])
  named : ∀ d ∈ draft.declarations, d.name ≠ ""
  distinct : draft.declarations.Pairwise (·.name ≠ ·.name)
  samples : ∀ d ∈ draft.declarations, d.sample?.isSome = true
  defaults : ∀ d ∈ draft.declarations, ∀ sample value, d.sample? = some sample → d.default? = some value →
    sample.fits value = true

end Manifest.Draft

/-- The text of a version is one. -/
theorem Value.Writes.unique {value : Value} {version other : String} (h : value.Writes version)
    (hother : value.Writes other) : version = other :=
  Option.some.inj ((versionText?_eq_some.mpr h).symm.trans (versionText?_eq_some.mpr hother))

namespace Manifest.Draft

variable {supported : List String} {draft : Manifest.Draft}

/-- A rule that is broken is reported by one violation. -/
theorem Broken.unique {rule : Rule} {violation other : Violation} (h : draft.Broken supported rule violation)
    (hother : draft.Broken supported rule other) : violation = other := by
  cases h with
  | rootFields | name | configurationFields =>
      cases hother
      rfl
  | noTemplateVersion h =>
      cases hother with
      | noTemplateVersion => rfl
      | templateVersion h' => exact absurd h' (h _)
  | templateVersion h =>
      cases hother with
      | noTemplateVersion h' => exact absurd h (h' _)
      | templateVersion h' => rw [h.unique h']
  | noManifestVersion h =>
      cases hother with
      | noManifestVersion => rfl
      | manifestVersion h' => exact absurd h' (h _)
  | manifestVersion h =>
      cases hother with
      | noManifestVersion h' => exact absurd h (h' _)
      | manifestVersion h' => rw [h.unique h']
  | commands h =>
      cases hother with
      | commands h' => rw [h.unique h']
  | unnamed hd h =>
      cases hother with
      | unnamed hd' => rw [Option.some.inj (hd.symm.trans hd')]
      | repeated hd' h' => exact absurd (Option.some.inj (hd.symm.trans hd') ▸ h) h'
  | repeated hd h =>
      cases hother with
      | unnamed hd' h' => exact absurd (Option.some.inj (hd'.symm.trans hd) ▸ h') h
      | repeated hd' => rw [Option.some.inj (hd.symm.trans hd')]
  | sample hd =>
      cases hother with
      | sample hd' => rw [Option.some.inj (hd.symm.trans hd')]
  | default hd hsample hvalue =>
      cases hother with
      | default hd' hsample' hvalue' =>
          obtain rfl := Option.some.inj (hd.symm.trans hd')
          rw [Option.some.inj (hsample.symm.trans hsample'), Option.some.inj (hvalue.symm.trans hvalue')]
  | fields hd =>
      cases hother with
      | fields hd' => rw [Option.some.inj (hd.symm.trans hd')]

/-- **A draft is valid if nothing can be reported.** -/
theorem valid_iff_unbroken : draft.Valid supported ↔ ∀ rule violation, ¬ draft.Broken supported rule violation := by
  constructor
  · rintro hvalid rule violation (h | h | h | ⟨h, hinvalid⟩ | h | ⟨h, hunsupported⟩ | ⟨h, -, hcommands, hlacks⟩ | h |
      ⟨hd, h⟩ | ⟨hd, h, hj, he, hname⟩ | ⟨hd, h⟩ | ⟨hd, hsample, hvalue, h⟩ | ⟨hd, h⟩)
    · exact h hvalid.rootFields
    · rw [hvalid.name] at h
      cases h
    · obtain ⟨version, hwrites, -⟩ := hvalid.templateVersion
      exact h version hwrites
    · obtain ⟨version, hwrites, hversion⟩ := hvalid.templateVersion
      rw [h.unique hwrites, hversion] at hinvalid
      cases hinvalid
    · obtain ⟨version, -, hwrites, -⟩ := hvalid.manifestVersion
      exact h version hwrites
    · obtain ⟨version, hsupported, hwrites, -⟩ := hvalid.manifestVersion
      exact hunsupported (h.unique hwrites ▸ hsupported)
    · obtain ⟨version, -, hwrites, hnone⟩ := hvalid.manifestVersion
      exact hcommands (hnone (h.unique hwrites ▸ hlacks))
    · exact h hvalid.configurationFields
    · exact hvalid.named _ (List.mem_of_getElem? hd) h
    · obtain ⟨hi, rfl⟩ := List.getElem?_eq_some_iff.mp hd
      obtain ⟨hj', rfl⟩ := List.getElem?_eq_some_iff.mp he
      exact List.pairwise_iff_getElem.mp hvalid.distinct _ _ hj' hi hj hname
    · have hsome := hvalid.samples _ (List.mem_of_getElem? hd)
      rw [h] at hsome
      cases hsome
    · rw [hvalid.defaults _ (List.mem_of_getElem? hd) _ _ hsample hvalue] at h
      cases h
    · exact h (hvalid.declarationFields _ (List.mem_of_getElem? hd))
  · intro hnone
    refine ⟨?_, ?_, fun d hmem => ?_, ?_, ?_, ?_, fun d hmem => ?_, ?_, fun d hmem => ?_,
      fun d hmem sample value hsample hvalue => ?_⟩
    · by_contra h
      exact hnone _ _ (.rootFields h)
    · by_contra h
      exact hnone _ _ (.configurationFields h)
    · obtain ⟨i, hd⟩ := List.getElem?_of_mem hmem
      by_contra h
      exact hnone _ _ (.fields hd h)
    · by_contra h
      exact hnone _ _ (.name (by simpa using h))
    · by_contra h
      refine hnone _ _ (.noTemplateVersion fun version hwrites => ?_)
      cases hvalid : Version.isValid version with
      | true => exact h ⟨version, hwrites, hvalid⟩
      | false => exact hnone _ _ (.templateVersion hwrites hvalid)
    · by_contra h
      refine hnone _ _ (.noManifestVersion fun version hwrites => ?_)
      by_cases hsupported : version ∈ supported
      · refine h ⟨version, hsupported, hwrites, fun hlacks => ?_⟩
        by_contra hcommands
        exact hnone _ _ (.commands hwrites hsupported hcommands hlacks)
      · exact hnone _ _ (.manifestVersion hwrites hsupported)
    · obtain ⟨i, hd⟩ := List.getElem?_of_mem hmem
      exact fun h => hnone _ _ (.unnamed hd h)
    · refine List.pairwise_iff_getElem.mpr fun j i hj hi hji hname => ?_
      by_cases hempty : draft.declarations[i].name = ""
      · exact hnone _ _ (.unnamed (List.getElem?_eq_getElem hi) hempty)
      · exact hnone _ _
          (.repeated (List.getElem?_eq_getElem hi) hempty hji (List.getElem?_eq_getElem hj) hname)
    · obtain ⟨i, hd⟩ := List.getElem?_of_mem hmem
      cases hsample : d.sample? with
      | some sample => rfl
      | none => exact absurd (.sample hd hsample) (hnone _ _)
    · obtain ⟨i, hd⟩ := List.getElem?_of_mem hmem
      cases hfits : sample.fits value with
      | true => rfl
      | false => exact absurd (.default hd hsample hvalue hfits) (hnone _ _)

end Manifest.Draft

/-! ## The report -/

/-- What is reported of a stretch of rules: every rule of it that is broken, once, in the order of the rules, and
nothing else. -/
def Lists (broken : Rule → Violation → Prop) (first next : Nat) (all : List Violation) : Prop :=
  ∃ found : List (Rule × Violation),
    all = found.map Prod.snd ∧ found.Pairwise (·.1.rank < ·.1.rank) ∧
      ∀ rule violation, (rule, violation) ∈ found ↔ broken rule violation ∧ first ≤ rule.rank ∧ rule.rank < next

namespace Lists

variable {broken : Rule → Violation → Prop} {first middle next : Nat} {all more : List Violation}

/-- Nothing is reported of a rule that holds. -/
theorem none (rule : Rule) (h : ∀ violation, ¬ broken rule violation) :
    Lists broken rule.rank (rule.rank + 1) [] := by
  refine ⟨[], rfl, List.Pairwise.nil, fun other violation => ⟨fun hmem => absurd hmem List.not_mem_nil, ?_⟩⟩
  rintro ⟨hbroken, hle, hlt⟩
  obtain rfl : rule = other := Rule.rank_injective (by omega)
  exact absurd hbroken (h violation)

/-- One thing is reported of a rule that is broken. -/
theorem one {rule : Rule} {violation : Violation} (h : ∀ other, broken rule other ↔ other = violation) :
    Lists broken rule.rank (rule.rank + 1) [violation] := by
  refine ⟨[(rule, violation)], rfl, List.pairwise_singleton _ _, fun rule' other => ?_⟩
  rw [List.mem_singleton, Prod.mk.injEq]
  constructor
  · rintro ⟨rfl, rfl⟩
    exact ⟨(h _).mpr rfl, Nat.le_refl _, Nat.lt_succ_self _⟩
  · rintro ⟨hbroken, hle, hlt⟩
    obtain rfl : rule = rule' := Rule.rank_injective (by omega)
    exact ⟨rfl, (h other).mp hbroken⟩

/-- Two stretches that meet are one. -/
theorem append (hfirst : first ≤ middle) (hnext : middle ≤ next) (h : Lists broken first middle all)
    (hmore : Lists broken middle next more) : Lists broken first next (all ++ more) := by
  obtain ⟨found, rfl, hsorted, hmem⟩ := h
  obtain ⟨found', rfl, hsorted', hmem'⟩ := hmore
  refine ⟨found ++ found', List.map_append.symm, List.pairwise_append.mpr ⟨hsorted, hsorted', ?_⟩, ?_⟩
  · rintro ⟨rule, violation⟩ hrule ⟨rule', violation'⟩ hrule'
    exact Nat.lt_of_lt_of_le ((hmem _ _).mp hrule).2.2 ((hmem' _ _).mp hrule').2.1
  · intro rule violation
    rw [List.mem_append, hmem, hmem', ← and_or_left]
    refine and_congr_right fun _ => ?_
    omega

end Lists

namespace Manifest.Draft

variable {supported : List String} {draft : Manifest.Draft}

/-- The broken rules of a stretch of places are the violations. -/
abbrev Reports (supported : List String) (draft : Manifest.Draft) : Nat → Nat → List Violation → Prop :=
  Lists (draft.Broken supported)

theorem Broken.reports {rule : Rule} {violation : Violation} (h : draft.Broken supported rule violation) :
    Reports supported draft rule.rank (rule.rank + 1) [violation] :=
  Lists.one fun _ => ⟨fun hother => hother.unique h, fun heq => heq ▸ h⟩

/-- Unknown fields are reported at once. -/
theorem reports_unknown (rule : Rule) {report : List String → Violation} {unknown : List String}
    (h : ∀ violation, draft.Broken supported rule violation ↔ unknown ≠ [] ∧ violation = report unknown) :
    Reports supported draft rule.rank (rule.rank + 1) (unknownViolations report unknown) := by
  unfold unknownViolations
  split
  · rename_i hempty
    exact Lists.none rule fun violation hbroken => ((h violation).mp hbroken).1 (List.isEmpty_iff.mp hempty)
  · rename_i hsome
    exact Broken.reports ((h _).mpr ⟨fun hnil => hsome (List.isEmpty_iff.mpr hnil), rfl⟩)

theorem reports_rootFields (supported : List String) (draft : Manifest.Draft) :
    Reports supported draft 0 1 (unknownViolations .unknownRootFields draft.unknown) := by
  refine reports_unknown .rootFields fun violation => ⟨fun hbroken => ?_, ?_⟩
  · cases hbroken with
    | rootFields h => exact ⟨h, rfl⟩
  · rintro ⟨h, rfl⟩
    exact .rootFields h

theorem reports_configurationFields (supported : List String) (draft : Manifest.Draft) :
    Reports supported draft 5 6
      (unknownViolations .unknownConfigurationFields draft.configuration.unknown) := by
  refine reports_unknown .configurationFields fun violation => ⟨fun hbroken => ?_, ?_⟩
  · cases hbroken with
    | configurationFields h => exact ⟨h, rfl⟩
  · rintro ⟨h, rfl⟩
    exact .configurationFields h

theorem reports_name (supported : List String) (draft : Manifest.Draft) :
    Reports supported draft 1 2 draft.nameViolations := by
  unfold nameViolations
  split
  · rename_i hblank
    exact Broken.reports (.name hblank)
  · rename_i hname
    refine Lists.none .name fun violation hbroken => ?_
    cases hbroken with
    | name h => exact hname h

theorem reports_templateVersion (supported : List String) (draft : Manifest.Draft) :
    Reports supported draft 2 3 draft.templateVersionViolations := by
  unfold templateVersionViolations
  cases hversion : versionText? draft.templateVersion with
  | none => exact Broken.reports (.noTemplateVersion (versionText?_eq_none.mp hversion))
  | some version =>
      have hwrites := versionText?_eq_some.mp hversion
      dsimp only
      split
      · rename_i hvalid
        refine Lists.none .templateVersion fun violation hbroken => ?_
        cases hbroken with
        | noTemplateVersion h => exact h version hwrites
        | templateVersion h hinvalid =>
            rw [h.unique hwrites, hvalid] at hinvalid
            cases hinvalid
      · rename_i hinvalid
        exact Broken.reports (.templateVersion hwrites (Bool.eq_false_iff.mpr hinvalid))

/-- The version of the manifest and the commands it has to allow are judged at once, but at most one of the two is
reported. -/
theorem reports_manifestVersion (supported : List String) (draft : Manifest.Draft) :
    Reports supported draft 3 5 (draft.manifestVersionViolations supported) := by
  have hjoin {versions commands : List Violation} (hversions : Reports supported draft 3 4 versions)
      (hcommands : Reports supported draft 4 5 commands) : Reports supported draft 3 5 (versions ++ commands) :=
    hversions.append (by decide) (by decide) hcommands
  unfold manifestVersionViolations
  cases hversion : versionText? draft.manifestVersion with
  | none =>
      have hnone := versionText?_eq_none.mp hversion
      refine hjoin (Broken.reports (.noManifestVersion hnone)) (Lists.none .commands ?_)
      intro violation hbroken
      cases hbroken with
      | commands h => exact hnone _ h
  | some version =>
      have hwrites := versionText?_eq_some.mp hversion
      dsimp only
      split
      · rename_i hunsupported
        have hnot : version ∉ supported := by simpa using hunsupported
        refine hjoin (Broken.reports (.manifestVersion hwrites hnot)) (Lists.none .commands ?_)
        intro violation hbroken
        cases hbroken with
        | commands h hsupported => exact hnot (h.unique hwrites ▸ hsupported)
      · rename_i hsupported
        have hmem : version ∈ supported := by simpa using hsupported
        have hversions : Reports supported draft 3 4 [] := by
          refine Lists.none .manifestVersion fun violation hbroken => ?_
          cases hbroken with
          | noManifestVersion h => exact h version hwrites
          | manifestVersion h hunsupported => exact hunsupported (h.unique hwrites ▸ hmem)
        split
        · rename_i hlacking
          obtain ⟨hcommands, hlacks⟩ := Bool.and_eq_true_iff.mp hlacking
          exact hjoin hversions (Broken.reports
            (.commands hwrites hmem (by simpa using hcommands) (predates_commandsMinimum.mp hlacks)))
        · rename_i hfine
          refine hjoin hversions (Lists.none .commands fun violation hbroken => hfine ?_)
          cases hbroken with
          | commands h _ hcommands hlacks =>
              rw [h.unique hwrites] at hlacks
              simp [hcommands, predates_commandsMinimum.mpr hlacks]

section Declarations

variable {i : Nat} {d : Declaration.Draft} {before : List String}

theorem reports_declarationName (hd : draft.declarations[i]? = some d)
    (hbefore : ∀ name, name ∈ before ↔ ∃ j < i, ∃ e, draft.declarations[j]? = some e ∧ e.name = name) :
    Reports supported draft (6 + 4 * i) (6 + 4 * i + 1)
      (if d.name.isEmpty then [.missingVariableField d.name "name"]
        else if before.contains d.name then [.duplicateVariable d.name] else []) := by
  split
  · rename_i hempty
    exact Broken.reports (.unnamed hd (String.isEmpty_iff.mp hempty))
  · rename_i hnamed
    have hname : d.name ≠ "" := fun hempty => hnamed (String.isEmpty_iff.mpr hempty)
    split
    · rename_i hrepeated
      obtain ⟨j, hj, e, he, hsame⟩ := (hbefore d.name).mp (by simpa using hrepeated)
      exact Broken.reports (.repeated hd hname hj he hsame)
    · rename_i hfirst
      refine Lists.none (.declaration i .name) fun violation hbroken => ?_
      cases hbroken with
      | unnamed hd' h =>
          obtain rfl := Option.some.inj (hd.symm.trans hd')
          exact hname h
      | repeated hd' h hj he hsame =>
          obtain rfl := Option.some.inj (hd.symm.trans hd')
          exact hfirst (by simpa using (hbefore d.name).mpr ⟨_, hj, _, he, hsame⟩)

theorem reports_sample (hd : draft.declarations[i]? = some d) :
    Reports supported draft (6 + 4 * i + 1) (6 + 4 * i + 2)
      (if d.sample?.isNone then [.missingVariableField d.name "example"] else []) := by
  split
  · rename_i hnone
    exact Broken.reports (.sample hd (Option.isNone_iff_eq_none.mp hnone))
  · rename_i hsome
    refine Lists.none (.declaration i .sample) fun violation hbroken => ?_
    cases hbroken with
    | sample hd' h =>
        obtain rfl := Option.some.inj (hd.symm.trans hd')
        exact hsome (Option.isNone_iff_eq_none.mpr h)

theorem reports_declarationFields (hd : draft.declarations[i]? = some d) :
    Reports supported draft (6 + 4 * i + 3) (6 + 4 * i + 4)
      (unknownViolations (.unknownVariableFields d.name) d.unknown) := by
  refine reports_unknown (.declaration i .fields) fun violation => ⟨fun hbroken => ?_, ?_⟩
  · cases hbroken with
    | fields hd' h =>
        obtain rfl := Option.some.inj (hd.symm.trans hd')
        exact ⟨h, rfl⟩
  · rintro ⟨h, rfl⟩
    exact .fields hd h

theorem reports_default (hd : draft.declarations[i]? = some d)
    (h : ∀ sample value, d.sample? = some sample → d.default? = some value → sample.fits value = true) :
    Reports supported draft (6 + 4 * i + 2) (6 + 4 * i + 3) [] := by
  refine Lists.none (.declaration i .default) fun violation hbroken => ?_
  cases hbroken with
  | default hd' hsample hvalue hmismatch =>
      obtain rfl := Option.some.inj (hd.symm.trans hd')
      rw [h _ _ hsample hvalue] at hmismatch
      cases hmismatch

/-- One declaration, those before it being known by their names. -/
theorem reports_declaration (hd : draft.declarations[i]? = some d)
    (hbefore : ∀ name, name ∈ before ↔ ∃ j < i, ∃ e, draft.declarations[j]? = some e ∧ e.name = name) :
    Reports supported draft (6 + 4 * i) (6 + 4 * i + 4) (d.violations before) := by
  unfold Declaration.Draft.violations
  refine Lists.append (by omega) (by omega) (Lists.append (by omega) (by omega) (Lists.append (by omega) (by omega)
    (reports_declarationName hd hbefore) (reports_sample hd)) ?_) (reports_declarationFields hd)
  cases hsample : d.sample? with
  | none => exact reports_default hd fun sample value hsome => by rw [hsample] at hsome; cases hsome
  | some sample =>
      cases hvalue : d.default? with
      | none => exact reports_default hd fun sample value _ hsome => by rw [hvalue] at hsome; cases hsome
      | some value =>
          dsimp only
          split
          · rename_i hfits
            refine reports_default hd fun sample' value' hsample' hvalue' => ?_
            rw [← Option.some.inj (hsample.symm.trans hsample'), ← Option.some.inj (hvalue.symm.trans hvalue'), hfits]
          · rename_i hmismatch
            exact Broken.reports (.default hd hsample hvalue (Bool.eq_false_iff.mpr hmismatch))

/-- The declarations from some place on, the names before it being known. -/
theorem reports_declarations (front rest : List Declaration.Draft) (hsplit : draft.declarations = front ++ rest)
    (hbefore : ∀ name, name ∈ before ↔ name ∈ front.map Declaration.Draft.name) :
    Reports supported draft (6 + 4 * front.length) (6 + 4 * draft.declarations.length)
      (Declaration.Draft.allViolations before rest) := by
  induction rest generalizing front before with
  | nil =>
      rw [hsplit, List.append_nil]
      refine ⟨[], rfl, List.Pairwise.nil, fun rule violation => ⟨fun hmem => absurd hmem List.not_mem_nil, ?_⟩⟩
      rintro ⟨-, hle, hlt⟩
      omega
  | cons d rest ih =>
      -- `before` has the names of the front in reverse, so all that is known of it is which names are there.
      have hd : draft.declarations[front.length]? = some d := by simp [hsplit]
      have hlength : draft.declarations.length = front.length + (rest.length + 1) := by simp [hsplit]
      have hearlier : ∀ name, name ∈ before ↔
          ∃ j < front.length, ∃ e, draft.declarations[j]? = some e ∧ e.name = name := by
        intro name
        rw [hbefore, List.mem_map]
        constructor
        · rintro ⟨e, he, hname⟩
          obtain ⟨j, hj, rfl⟩ := List.getElem_of_mem he
          exact ⟨j, hj, _, by rw [hsplit, List.getElem?_append_left hj, List.getElem?_eq_getElem hj], hname⟩
        · rintro ⟨j, hj, e, he, hname⟩
          rw [hsplit, List.getElem?_append_left hj] at he
          exact ⟨e, List.mem_of_getElem? he, hname⟩
      have hnames : ∀ name, name ∈ d.name :: before ↔ name ∈ (front ++ [d]).map Declaration.Draft.name := by
        intro name
        simp [hbefore, or_comm]
      have hrest := ih (front ++ [d]) (by rw [hsplit, List.append_assoc, List.singleton_append]) hnames
      rw [List.length_append, List.length_singleton] at hrest
      rw [Declaration.Draft.allViolations]
      exact Lists.append (by omega) (by omega) (reports_declaration hd hearlier) hrest

end Declarations

/-- **All that is wrong with a draft is reported**, and nothing else. -/
theorem reports_violations (supported : List String) (draft : Manifest.Draft) :
    Reports supported draft 0 (6 + 4 * draft.declarations.length) (draft.violations supported) := by
  have hdeclarations : Reports supported draft 6 (6 + 4 * draft.declarations.length)
      (Declaration.Draft.allViolations [] draft.declarations) :=
    reports_declarations [] draft.declarations rfl fun name => by simp
  exact ((((reports_rootFields supported draft).append (by decide) (by decide) (reports_name supported draft)).append
    (by decide) (by decide) (reports_templateVersion supported draft)).append (by decide) (by decide)
    (reports_manifestVersion supported draft)).append (by decide) (by decide)
    (reports_configurationFields supported draft) |>.append (by decide) (by omega) hdeclarations

theorem Broken.rank_lt {rule : Rule} {violation : Violation} (h : draft.Broken supported rule violation) :
    rule.rank < 6 + 4 * draft.declarations.length := by
  have hdeclared {i : Nat} {d : Declaration.Draft} {part : Rule.Part} (hd : draft.declarations[i]? = some d) :
      (Rule.declaration i part).rank < 6 + 4 * draft.declarations.length := by
    have hi := (List.getElem?_eq_some_iff.mp hd).1
    have hpart := part.rank_lt
    rw [Rule.rank]
    omega
  cases h with
  | unnamed hd | repeated hd | sample hd | default hd | fields hd => exact hdeclared hd
  | _ => exact Nat.lt_of_lt_of_le (by decide : _ < 6) (Nat.le_add_right 6 _)

end Manifest.Draft

/-! ## The manifest -/

/-- The declaration that a draft of one stands for. -/
structure Declaration.Decodes (draft : Declaration.Draft) (d : Declaration) : Prop where
  name : draft.name? = some d.name
  description : d.description = draft.description?.getD ""
  default : d.default? = draft.default?
  sample : draft.sample? = some d.sample
  validate : d.validate = draft.validate?.getD true

/-- The manifest that a draft stands for: every field has the value that is written, and the declarations are all
there in their order. -/
structure Manifest.Decodes (draft : Manifest.Draft) (manifest : Manifest) : Prop where
  name : draft.name? = some manifest.name
  description : manifest.description = draft.description?.getD ""
  templateVersion : draft.templateVersion.Writes manifest.templateVersion
  manifestVersion : draft.manifestVersion.Writes manifest.manifestVersion
  authors : manifest.authors = draft.authors
  license : manifest.license = draft.license?.getD ""
  configuration : manifest.configuration = draft.configuration.configuration
  declarations : List.Forall₂ Declaration.Decodes draft.declarations manifest.declarations

theorem Declaration.Draft.decodes_declaration? {draft : Declaration.Draft} (hname : draft.name ≠ "")
    (hsample : draft.sample?.isSome = true) : ∃ d, draft.declaration? = some d ∧ Declaration.Decodes draft d := by
  obtain ⟨sample, hsample⟩ := Option.isSome_iff_exists.mp hsample
  refine ⟨_, by rw [declaration?, hsample, Option.map_some], ?_, rfl, rfl, hsample, rfl⟩
  unfold Declaration.Draft.name at hname ⊢
  cases hgiven : draft.name? with
  | none => exact absurd (by rw [hgiven]; rfl) hname
  | some name => rfl

theorem Declaration.Draft.decodes_filterMap {drafts : List Declaration.Draft} (hnamed : ∀ d ∈ drafts, d.name ≠ "")
    (hsamples : ∀ d ∈ drafts, d.sample?.isSome = true) :
    List.Forall₂ Declaration.Decodes drafts (drafts.filterMap Declaration.Draft.declaration?) := by
  induction drafts with
  | nil => exact .nil
  | cons draft rest ih =>
      obtain ⟨d, hd, hdecodes⟩ := decodes_declaration? (hnamed draft List.mem_cons_self)
        (hsamples draft List.mem_cons_self)
      rw [List.filterMap_cons_some hd]
      exact .cons hdecodes (ih (fun e he => hnamed e (List.mem_cons_of_mem draft he))
        fun e he => hsamples e (List.mem_cons_of_mem draft he))

namespace Manifest.Draft

variable {supported : List String} {draft : Manifest.Draft}

theorem Valid.decodes (h : draft.Valid supported) : draft.manifest.Decodes draft := by
  obtain ⟨templateVersion, htemplate, -⟩ := h.templateVersion
  obtain ⟨manifestVersion, -, hmanifest, -⟩ := h.manifestVersion
  refine ⟨?_, rfl, ?_, ?_, rfl, rfl, rfl, Declaration.Draft.decodes_filterMap h.named h.samples⟩
  · have hname := h.name
    unfold manifest
    cases hgiven : draft.name? with
    | none => rw [hgiven] at hname; cases hname
    | some name => rfl
  · rw [manifest, versionText?_eq_some.mpr htemplate]
    exact htemplate
  · rw [manifest, versionText?_eq_some.mpr hmanifest]
    exact hmanifest

end Manifest.Draft

namespace Manifest

/-- A draft that breaks no rule stands for a manifest. -/
theorem parse_of_valid {text : String} {draft : Manifest.Draft} {supported : List String}
    (h : Manifest.Draft.ofString? text = some draft) (hvalid : draft.Valid supported) :
    ∃ manifest, Manifest.parse text supported = .ok manifest ∧ manifest.Decodes draft := by
  obtain ⟨found, hfound, -, hmem⟩ := Draft.reports_violations supported draft
  have hnone : found = [] := List.eq_nil_iff_forall_not_mem.mpr fun ⟨rule, violation⟩ hreported =>
    Draft.valid_iff_unbroken.mp hvalid rule violation ((hmem rule violation).mp hreported).1
  refine ⟨draft.manifest, ?_, hvalid.decodes⟩
  rw [Manifest.parse, h]
  dsimp only
  rw [Draft.check, hfound, hnone]
  rfl

/-- Every rule that a draft breaks is reported once, in the order of the rules. -/
theorem parse_of_not_valid {text : String} {draft : Manifest.Draft} {supported : List String}
    (h : Manifest.Draft.ofString? text = some draft) (hinvalid : ¬ draft.Valid supported) :
    ∃ found : List (Rule × Violation),
      Manifest.parse text supported = .error (.violations (found.map Prod.snd)) ∧ found ≠ [] ∧
      found.Pairwise (·.1.rank < ·.1.rank) ∧
      ∀ rule violation, (rule, violation) ∈ found ↔ draft.Broken supported rule violation := by
  obtain ⟨found, hfound, hsorted, hmem⟩ := Draft.reports_violations supported draft
  have hbroken : ∀ rule violation, (rule, violation) ∈ found ↔ draft.Broken supported rule violation :=
    fun rule violation => (hmem rule violation).trans
      ⟨And.left, fun hbroken => ⟨hbroken, Nat.zero_le _, hbroken.rank_lt⟩⟩
  have hsome : found ≠ [] := by
    rintro rfl
    exact hinvalid (Draft.valid_iff_unbroken.mpr fun rule violation hrule =>
      List.not_mem_nil ((hbroken rule violation).mpr hrule))
  refine ⟨found, ?_, hsome, hsorted, hbroken⟩
  rw [Manifest.parse, h]
  dsimp only
  rw [Draft.check, hfound]
  exact if_neg (by simpa using hsome)

/-- A manifest that is read is that of a draft that breaks no rule. -/
theorem valid_of_parse {text : String} {supported : List String} {manifest : Manifest}
    (h : Manifest.parse text supported = .ok manifest) :
    ∃ draft, Manifest.Draft.ofString? text = some draft ∧ draft.Valid supported ∧ manifest.Decodes draft := by
  cases hdraft : Manifest.Draft.ofString? text with
  | none =>
      rw [Manifest.parse, hdraft] at h
      cases h
  | some draft =>
      by_cases hvalid : draft.Valid supported
      · obtain ⟨found, hfound, hdecodes⟩ := parse_of_valid hdraft hvalid
        rw [h, Except.ok.injEq] at hfound
        exact ⟨draft, rfl, hvalid, hfound ▸ hdecodes⟩
      · obtain ⟨found, hfound, -⟩ := parse_of_not_valid hdraft hvalid
        rw [h] at hfound
        cases hfound

/-- What is reported of a text is broken by its draft. -/
theorem broken_of_parse {text : String} {supported : List String} {violations : List Violation}
    {violation : Violation} (h : Manifest.parse text supported = .error (.violations violations))
    (hmem : violation ∈ violations) :
    ∃ draft rule, Manifest.Draft.ofString? text = some draft ∧ draft.Broken supported rule violation := by
  cases hdraft : Manifest.Draft.ofString? text with
  | none =>
      rw [Manifest.parse, hdraft] at h
      cases h
  | some draft =>
      by_cases hvalid : draft.Valid supported
      · obtain ⟨manifest, hparse, -⟩ := parse_of_valid hdraft hvalid
        rw [h] at hparse
        cases hparse
      · obtain ⟨found, hparse, -, -, hfound⟩ := parse_of_not_valid hdraft hvalid
        rw [h, Except.error.injEq, Fault.violations.injEq] at hparse
        subst hparse
        obtain ⟨⟨rule, reported⟩, hreported, rfl⟩ := List.mem_map.mp hmem
        exact ⟨draft, rule, rfl, (hfound rule reported).mp hreported⟩

/-- **A text is a manifest if its draft breaks no rule, and else every broken rule is reported once**, in the order of
the rules. -/
theorem parse_valid_or_violations {text : String} {draft : Manifest.Draft} (supported : List String)
    (h : Manifest.Draft.ofString? text = some draft) :
    (draft.Valid supported ∧ ∃ manifest, Manifest.parse text supported = .ok manifest ∧ manifest.Decodes draft) ∨
    (¬ draft.Valid supported ∧ ∃ found : List (Rule × Violation),
      Manifest.parse text supported = .error (.violations (found.map Prod.snd)) ∧ found ≠ [] ∧
      found.Pairwise (·.1.rank < ·.1.rank) ∧
      ∀ rule violation, (rule, violation) ∈ found ↔ draft.Broken supported rule violation) := by
  by_cases hvalid : draft.Valid supported
  · exact Or.inl ⟨hvalid, parse_of_valid h hvalid⟩
  · exact Or.inr ⟨hvalid, parse_of_not_valid h hvalid⟩

/-- A manifest with a blank for its version. -/
def blankVersionText : String := "name: a\ntemplate_version: 1.0.0\nmanifest_version: ' '\n"

/-- The draft of `blankVersionText`. -/
def blankVersion : Manifest.Draft :=
  { name? := some "a", description? := none, templateVersion := .text "1.0.0", manifestVersion := .text " ",
    authors := [], license? := none,
    configuration := { configuration := { ignorePaths := [], postCloneCommands := [] }, unknown := [] },
    declarations := [], unknown := [] }

theorem ofString?_blankVersionText : Manifest.Draft.ofString? blankVersionText = some blankVersion := by cbv

theorem not_writes_blank {version : String} : ¬ (Value.text " ").Writes version := by
  rintro ⟨h⟩
  revert h
  decide

theorem parse_valid_or_violations_blankVersion :
    Manifest.Draft.ofString? blankVersionText = some blankVersion ∧ ¬ blankVersion.Valid ["v1", "v2"] ∧
      ∃ found : List (Rule × Violation),
        Manifest.parse blankVersionText ["v1", "v2"] = .error (.violations (found.map Prod.snd)) ∧ found ≠ [] ∧
        found.Pairwise (·.1.rank < ·.1.rank) ∧
        ∀ rule violation, (rule, violation) ∈ found ↔ blankVersion.Broken ["v1", "v2"] rule violation := by
  refine ⟨ofString?_blankVersionText, ?_⟩
  refine (parse_valid_or_violations ["v1", "v2"] ofString?_blankVersionText).resolve_left fun h => ?_
  obtain ⟨version, -, hwrites, -⟩ := h.1.manifestVersion
  exact not_writes_blank hwrites

/-- A blank is not a version of a manifest even where it is among the supported ones: everything else about this draft
is as it should be. -/
theorem parse_blankVersion_supported :
    Manifest.Draft.ofString? blankVersionText = some blankVersion ∧
      blankVersion.unknown = [] ∧ blankVersion.configuration.unknown = [] ∧
      blankVersion.configuration.configuration.postCloneCommands = [] ∧ blankVersion.declarations = [] ∧
      blankVersion.name? = some "a" ∧
      blankVersion.templateVersion = .text "1.0.0" ∧ Version.isValid "1.0.0" = true ∧
      (∃ version ∈ [" "], blankVersion.manifestVersion = .text version) ∧
      Manifest.parse blankVersionText [" "] = .error (.violations [.missingRootField "manifest_version"]) := by
  have hviolations : blankVersion.violations [" "] = [.missingRootField "manifest_version"] := by decide
  refine ⟨ofString?_blankVersionText, rfl, rfl, rfl, rfl, rfl, rfl, by decide, ⟨" ", by decide, rfl⟩, ?_⟩
  rw [Manifest.parse, ofString?_blankVersionText]
  dsimp only
  rw [Draft.check, hviolations]
  rfl

end Manifest

end Stencil
