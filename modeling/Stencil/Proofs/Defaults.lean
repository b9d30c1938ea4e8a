import Stencil.Proofs.Binding
import Stencil.Proofs.Checking

/-!
# Checked defaults

A manifest is checked before variables are bound to it, and binding does not look at what was checked. What it relies
on is little (`Manifest.Checked`): no name is declared twice, and a default has the type of its example. By the first
the default of a name is that of its only declaration, and by the second no default is refused, whether or not values
are held against the example.

So a manifest never fails on its own account. A value of the wrong type is one that was given, and what is missing is
not given and has no default. If nothing is given every variable takes its default (`Manifest.bind_of_parse`).
-/

namespace Stencil

open Entries (get?)
open Variables (valueOf? defaultOf? defaults Unbroken)

/-- What binding relies on: no name is declared twice, and a default has the type of its example. -/
structure Manifest.Checked (manifest : Manifest) : Prop where
  distinct : (manifest.declarations.map Declaration.name).Nodup
  fits : ∀ d ∈ manifest.declarations, ∀ value, d.default? = some value → d.sample.fits value = true

/-! ## What is checked -/

/-- Drafts have the names of the declarations that they stand for. -/
theorem Declaration.Decodes.map_name {drafts : List Declaration.Draft} {ds : List Declaration}
    (h : List.Forall₂ Declaration.Decodes drafts ds) : drafts.map Declaration.Draft.name = ds.map Declaration.name := by
  induction h with
  | nil => rfl
  | cons hd _ ih => rw [List.map_cons, List.map_cons, ih, Declaration.Draft.name, hd.name, Option.getD_some]

theorem Manifest.Draft.Valid.checked {supported : List String} {draft : Manifest.Draft} {manifest : Manifest}
    (h : draft.Valid supported) (hdecodes : manifest.Decodes draft) : manifest.Checked := by
  refine ⟨?_, fun d hd value hvalue => ?_⟩
  · rw [← Declaration.Decodes.map_name hdecodes.declarations]
    exact List.pairwise_map.mpr h.distinct
  · obtain ⟨i, hi, rfl⟩ := List.getElem_of_mem hd
    have hi' : i < draft.declarations.length := hdecodes.declarations.length_eq ▸ hi
    have hone := hdecodes.declarations.get hi' hi
    exact h.defaults _ (List.getElem_mem hi') _ value hone.sample (hone.default ▸ hvalue)

/-- **A manifest that was read is checked.** -/
theorem Manifest.checked_of_parse {text : String} {supported : List String} {manifest : Manifest}
    (h : Manifest.parse text supported = .ok manifest) : manifest.Checked := by
  obtain ⟨draft, -, hvalid, hdecodes⟩ := valid_of_parse h
  exact hvalid.checked hdecodes

/-! ## What is bound -/

namespace Variables

variable {ds : List Declaration} {d : Declaration}

/-- A name that is declared once has the default of its declaration. -/
theorem defaultOf?_of_mem (hdistinct : (ds.map Declaration.name).Nodup) (hd : d ∈ ds) :
    defaultOf? ds d.name = d.default? := by
  obtain ⟨front, rest, rfl⟩ := List.append_of_mem hd
  rw [List.map_append, List.map_cons, List.nodup_append] at hdistinct
  have hnew : d.name ∉ front.map Declaration.name := fun hmem =>
    hdistinct.2.2 _ hmem _ List.mem_cons_self rfl
  rw [defaultOf?_append, if_neg hnew]
  simp [defaultOf?]

/-- Where nothing is given and no name is declared twice, every declaration adds its default. -/
theorem defaults_nil (hdistinct : (ds.map Declaration.name).Nodup) :
    defaults [] ds = ds.filterMap fun d => d.default?.map (d.name, ·) := by
  -- Declaration by declaration: none of them comes behind one of the same name.
  induction ds using List.reverseRecOn with
  | nil => rfl
  | append_singleton ds d ih =>
      rw [List.map_append, List.nodup_append] at hdistinct
      have hnew : d.name ∉ ds.map Declaration.name := fun hmem =>
        hdistinct.2.2 _ hmem _ List.mem_cons_self rfl
      rw [defaults_concat, ih hdistinct.1, if_neg (by simpa using hnew), List.filterMap_append]
      congr 1

end Variables

/-- **What is missing is not given and has no default.** -/
theorem Declaration.Breaks.absent_of_missing {d : Declaration} {front : List Declaration} {vars : Variables}
    {name : String} (h : d.Breaks vars front (.missing name)) :
    get? name vars = none ∧ d.name = name ∧ d.default? = none := by
  cases h with
  | missing habsent hdefault =>
      rw [valueOf?, Option.or_eq_none_iff] at habsent
      exact ⟨habsent.1, rfl, hdefault⟩

namespace Manifest.Checked

variable {manifest : Manifest} {front rest : List Declaration} {d : Declaration} {vars bound : Variables}
  {name actual required : String}

theorem distinct_front (h : manifest.Checked) (hsplit : manifest.declarations = front ++ d :: rest) :
    ((front ++ [d]).map Declaration.name).Nodup := by
  have hdistinct := h.distinct
  rw [hsplit, show front ++ d :: rest = (front ++ [d]) ++ rest by simp, List.map_append] at hdistinct
  exact hdistinct.of_append_left

/-- **Only what is given can be of the wrong type.** -/
theorem given_of_wrongType (h : manifest.Checked) (hsplit : manifest.declarations = front ++ d :: rest)
    (hd : d.Breaks vars front (.wrongType name actual required)) : (get? name vars).isSome = true := by
  cases hd with
  | @wrongType value hvalidate hvalue hfits =>
      by_contra hgiven
      -- Otherwise the value is the default of the declaration, and that was held against the example.
      rw [valueOf?, Option.not_isSome_iff_eq_none.mp hgiven, Option.none_or,
        Variables.defaultOf?_of_mem (h.distinct_front hsplit) (by simp)] at hvalue
      rw [h.fits d (by simp [hsplit]) value hvalue] at hfits
      cases hfits

/-- A name is declared once. -/
theorem eq_of_name (h : manifest.Checked) {e : Declaration} (hd : d ∈ manifest.declarations)
    (he : e ∈ manifest.declarations) (hname : e.name = d.name) : e = d :=
  List.inj_on_of_nodup_map h.distinct he hd hname

/-- Without anything given a manifest can be bound if every declaration has a default. -/
theorem unbroken_nil_iff (h : manifest.Checked) :
    Unbroken [] manifest.declarations ↔ ∀ d ∈ manifest.declarations, d.default?.isSome = true := by
  constructor
  · intro hunbroken d hd
    have hvalue := hunbroken.settled d hd
    rwa [valueOf?, Entries.get?_nil, Option.none_or, Variables.defaultOf?_of_mem h.distinct hd] at hvalue
  · intro hall front d rest hsplit fault hbreaks
    cases fault with
    | missing name =>
        obtain ⟨-, -, hdefault⟩ := hbreaks.absent_of_missing
        have hsome := hall d (by simp [hsplit])
        rw [hdefault] at hsome
        cases hsome
    | wrongType name actual required =>
        have hgiven := h.given_of_wrongType hsplit hbreaks
        rw [Entries.get?_nil] at hgiven
        cases hgiven

end Manifest.Checked

namespace Manifest

/-- Declarations that all have defaults add one variable each. -/
theorem forall₂_defaults {ds : List Declaration} (h : ∀ d ∈ ds, d.default?.isSome = true) :
    List.Forall₂ (fun entry d => entry.1 = d.name ∧ d.default? = some entry.2)
      (ds.filterMap fun d => d.default?.map (d.name, ·)) ds := by
  induction ds with
  | nil => exact .nil
  | cons d rest ih =>
      obtain ⟨value, hvalue⟩ := Option.isSome_iff_exists.mp (h d List.mem_cons_self)
      rw [List.filterMap_cons, hvalue, Option.map_some]
      exact .cons ⟨rfl, hvalue⟩ (ih fun e he => h e (List.mem_cons_of_mem d he))

/-- **A manifest that was read never fails on its own defaults**: a variable of the wrong type is one that is given, and
a missing variable is one that is not given and has no default. So it can be bound to nothing if, and only if, every
variable has a default, and then every variable has its default. -/
theorem bind_of_parse {text : String} {supported : List String} {manifest : Manifest}
    (h : Manifest.parse text supported = .ok manifest) :
    (∀ vars name actual required, Variables.bind manifest vars = .error (.wrongType name actual required) →
      Entries.contains name vars = true) ∧
    (∀ vars name, Variables.bind manifest vars = .error (.missing name) → Entries.contains name vars = false ∧
      (∃ d ∈ manifest.declarations, d.name = name) ∧
      ∀ d ∈ manifest.declarations, d.name = name → d.default? = none) ∧
    ((∃ bound, Variables.bind manifest [] = .ok bound) ↔
      ∀ d ∈ manifest.declarations, d.default?.isSome = true) ∧
    ∀ bound, Variables.bind manifest [] = .ok bound →
      List.Forall₂ (fun entry d => entry.1 = d.name ∧ d.default? = some entry.2) bound manifest.declarations ∧
      ∀ d ∈ manifest.declarations, get? d.name bound = d.default? := by
  have hchecked := checked_of_parse h
  refine ⟨fun vars name actual required hfault => ?_, fun vars name hfault => ?_, ⟨?_, fun hall => ?_⟩,
    fun bound hbound => ?_⟩
  · obtain ⟨front, d, rest, hsplit, -, hbreaks⟩ := Variables.bind_eq_error_iff.mp hfault
    exact hchecked.given_of_wrongType hsplit hbreaks
  · obtain ⟨front, d, rest, hsplit, -, hbreaks⟩ := Variables.bind_eq_error_iff.mp hfault
    obtain ⟨hgiven, rfl, hdefault⟩ := hbreaks.absent_of_missing
    have hd : d ∈ manifest.declarations := by simp [hsplit]
    refine ⟨by simp [Entries.contains, hgiven], ⟨d, hd, rfl⟩, fun e he hname => ?_⟩
    rw [hchecked.eq_of_name hd he hname, hdefault]
  · rintro ⟨bound, hbound⟩
    exact hchecked.unbroken_nil_iff.mp (Variables.bind_eq_ok_iff.mp hbound).1
  · exact ⟨_, Variables.bindAll_unbroken (hchecked.unbroken_nil_iff.mpr hall)⟩
  · obtain ⟨hunbroken, hfilled⟩ := Variables.bind_eq_ok_iff.mp hbound
    have hall := hchecked.unbroken_nil_iff.mp hunbroken
    have hbound' : bound = manifest.declarations.filterMap fun d => d.default?.map (d.name, ·) := by
      rw [hfilled, Variables.filled, List.nil_append, Variables.defaults_nil hchecked.distinct]
    refine ⟨hbound' ▸ forall₂_defaults hall, fun d hd => ?_⟩
    have hvalue := Variables.get?_filled [] manifest.declarations d.name
    rw [valueOf?, Entries.get?_nil, Option.none_or, Variables.defaultOf?_of_mem hchecked.distinct hd] at hvalue
    rw [hfilled]
    exact hvalue

/-- A manifest with a number that has a default and a text that has none and may be anything. -/
def countedText : String :=
  "name: a\ntemplate_version: 1.0.0\nmanifest_version: v1\nvariables:\n- name: n\n  default: 1\n  example: 2\n" ++
    "- name: t\n  example: x\n  validate: false\n"

theorem bind_of_parse_counted :
    ∃ counted, Manifest.parse countedText ["v1", "v2"] = .ok counted ∧
      Variables.bind counted [("n", .bool true)] = .error (.wrongType "n" "boolean" "integer") ∧
      Entries.contains "n" [("n", Value.bool true)] = true ∧
      Variables.bind counted [] = .error (.missing "t") ∧
      ∃ d ∈ counted.declarations, d.name = "t" ∧ d.default? = none := by
  have hfaults : (Manifest.parse countedText ["v1", "v2"]).map (fun counted =>
      ((Variables.bind counted [("n", .bool true)]).map fun _ => (), (Variables.bind counted []).map fun _ => ())) =
      .ok (.error (.wrongType "n" "boolean" "integer"), .error (.missing "t")) := by decide +kernel
  have hfault : ∀ {bound : Except Binding.Fault Variables} {fault}, bound.map (fun _ => ()) = .error fault →
      bound = .error fault := by
    rintro (fault | bound) fault' h
    · exact congrArg _ (Except.error.inj h)
    · cases h
  cases hparse : Manifest.parse countedText ["v1", "v2"] with
  | error fault =>
      rw [hparse] at hfaults
      cases hfaults
  | ok counted =>
      rw [hparse] at hfaults
      obtain ⟨hwrong, hnone⟩ := Prod.mk.inj (Except.ok.inj hfaults)
      obtain ⟨hgiven, hmissing, -⟩ := bind_of_parse hparse
      obtain ⟨-, ⟨d, hd, hname⟩, hdefault⟩ := hmissing _ _ (hfault hnone)
      exact ⟨counted, rfl, hfault hwrong, hgiven _ _ _ _ (hfault hwrong), hfault hnone, d, hd, hname,
        hdefault d hd hname⟩

end Manifest

end Stencil
