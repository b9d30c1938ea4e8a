import Stencil.Proofs.Fitting

/-!
# Fitting is an order

Holding values against each other orders them: every value fits itself, what fits something that fits will do as
well, and where each of two values fits the other they have one shape, or neither has any (`Value.fits_preorder`).

The check of a map compares sizes and looks up the keys of one side only. For sorted maps that is the same as going
through both lists of entries side by side (`Value.map_fits_map_iff`). The rest is by induction on the value that is
expected, and in a map by induction on the two lists.
-/

namespace Stencil

open Entries (get?)

/-- Entries that are sorted by key come in one order. -/
theorem Entries.names_eq_of_mem_iff {α β : Type} {first : Entries α} {second : Entries β}
    (hfirst : first.Pairwise (·.1 < ·.1)) (hsecond : second.Pairwise (·.1 < ·.1))
    (h : ∀ key, key ∈ names first ↔ key ∈ names second) : names first = names second := by
  have hfirst' : (names first).Pairwise (· < ·) := List.pairwise_map.mpr hfirst
  have hsecond' : (names second).Pairwise (· < ·) := List.pairwise_map.mpr hsecond
  have hperm : (names first).Perm (names second) :=
    (List.perm_ext_iff_of_nodup (hfirst'.imp ne_of_lt) (hsecond'.imp ne_of_lt)).mpr h
  exact hperm.eq_of_pairwise (fun a b _ _ hab hba => absurd hab (lt_asymm hba)) hfirst' hsecond'

namespace Value

/-- Whether an entry stands under the key that is expected and its value fits. -/
def EntryFits (sample entry : String × Value) : Prop := sample.1 = entry.1 ∧ sample.2.fits entry.2 = true

/-! ## Maps side by side -/

/-- **A sorted map fits another one entry by entry.** -/
theorem map_fits_map_iff {expected entries : List (String × Value)} (hexpected : (Value.map expected).Sorted)
    (hentries : (Value.map entries).Sorted) :
    (Value.map expected).fits (.map entries) = true ↔ List.Forall₂ EntryFits expected entries := by
  have hdistinct := hentries.names_nodup
  rw [fits, Bool.and_eq_true, beq_iff_eq, entriesFit_iff]
  constructor
  · rintro ⟨hlength, hfit⟩
    have hmem := mem_names_iff hexpected.names_nodup hlength fun sample hsample =>
      (hfit sample hsample).imp fun _ hvalue => hvalue.1
    cases hexpected with
    | map hexpectedKeys _ =>
    cases hentries with
    | map hentriesKeys _ =>
    have hnames := Entries.names_eq_of_mem_iff hexpectedKeys hentriesKeys hmem
    refine List.forall₂_iff_get.mpr ⟨hlength, fun i hi hi' => ?_⟩
    have hkey : (expected.get ⟨i, hi⟩).1 = (entries.get ⟨i, hi'⟩).1 := by
      have hat := congrArg (·[i]?) hnames
      simpa [Entries.names, hi, hi'] using hat
    -- The one entry under that key is the one that looking it up found.
    obtain ⟨value, hget, hvalue⟩ := hfit _ (List.get_mem expected ⟨i, hi⟩)
    have hhere : get? (entries.get ⟨i, hi'⟩).1 entries = some (entries.get ⟨i, hi'⟩).2 :=
      (Entries.get?_eq_some_iff hdistinct).mpr (List.get_mem entries ⟨i, hi'⟩)
    rw [hkey, hhere, Option.some.injEq] at hget
    exact ⟨hkey, hget ▸ hvalue⟩
  · intro h
    refine ⟨h.length_eq, fun sample hsample => ?_⟩
    obtain ⟨i, hi, rfl⟩ := List.getElem_of_mem hsample
    have hi' : i < entries.length := h.length_eq ▸ hi
    obtain ⟨hkey, hvalue⟩ := (List.forall₂_iff_get.mp h).2 i hi hi'
    refine ⟨entries[i].2, ?_, hvalue⟩
    have hhere : get? entries[i].1 entries = some entries[i].2 :=
      (Entries.get?_eq_some_iff hdistinct).mpr (List.getElem_mem hi')
    exact hkey ▸ hhere

/-- What fits a list is a list, with a first element that fits if one is expected. -/
theorem exists_of_list_fits {expected : List Value} {value : Value} (h : (Value.list expected).fits value = true) :
    (expected = [] ∧ value = .list []) ∨ ∃ sample samples first rest, expected = sample :: samples ∧
      value = .list (first :: rest) ∧ sample.fits first = true := by
  cases value with
  | list items =>
      cases expected with
      | nil =>
          cases items with
          | nil => exact Or.inl ⟨rfl, rfl⟩
          | cons first rest => cases h
      | cons sample samples =>
          cases items with
          | nil => cases h
          | cons first rest => exact Or.inr ⟨sample, samples, first, rest, rfl, rfl, h⟩
  | _ => cases expected <;> cases h

/-- What fits a map is a map, entry by entry. -/
theorem exists_of_map_fits {expected : List (String × Value)} {value : Value} (hexpected : (Value.map expected).Sorted)
    (hvalue : value.Sorted) (h : (Value.map expected).fits value = true) :
    ∃ entries, value = .map entries ∧ (∀ entry ∈ entries, entry.2.Sorted) ∧
      List.Forall₂ EntryFits expected entries := by
  cases hvalue with
  | map hkeys hvalues => exact ⟨_, rfl, hvalues, (map_fits_map_iff hexpected (.map hkeys hvalues)).mp h⟩
  | _ => cases h

/-! ## The order -/

/-- A value fits itself. -/
theorem fits_self {a : Value} (ha : a.Sorted) : a.fits a = true := by
  induction ha with
  | null | bool | integer | decimal | text => rfl
  | @list items _ ih =>
      cases items with
      | nil => rfl
      | cons first rest => exact ih first List.mem_cons_self
  | map hkeys hvalues ih =>
      have hmap := Sorted.map hkeys hvalues
      exact (map_fits_map_iff hmap hmap).mpr (List.forall₂_same.mpr fun entry hentry => ⟨rfl, ih entry hentry⟩)

/-- Entries that fit entries that fit, fit. -/
theorem forall₂_entryFits_trans {first second third : List (String × Value)}
    (htrans : ∀ entry ∈ first, ∀ {b c : Value}, b.Sorted → c.Sorted → entry.2.fits b = true → b.fits c = true →
      entry.2.fits c = true)
    (hsecond : ∀ entry ∈ second, entry.2.Sorted) (hthird : ∀ entry ∈ third, entry.2.Sorted)
    (hab : List.Forall₂ EntryFits first second) (hbc : List.Forall₂ EntryFits second third) :
    List.Forall₂ EntryFits first third := by
  induction hab generalizing third with
  | nil =>
      cases hbc
      exact .nil
  | cons hhead _ ih =>
      cases hbc with
      | cons hhead' htail' =>
          obtain ⟨hb, hsecond⟩ := List.forall_mem_cons.mp hsecond
          obtain ⟨hc, hthird⟩ := List.forall_mem_cons.mp hthird
          obtain ⟨hstep, hsteps⟩ := List.forall_mem_cons.mp htrans
          exact .cons ⟨hhead.1.trans hhead'.1, hstep hb hc hhead.2 hhead'.2⟩ (ih hsteps hsecond hthird htail')

/-- What fits something that fits, fits. -/
theorem fits_trans {a b c : Value} (ha : a.Sorted) (hb : b.Sorted) (hc : c.Sorted) (hab : a.fits b = true)
    (hbc : b.fits c = true) : a.fits c = true := by
  induction ha generalizing b c with
  | null =>
      cases b with
      | null => exact hbc
      | _ => cases hab
  | bool x =>
      cases b with
      | bool y => cases c <;> exact hbc
      | _ => cases hab
  | integer n =>
      cases b with
      | integer m => cases c <;> exact hbc
      | _ => cases hab
  | decimal x =>
      cases b with
      | decimal y => cases c <;> exact hbc
      | integer n =>
          -- After a step from decimals to integers only integers follow.
          cases c with
          | integer m => rfl
          | _ => cases hbc
      | _ => cases hab
  | text s =>
      cases b with
      | text s' => cases c <;> exact hbc
      | _ => cases hab
  | list _ ih =>
      rcases exists_of_list_fits hab with ⟨rfl, rfl⟩ | ⟨x, xs, y, ys, rfl, rfl, hxy⟩
      · exact hbc
      · rcases exists_of_list_fits hbc with ⟨hnil, -⟩ | ⟨y', ys', z, zs, heq, rfl, hyz⟩
        · cases hnil
        · obtain ⟨rfl, -⟩ := List.cons.inj heq
          cases hb with
          | list hsecond =>
          cases hc with
          | list hthird =>
          exact ih x List.mem_cons_self (hsecond y List.mem_cons_self) (hthird z List.mem_cons_self) hxy hyz
  | map hkeys hvalues ih =>
      have hmap := Sorted.map hkeys hvalues
      obtain ⟨second, rfl, hsecond, hab'⟩ := exists_of_map_fits hmap hb hab
      obtain ⟨third, rfl, hthird, hbc'⟩ := exists_of_map_fits hb hc hbc
      have hac := forall₂_entryFits_trans (fun entry hentry => ih entry hentry) hsecond hthird hab' hbc'
      exact (map_fits_map_iff hmap hc).mpr hac

/-- Entries that fit each other have the same shapes. -/
theorem entriesOf?_eq_of_fits {expected entries : List (String × Value)}
    (hsame : ∀ sample ∈ expected, ∀ {value : Value}, value.Sorted → sample.2.fits value = true →
      value.fits sample.2 = true → Shape.of? sample.2 = Shape.of? value)
    (hentries : ∀ entry ∈ entries, entry.2.Sorted) (hto : List.Forall₂ EntryFits expected entries)
    (hback : List.Forall₂ EntryFits entries expected) : Shape.entriesOf? expected = Shape.entriesOf? entries := by
  induction hto with
  | nil => rfl
  | @cons sample entry _ _ hhead _ ih =>
      cases hback with
      | cons hhead' htail' =>
          obtain ⟨hentry, hrest⟩ := List.forall_mem_cons.mp hentries
          obtain ⟨hsample, hsamples⟩ := List.forall_mem_cons.mp hsame
          obtain ⟨key, value⟩ := sample
          obtain ⟨key', value'⟩ := entry
          obtain ⟨rfl, hfits⟩ := hhead
          rw [Shape.entriesOf?, Shape.entriesOf?, hsample hentry hfits hhead'.2, ih hsamples hrest htail']

/-- Values that fit each other have one shape, or neither has any. -/
theorem of?_eq_of_fits {a b : Value} (ha : a.Sorted) (hb : b.Sorted) (hab : a.fits b = true)
    (hba : b.fits a = true) : Shape.of? a = Shape.of? b := by
  induction ha generalizing b with
  | null =>
      cases b with
      | null => rfl
      | _ => cases hab
  | bool x =>
      cases b with
      | bool y => rfl
      | _ => cases hab
  | integer n =>
      cases b with
      | integer m => rfl
      | _ => cases hab
  | text s =>
      cases b with
      | text s' => rfl
      | _ => cases hab
  | decimal x =>
      cases b with
      | decimal y => rfl
      | integer n => cases hba
      | _ => cases hab
  | list _ ih =>
      rcases exists_of_list_fits hab with ⟨rfl, rfl⟩ | ⟨x, xs, y, ys, rfl, rfl, hxy⟩
      · rfl
      · cases hb with
        | list hsecond =>
        -- The shape of a list is known from its first element, and only that was held against the other.
        rw [Shape.of?, Shape.of?, ih x List.mem_cons_self (hsecond y List.mem_cons_self) hxy hba]
  | map hkeys hvalues ih =>
      have hmap := Sorted.map hkeys hvalues
      obtain ⟨entries, rfl, hentries, hto⟩ := exists_of_map_fits hmap hb hab
      have hback := (map_fits_map_iff hb hmap).mp hba
      rw [Shape.of?, Shape.of?, entriesOf?_eq_of_fits (fun entry hentry => ih entry hentry) hentries hto hback]

/-- **Fitting is reflexive and transitive, and values that fit each other have one shape**, or neither has any. -/
theorem fits_preorder {a b c : Value} (ha : a.Sorted) (hb : b.Sorted) (hc : c.Sorted) :
    a.fits a = true ∧ (a.fits b = true → b.fits c = true → a.fits c = true) ∧
      (a.fits b = true → b.fits a = true → Shape.of? a = Shape.of? b) :=
  ⟨fits_self ha, fits_trans ha hb hc, of?_eq_of_fits ha hb⟩

/-- A map with a list and something that is not filled in yet. -/
def counted (count : Value) : Value := .map [("counts", .list [count]), ("owner", .null), ("tags", .list [])]

theorem counted_sorted {count : Value} (h : count.Sorted) : (counted count).Sorted := by
  have hkeys : ["counts", "owner", "tags"].Pairwise (· < ·) := by decide +kernel
  refine .map (List.pairwise_map.mp hkeys) ?_
  simpa using ⟨.list (by simpa using h), .null, .list (by simp)⟩

theorem fits_preorder_counted :
    (counted (.decimal 1.5)).Sorted ∧ (counted (.integer 2)).Sorted ∧ (counted (.integer maxInteger)).Sorted ∧
      (counted (.decimal 1.5)).fits (counted (.integer 2)) = true ∧
      (counted (.integer 2)).fits (counted (.integer maxInteger)) = true ∧
      (counted (.integer maxInteger)).fits (counted (.integer 2)) = true ∧
      (counted (.decimal 1.5)).fits (counted (.decimal 1.5)) = true ∧
      (counted (.decimal 1.5)).fits (counted (.integer maxInteger)) = true ∧
      Shape.of? (counted (.integer 2)) = Shape.of? (counted (.integer maxInteger)) := by
  have hdecimal := counted_sorted (.decimal 1.5)
  have hsmall := counted_sorted (.integer 2)
  have hlarge := counted_sorted (.integer maxInteger)
  have hfits : (counted (.decimal 1.5)).fits (counted (.integer 2)) = true := by rfl
  have hto : (counted (.integer 2)).fits (counted (.integer maxInteger)) = true := by rfl
  have hback : (counted (.integer maxInteger)).fits (counted (.integer 2)) = true := by rfl
  obtain ⟨hself, hchain, -⟩ := fits_preorder hdecimal hsmall hlarge
  obtain ⟨-, -, hsame⟩ := fits_preorder hsmall hlarge hdecimal
  exact ⟨hdecimal, hsmall, hlarge, hfits, hto, hback, hself, hchain hfits hto, hsame hto hback⟩

end Value

end Stencil
