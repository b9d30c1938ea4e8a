import Mathlib
import Stencil.Proofs.Sorting
import Stencil.Shape

/-!
# Fitting and shapes say the same

Two values can be held against each other in two ways. `Value.fits` goes through both at once, and compares maps
by their sizes and by looking up the keys of one of them. `Shape.of?` makes a description of each value for
itself, and gives up on a map with an entry that has no type. When one description accepts another
(`Shape.Accepts`) is a matter of the descriptions alone.

Where nothing in what is expected is untyped (`Shape.Known`) both ways agree (`Value.fits_iff_accepts`). The proof
goes along the expected value. In a map the two counts of keys settle what the lookups leave open: there is no
further key in the value, so no untyped one either.
-/

namespace Stencil

open Entries (get?)

namespace Shape

/-- Whether nothing in a shape, at any depth, is unknown. -/
inductive Known : Shape → Prop
  | text : Known .text
  | integer : Known .integer
  | decimal : Known .decimal
  | boolean : Known .boolean
  | bare : Known (.list none)
  | list {element : Shape} (h : Known element) : Known (.list (some element))
  | map {entries : List (String × Shape)} (h : ∀ entry ∈ entries, Known entry.2) : Known (.map entries)

/-- Whether what has the second shape will do where the first one is expected: the same, with an integer in the
place of any decimal. -/
inductive Accepts : Shape → Shape → Prop
  | text : Accepts .text .text
  | integer : Accepts .integer .integer
  | decimal : Accepts .decimal .decimal
  | whole : Accepts .decimal .integer
  | boolean : Accepts .boolean .boolean
  | bare : Accepts (.list none) (.list none)
  | list {expected element : Shape} (h : Accepts expected element) :
    Accepts (.list (some expected)) (.list (some element))
  | map {expected entries : List (String × Shape)}
    (hkeys : ∀ key, key ∈ Entries.names expected ↔ key ∈ Entries.names entries)
    (h : ∀ key shape other, get? key expected = some shape → get? key entries = some other → Accepts shape other) :
    Accepts (.map expected) (.map entries)

/-- A known shape accepts itself. -/
theorem Known.accepts_self {shape : Shape} (h : shape.Known) : shape.Accepts shape := by
  induction h with
  | text => exact .text
  | integer => exact .integer
  | decimal => exact .decimal
  | boolean => exact .boolean
  | bare => exact .bare
  | list _ ih => exact .list ih
  | map _ ih =>
      refine .map (fun _ => Iff.rfl) fun key shape other hshape hother => ?_
      obtain rfl : shape = other := Option.some.inj (hshape.symm.trans hother)
      exact ih _ (Entries.mem_of_get? hshape)

/-- What is accepted is not unknown. -/
theorem Accepts.isUnknown {shape other : Shape} (h : shape.Accepts other) : other.isUnknown = false := by
  cases h <;> rfl

/-- The shapes of entries have their keys. -/
theorem names_entriesOf? {entries : List (String × Value)} {shapes : List (String × Shape)}
    (h : entriesOf? entries = some shapes) : Entries.names shapes = Entries.names entries := by
  induction entries generalizing shapes with
  | nil =>
      cases h
      rfl
  | cons entry rest ih =>
      obtain ⟨key, value⟩ := entry
      rw [entriesOf?] at h
      split at h
      · cases h
      · obtain ⟨more, hmore, rfl⟩ := Option.map_eq_some_iff.mp h
        exact congrArg (key :: ·) (ih hmore)

/-- Looking a key up among the shapes gives the shape of what stands there. -/
theorem get?_entriesOf? {entries : List (String × Value)} {shapes : List (String × Shape)}
    (h : entriesOf? entries = some shapes) (key : String) : get? key shapes = (get? key entries).bind of? := by
  induction entries generalizing shapes with
  | nil =>
      cases h
      rfl
  | cons entry rest ih =>
      obtain ⟨first, value⟩ := entry
      rw [entriesOf?] at h
      split at h
      · cases h
      rename_i hknown
      obtain ⟨more, hmore, rfl⟩ := Option.map_eq_some_iff.mp h
      unfold get?
      by_cases hkey : first = key
      · rw [if_pos hkey, if_pos hkey]
        cases hshape : of? value with
        | none =>
            rw [hshape] at hknown
            exact absurd rfl hknown
        | some shape => exact hshape.symm
      · rw [if_neg hkey, if_neg hkey]
        exact ih hmore

/-- Entries have shapes unless one of them is untyped. -/
theorem exists_entriesOf? {entries : List (String × Value)}
    (h : ∀ entry ∈ entries, ∃ shape, of? entry.2 = some shape ∧ shape.isUnknown = false) :
    ∃ shapes, entriesOf? entries = some shapes := by
  induction entries with
  | nil => exact ⟨[], rfl⟩
  | cons entry rest ih =>
      obtain ⟨key, value⟩ := entry
      obtain ⟨⟨shape, hshape, hknown⟩, hrest⟩ := List.forall_mem_cons.mp h
      obtain ⟨shapes, hshapes⟩ := ih hrest
      refine ⟨(key, shape) :: shapes, ?_⟩
      rw [entriesOf?, hshapes, hshape]
      simp [hknown]

/-- How a value comes by its shape. -/
inductive Describes : Shape → Value → Prop
  | text (s : String) : Describes .text (.text s)
  | integer (n : Int) : Describes .integer (.integer n)
  | decimal (x : Float) : Describes .decimal (.decimal x)
  | boolean (b : Bool) : Describes .boolean (.bool b)
  | bare : Describes (.list none) (.list [])
  | list {first : Value} {rest : List Value} {shape : Shape} (h : of? first = some shape) :
    Describes (.list (some shape)) (.list (first :: rest))
  | untypedList {first : Value} {rest : List Value} (h : of? first = none) :
    Describes (.list (some .unknown)) (.list (first :: rest))
  | map {entries : List (String × Value)} {shapes : List (String × Shape)} (h : entriesOf? entries = some shapes) :
    Describes (.map shapes) (.map entries)
  | untypedMap {entries : List (String × Value)} (h : entriesOf? entries = none) : Describes .unknown (.map entries)

theorem of?_eq_some_iff {value : Value} {shape : Shape} : of? value = some shape ↔ shape.Describes value := by
  constructor
  · intro h
    cases value with
    | null => cases h
    | bool b => cases h; exact .boolean b
    | integer n => cases h; exact .integer n
    | decimal x => cases h; exact .decimal x
    | text s => cases h; exact .text s
    | list items =>
        cases items with
        | nil => cases h; exact .bare
        | cons first rest =>
            rw [of?, Option.some.injEq] at h
            cases hfirst : of? first with
            | none =>
                rw [hfirst] at h
                exact h ▸ .untypedList hfirst
            | some shape =>
                rw [hfirst] at h
                exact h ▸ .list hfirst
    | map entries =>
        rw [of?] at h
        cases hentries : entriesOf? entries with
        | none =>
            rw [hentries] at h
            cases h
            exact .untypedMap hentries
        | some shapes =>
            rw [hentries] at h
            cases h
            exact .map hentries
  · intro h
    cases h with
    | text | integer | decimal | boolean | bare => rfl
    | list h | untypedList h =>
        rw [of?, h]
        rfl
    | map h | untypedMap h => rw [of?, h]

end Shape

namespace Value

open Shape (Known Accepts)

/-- Entries fit if every expected key is there, with a value that fits. -/
theorem entriesFit_iff {expected entries : List (String × Value)} :
    entriesFit expected entries = true ↔
      ∀ entry ∈ expected, ∃ value, get? entry.1 entries = some value ∧ entry.2.fits value = true := by
  induction expected with
  | nil => simp [entriesFit]
  | cons first rest ih =>
      obtain ⟨key, expected⟩ := first
      rw [entriesFit, Bool.and_eq_true, ih, List.forall_mem_cons]
      refine and_congr_left fun _ => ?_
      cases get? key entries <;> simp

/-- The keys that are expected are all the keys, if there are as many of either. -/
theorem mem_names_iff {expected entries : List (String × Value)} (hexpected : (Entries.names expected).Nodup)
    (hlength : expected.length = entries.length)
    (h : ∀ entry ∈ expected, ∃ value, get? entry.1 entries = some value) (key : String) :
    key ∈ Entries.names expected ↔ key ∈ Entries.names entries := by
  have hsubset : Entries.names expected ⊆ Entries.names entries := by
    intro key hkey
    obtain ⟨entry, hentry, rfl⟩ := List.mem_map.mp hkey
    obtain ⟨value, hvalue⟩ := h entry hentry
    exact List.mem_map.mpr ⟨_, Entries.mem_of_get? hvalue, rfl⟩
  have hperm := (List.subperm_of_subset hexpected hsubset).perm_of_length_le
    (by simp [Entries.names, hlength])
  exact hperm.mem_iff

/-- What it takes to show of the values of a map, so that it holds of the map. -/
theorem map_fits_iff {expected : List (String × Value)} {shapes : List (String × Shape)} {value : Value}
    (hexpected : (Value.map expected).Sorted) (hvalue : value.Sorted)
    (hshapes : Shape.entriesOf? expected = some shapes) (hknown : ∀ entry ∈ shapes, entry.2.Known)
    (hvalues : ∀ entry ∈ expected, ∀ {value : Value} {shape : Shape}, value.Sorted → shape.Describes entry.2 →
      shape.Known → (entry.2.fits value = true ↔ ∃ other : Shape, other.Describes value ∧ shape.Accepts other)) :
    (Value.map expected).fits value = true ↔
      ∃ other : Shape, other.Describes value ∧ (Shape.map shapes).Accepts other := by
  have hdistinct := hexpected.names_nodup
  have hnames := Shape.names_entriesOf? hshapes
  -- What is expected under a key, in both of its forms.
  have hfound : ∀ {key : String} {shape : Shape}, get? key shapes = some shape →
      ∃ sample, get? key expected = some sample ∧ shape.Describes sample := by
    intro key shape hshape
    rw [Shape.get?_entriesOf? hshapes] at hshape
    obtain ⟨sample, hsample, hof⟩ := Option.bind_eq_some_iff.mp hshape
    exact ⟨sample, hsample, Shape.of?_eq_some_iff.mp hof⟩
  constructor
  · intro h
    cases value with
    | map entries =>
        obtain ⟨hlength, hfit⟩ : expected.length = entries.length ∧ ∀ entry ∈ expected, ∃ value,
            get? entry.1 entries = some value ∧ entry.2.fits value = true := by
          simpa [fits, entriesFit_iff] using h
        have hkeys := mem_names_iff hdistinct hlength fun entry hentry =>
          (hfit entry hentry).imp fun _ hvalue => hvalue.1
        have haccepts : ∀ {key : String} {shape : Shape}, get? key shapes = some shape →
            ∃ value other, get? key entries = some value ∧ Shape.of? value = some other ∧ shape.Accepts other := by
          intro key shape hshape
          obtain ⟨sample, hsample, hdescribes⟩ := hfound hshape
          obtain ⟨value, hget, hfits⟩ := hfit _ (Entries.mem_of_get? hsample)
          obtain ⟨other, hother, haccepts⟩ := (hvalues _ (Entries.mem_of_get? hsample)
            (hvalue.of_get? hget) hdescribes (hknown _ (Entries.mem_of_get? hshape))).mp hfits
          exact ⟨value, other, hget, Shape.of?_eq_some_iff.mpr hother, haccepts⟩
        -- There are no other keys, so nothing untyped stands in the map.
        have hevery : ∀ entry ∈ entries, ∃ shape, Shape.of? entry.2 = some shape ∧ shape.isUnknown = false := by
          intro entry hentry
          have hkey : entry.1 ∈ Entries.names shapes :=
            hnames ▸ (hkeys entry.1).mpr (List.mem_map_of_mem hentry)
          obtain ⟨shape, hshape⟩ := Entries.exists_get? hkey
          obtain ⟨value, other, hget, hother, hshapeAccepts⟩ := haccepts hshape
          have hself := (Entries.get?_eq_some_iff hvalue.names_nodup).mpr hentry
          rw [hget, Option.some.injEq] at hself
          exact ⟨other, hself ▸ hother, hshapeAccepts.isUnknown⟩
        obtain ⟨shapes', hshapes'⟩ := Shape.exists_entriesOf? hevery
        refine ⟨_, .map hshapes', .map (fun key => ?_) fun key shape other hshape hother => ?_⟩
        · rw [hnames, Shape.names_entriesOf? hshapes']
          exact hkeys key
        · obtain ⟨value, found, hget, hfound, hshapeAccepts⟩ := haccepts hshape
          rw [Shape.get?_entriesOf? hshapes', hget, Option.bind_some, hfound, Option.some.injEq] at hother
          exact hother ▸ hshapeAccepts
    | _ => cases h
  · rintro ⟨other, hother, haccepts⟩
    cases haccepts with
    | map hkeys haccepts =>
    cases hother with
    | @map entries shapes' hshapes' =>
    have hnames' := Shape.names_entriesOf? hshapes'
    have hlength : expected.length = entries.length := by
      have hperm := (List.perm_ext_iff_of_nodup hdistinct hvalue.names_nodup).mpr fun key => by
        rw [← hnames, ← hnames']
        exact hkeys key
      simpa [Entries.names] using hperm.length_eq
    have hfit : ∀ entry ∈ expected, ∃ value, get? entry.1 entries = some value ∧ entry.2.fits value = true := by
      intro entry hentry
      have hkey : entry.1 ∈ Entries.names shapes := hnames ▸ List.mem_map_of_mem hentry
      obtain ⟨shape, hshape⟩ := Entries.exists_get? hkey
      obtain ⟨other, hother⟩ := Entries.exists_get? ((hkeys entry.1).mp hkey)
      obtain ⟨sample, hsample, hdescribes⟩ := hfound hshape
      rw [(Entries.get?_eq_some_iff hdistinct).mpr hentry, Option.some.injEq] at hsample
      have hget := hother
      rw [Shape.get?_entriesOf? hshapes'] at hget
      obtain ⟨value, hget, hof⟩ := Option.bind_eq_some_iff.mp hget
      refine ⟨value, hget, (hvalues entry hentry (hvalue.of_get? hget) (hsample ▸ hdescribes)
        (hknown _ (Entries.mem_of_get? hshape))).mpr ⟨other, Shape.of?_eq_some_iff.mp hof, ?_⟩⟩
      exact haccepts entry.1 shape other hshape hother
    simpa [fits, entriesFit_iff, hlength] using hfit

/-- Along the expected value: what is in it fits exactly what its shape accepts. -/
theorem fits_iff_describes {expected value : Value} {shape : Shape} (hexpected : expected.Sorted)
    (hvalue : value.Sorted) (hshape : shape.Describes expected) (hknown : shape.Known) :
    expected.fits value = true ↔ ∃ other : Shape, other.Describes value ∧ shape.Accepts other := by
  induction hexpected generalizing value shape with
  | null => cases hshape
  | bool b =>
      cases hshape
      constructor
      · intro h
        cases value with
        | bool b' => exact ⟨_, .boolean b', .boolean⟩
        | _ => cases h
      · rintro ⟨other, hother, haccepts⟩
        cases haccepts
        cases hother
        rfl
  | integer n =>
      cases hshape
      constructor
      · intro h
        cases value with
        | integer n' => exact ⟨_, .integer n', .integer⟩
        | _ => cases h
      · rintro ⟨other, hother, haccepts⟩
        cases haccepts
        cases hother
        rfl
  | decimal x =>
      cases hshape
      constructor
      · intro h
        cases value with
        | decimal x' => exact ⟨_, .decimal x', .decimal⟩
        | integer n => exact ⟨_, .integer n, .whole⟩
        | _ => cases h
      · rintro ⟨other, hother, haccepts⟩
        cases haccepts with
        | decimal | whole =>
            cases hother
            rfl
  | text s =>
      cases hshape
      constructor
      · intro h
        cases value with
        | text s' => exact ⟨_, .text s', .text⟩
        | _ => cases h
      · rintro ⟨other, hother, haccepts⟩
        cases haccepts
        cases hother
        rfl
  | @list items hitems ih =>
      cases hshape with
      | bare =>
          constructor
          · intro h
            cases value with
            | list others =>
                cases others with
                | nil => exact ⟨_, .bare, .bare⟩
                | cons => cases h
            | _ => cases h
          · rintro ⟨other, hother, haccepts⟩
            cases haccepts
            cases hother
            rfl
      | untypedList =>
          cases hknown with
          | list hnone => cases hnone
      | @list first rest shape hfirst =>
          cases hknown with
          | list hknown =>
          have hstep {value : Value} (hvalue : value.Sorted) := ih first List.mem_cons_self hvalue
            (Shape.of?_eq_some_iff.mp hfirst) hknown
          constructor
          · intro h
            cases value with
            | list others =>
                cases others with
                | nil => cases h
                | cons other more =>
                    cases hvalue with
                    | list hothers =>
                    obtain ⟨shape', hshape', haccepts⟩ := (hstep (hothers other List.mem_cons_self)).mp h
                    exact ⟨_, .list (Shape.of?_eq_some_iff.mpr hshape'), .list haccepts⟩
            | _ => cases h
          · rintro ⟨other, hother, haccepts⟩
            cases haccepts with
            | list haccepts =>
            cases hother with
            | untypedList => cases haccepts
            | list hshape' =>
            cases hvalue with
            | list hothers =>
            exact (hstep (hothers _ List.mem_cons_self)).mpr ⟨_, Shape.of?_eq_some_iff.mp hshape', haccepts⟩
  | @map entries hkeys hvalues ih =>
      cases hshape with
      | untypedMap => cases hknown
      | map hshapes =>
          cases hknown with
          | map hknown => exact map_fits_iff (.map hkeys hvalues) hvalue hshapes hknown ih

/-- **Where what is expected has no untyped part, a value fits if and only if its shape is accepted**; and of two
values with the same such shape each fits the other. -/
theorem fits_iff_accepts {expected value : Value} {shape : Shape} (hexpected : expected.Sorted)
    (hvalue : value.Sorted) (hshape : Shape.of? expected = some shape) (hknown : shape.Known) :
    (expected.fits value = true ↔ ∃ other, Shape.of? value = some other ∧ shape.Accepts other) ∧
    (Shape.of? value = some shape → expected.fits value = true ∧ value.fits expected = true) := by
  simp only [Shape.of?_eq_some_iff] at hshape ⊢
  refine ⟨fits_iff_describes hexpected hvalue hshape hknown, fun hsame => ⟨?_, ?_⟩⟩
  · exact (fits_iff_describes hexpected hvalue hshape hknown).mpr ⟨shape, hsame, hknown.accepts_self⟩
  · exact (fits_iff_describes hvalue hexpected hsame hknown).mpr ⟨shape, hshape, hknown.accepts_self⟩

/-- An example: a list of decimals, and a map in the map. -/
def weights : Value := .map [("names", .map [("first", .text "a")]), ("parts", .list [.decimal 1.5])]

/-- What may be given for it: whole numbers, and anything behind the first of them. -/
def wholeWeights : Value :=
  .map [("names", .map [("first", .text "b")]), ("parts", .list [.integer 2, .null])]

/-- The shape of `weights`. -/
def weightsShape : Shape := .map [("names", .map [("first", .text)]), ("parts", .list (some .decimal))]

theorem fits_iff_accepts_weights :
    weights.Sorted ∧ wholeWeights.Sorted ∧ Shape.of? weights = some weightsShape ∧ weightsShape.Known ∧
      weights.fits wholeWeights = true ∧ wholeWeights.fits weights = false ∧
      ∃ other, Shape.of? wholeWeights = some other ∧ weightsShape.Accepts other := by
  have hnames : "names" < "parts" := by decide +kernel
  have hmap {name : String} {inner : Value} {items : List Value} (hinner : inner.Sorted)
      (hitems : ∀ item ∈ items, item.Sorted) :
      (Value.map [("names", .map [(name, inner)]), ("parts", .list items)]).Sorted :=
    .map (List.pairwise_pair.mpr hnames)
      (by simpa using ⟨.map (List.pairwise_singleton _ _) (by simpa using hinner), .list hitems⟩)
  have hweights : weights.Sorted := hmap (.text "a") (by simpa using .decimal 1.5)
  have hwhole : wholeWeights.Sorted := hmap (.text "b") (by simpa using ⟨.integer 2, .null⟩)
  have hknown : weightsShape.Known :=
    .map (by simpa using ⟨.map (by simpa using .text), .list .decimal⟩)
  have hfits : weights.fits wholeWeights = true := by rfl
  exact ⟨hweights, hwhole, rfl, hknown, hfits, rfl, (fits_iff_accepts hweights hwhole rfl hknown).1.mp hfits⟩

end Value

end Stencil
