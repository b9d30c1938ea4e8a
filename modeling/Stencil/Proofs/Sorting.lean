import Mathlib
import Stencil.Manifest.Draft

/-!
# Maps in order

A map inside a value is a list of entries, and what is said about it counts on their order: sorted by key, each
key once (`Value.Sorted`). Nothing in the type of values sees to that. Every map that is read is made by putting
its entries one by one where they belong, so every value that a document stands for is sorted
(`Yaml.Node.value?_sorted`), and so are the examples and defaults of a manifest (`Manifest.Draft.sorted_of_ofString?`).
-/

namespace Stencil

namespace Value

/-- Whether all maps in a value, at any depth, are kept sorted by key, each key once. -/
inductive Sorted : Value → Prop
  | null : Sorted .null
  | bool (b : Bool) : Sorted (.bool b)
  | integer (n : Int) : Sorted (.integer n)
  | decimal (x : Float) : Sorted (.decimal x)
  | text (s : String) : Sorted (.text s)
  | list {items : List Value} (hitems : ∀ item ∈ items, Sorted item) : Sorted (.list items)
  | map {entries : List (String × Value)} (hkeys : entries.Pairwise (·.1 < ·.1))
    (hvalues : ∀ entry ∈ entries, Sorted entry.2) : Sorted (.map entries)

theorem Sorted.ofFloat (x : Float) : (Value.ofFloat x).Sorted := by
  unfold Value.ofFloat
  split
  · exact .decimal x
  · exact .null

theorem Sorted.names_nodup {entries : List (String × Value)} (h : (Value.map entries).Sorted) :
    (Entries.names entries).Nodup := by
  cases h with
  | map hkeys _ => exact List.pairwise_map.mpr (hkeys.imp fun hlt => ne_of_lt hlt)

end Value

namespace Entries

variable {α : Type} {entries : Entries α} {name : String} {value : α}

/-- What is among the entries after one was put in is that one or was there before. -/
theorem mem_insert {entry : String × α} (h : entry ∈ insert name value entries) :
    entry = (name, value) ∨ entry ∈ entries := by
  induction entries with
  | nil => exact Or.inl (List.mem_singleton.mp h)
  | cons first rest ih =>
      obtain ⟨key, old⟩ := first
      unfold insert at h
      split at h
      · exact List.mem_cons.mp h
      split at h
      · rename_i hkey
        rw [hkey] at h
        exact (List.mem_cons.mp h).imp_right (List.mem_cons_of_mem _)
      · rcases List.mem_cons.mp h with h | h
        · exact Or.inr (h ▸ List.mem_cons_self)
        · exact (ih h).imp_right (List.mem_cons_of_mem _)

/-- Putting an entry in keeps the order. -/
theorem insert_sorted (h : entries.Pairwise (·.1 < ·.1)) (name : String) (value : α) :
    (insert name value entries).Pairwise (·.1 < ·.1) := by
  induction entries with
  | nil => exact List.pairwise_singleton _ _
  | cons first rest ih =>
      obtain ⟨key, old⟩ := first
      obtain ⟨hfirst, hrest⟩ := List.pairwise_cons.mp h
      unfold insert
      split
      · rename_i hlt
        refine List.pairwise_cons.mpr ⟨fun entry hentry => ?_, h⟩
        rcases List.mem_cons.mp hentry with rfl | hentry
        · exact hlt
        · exact lt_trans hlt (hfirst entry hentry)
      split
      · exact List.pairwise_cons.mpr ⟨hfirst, hrest⟩
      · rename_i hle hne
        refine List.pairwise_cons.mpr ⟨fun entry hentry => ?_, ih hrest⟩
        rcases mem_insert hentry with rfl | hentry
        · exact lt_of_le_of_ne (not_lt.mp hle) hne
        · exact hfirst entry hentry

theorem sorted_sorted (entries : Entries α) : (sorted entries).Pairwise (·.1 < ·.1) := by
  suffices h : ∀ acc : Entries α, acc.Pairwise (·.1 < ·.1) →
      (entries.foldl (fun acc entry => insert entry.1 entry.2 acc) acc).Pairwise (·.1 < ·.1) from
    h [] List.Pairwise.nil
  induction entries with
  | nil => exact fun acc hacc => hacc
  | cons entry rest ih => exact fun acc hacc => ih _ (insert_sorted hacc entry.1 entry.2)

theorem mem_sorted {entry : String × α} (h : entry ∈ sorted entries) : entry ∈ entries := by
  suffices hall : ∀ (rest acc : Entries α),
      entry ∈ rest.foldl (fun acc entry => insert entry.1 entry.2 acc) acc → entry ∈ acc ∨ entry ∈ rest from
    (hall entries [] h).resolve_left List.not_mem_nil
  intro rest
  induction rest with
  | nil => exact fun acc hacc => Or.inl hacc
  | cons next rest ih =>
      intro acc hacc
      rcases ih _ hacc with hmem | hmem
      · rcases mem_insert hmem with rfl | hmem
        · exact Or.inr List.mem_cons_self
        · exact Or.inl hmem
      · exact Or.inr (List.mem_cons_of_mem _ hmem)

end Entries

/-- A map that is made of entries is sorted. -/
theorem Value.Sorted.ofEntries {entries : Entries Value} (h : ∀ entry ∈ entries, entry.2.Sorted) :
    (Value.ofEntries entries).Sorted :=
  .map (Entries.sorted_sorted entries) fun entry hentry => h entry (Entries.mem_sorted hentry)

/-- A key that stands among the entries is found. -/
theorem Entries.exists_get? {α : Type} {entries : Entries α} {name : String} (h : name ∈ entries.names) :
    ∃ value, Entries.get? name entries = some value := by
  induction entries with
  | nil => cases h
  | cons entry rest ih =>
      obtain ⟨key, old⟩ := entry
      unfold Entries.get?
      by_cases hkey : key = name
      · exact ⟨old, if_pos hkey⟩
      · rw [if_neg hkey]
        exact ih ((List.mem_cons.mp h).resolve_left fun heq => hkey heq.symm)

/-- Where no key stands twice, an entry is what looking its key up finds. -/
theorem Entries.get?_eq_some_iff {α : Type} {entries : Entries α} (h : entries.names.Nodup) {name : String} {value : α} :
    Entries.get? name entries = some value ↔ (name, value) ∈ entries := by
  refine ⟨Entries.mem_of_get?, fun hmem => ?_⟩
  induction entries with
  | nil => cases hmem
  | cons entry rest ih =>
      obtain ⟨key, old⟩ := entry
      obtain ⟨hkey, hrest⟩ := List.nodup_cons.mp h
      unfold Entries.get?
      rcases List.mem_cons.mp hmem with heq | hmem
      · cases heq
        exact if_pos rfl
      · rw [if_neg fun heq => hkey (List.mem_map.mpr ⟨_, hmem, heq.symm⟩)]
        exact ih hrest hmem

/-- What stands in a sorted map is sorted. -/
theorem Value.Sorted.of_get? {entries : List (String × Value)} {key : String} {value : Value}
    (h : (Value.map entries).Sorted) (hget : Entries.get? key entries = some value) : value.Sorted := by
  cases h with
  | map _ hvalues => exact hvalues _ (Entries.mem_of_get? hget)

namespace Yaml

theorem plainValue?_sorted {text : String} {value : Value} (h : plainValue? text = some value) : value.Sorted := by
  unfold plainValue? at h
  split at h <;> cases h
  · exact .null
  · exact .bool _
  · exact .integer _
  · exact .ofFloat _
  · exact .text _

theorem scalarValue?_sorted {tag : Option String} {written : Notation} {text : String} {value : Value}
    (h : scalarValue? tag written text = some value) : value.Sorted := by
  unfold scalarValue? at h
  split at h
  · split at h
    · exact plainValue?_sorted h
    · cases h
      exact .text _
  · cases h
  · obtain ⟨b, -, rfl⟩ := Option.map_eq_some_iff.mp h
    exact .bool b
  · split at h
    · split at h
      · cases h
        exact .integer _
      · cases h
    · cases h
  · obtain ⟨x, -, rfl⟩ := Option.map_eq_some_iff.mp h
    exact .ofFloat x
  · split at h
    · cases h
      exact .null
    · cases h
  · cases h
    exact .text _

namespace Node

mutual

/-- **Every value that a node stands for is sorted.** -/
theorem value?_sorted {value : Value} (node : Node) (h : node.value? = some value) : value.Sorted := by
  cases node with
  | scalar tag written text => exact scalarValue?_sorted h
  | sequence tag items =>
      rw [value?] at h
      split at h
      · cases h
      · obtain ⟨values, hvalues, rfl⟩ := Option.map_eq_some_iff.mp h
        exact .list (values?_sorted items hvalues)
  | mapping tag entries =>
      rw [value?] at h
      split at h
      · cases h
      · obtain ⟨read, hread, rfl⟩ := Option.map_eq_some_iff.mp h
        exact .ofEntries (entryValues?_sorted entries hread)
  | «alias» id =>
      rw [value?] at h
      cases h
  | anchored id node =>
      rw [value?] at h
      exact value?_sorted node h

theorem values?_sorted {values : List Value} (items : List Node) (h : values? items = some values) :
    ∀ value ∈ values, value.Sorted := by
  cases items with
  | nil =>
      cases h
      exact List.forall_mem_nil _
  | cons item rest =>
      rw [values?] at h
      obtain ⟨value, hvalue, h⟩ := Option.bind_eq_some_iff.mp h
      obtain ⟨more, hmore, h⟩ := Option.bind_eq_some_iff.mp h
      cases h
      exact List.forall_mem_cons.mpr ⟨value?_sorted item hvalue, values?_sorted rest hmore⟩

theorem entryValues?_sorted {read : Entries Value} (entries : List (Node × Node))
    (h : entryValues? entries = some read) : ∀ entry ∈ read, entry.2.Sorted := by
  cases entries with
  | nil =>
      cases h
      exact List.forall_mem_nil _
  | cons entry rest =>
      obtain ⟨key, item⟩ := entry
      rw [entryValues?] at h
      obtain ⟨name, -, h⟩ := Option.bind_eq_some_iff.mp h
      obtain ⟨value, hvalue, h⟩ := Option.bind_eq_some_iff.mp h
      obtain ⟨more, hmore, h⟩ := Option.bind_eq_some_iff.mp h
      cases h
      exact List.forall_mem_cons.mpr ⟨value?_sorted item hvalue, entryValues?_sorted rest hmore⟩

end

end Node

/-- **Every value that is read from a text is sorted.** -/
theorem read?_sorted {text : String} {value : Value} (h : read? text = some value) : value.Sorted := by
  obtain ⟨node, -, hvalue⟩ := Option.bind_eq_some_iff.mp h
  exact node.value?_sorted hvalue

/-! ## The values in a manifest -/

namespace Node

variable {α : Type} {read : Node → Option α}

/-- A field is left out, or one node was read for it. -/
theorem field?_eq_some {fields : Entries Node} {name : String} {missing a : α}
    (h : field? fields name missing read = some a) : a = missing ∨ ∃ node, read node = some a := by
  unfold field? at h
  split at h
  · exact Or.inl (Option.some.inj h).symm
  · exact Or.inr ⟨_, h⟩
  · cases h

theorem optional?_eq_some {node : Node} {a? : Option α} (h : optional? read node = some a?) :
    a? = none ∨ ∃ a, a? = some a ∧ read node = some a := by
  obtain ⟨missing, -, h⟩ := Option.bind_eq_some_iff.mp h
  split at h
  · exact Or.inl (Option.some.inj h).symm
  · obtain ⟨a, ha, rfl⟩ := Option.map_eq_some_iff.mp h
    exact Or.inr ⟨a, rfl, ha⟩

theorem listOf?_eq_some {node : Node} {items : List α} (h : listOf? read node = some items) :
    ∀ item ∈ items, ∃ node, read node = some item := by
  unfold listOf? at h
  split at h
  · rename_i nodes
    induction nodes generalizing items with
    | nil =>
        cases h
        exact List.forall_mem_nil _
    | cons first rest ih =>
        rw [List.mapM_cons] at h
        obtain ⟨item, hitem, h⟩ := Option.bind_eq_some_iff.mp h
        obtain ⟨more, hmore, h⟩ := Option.bind_eq_some_iff.mp h
        cases h
        exact List.forall_mem_cons.mpr ⟨⟨first, hitem⟩, ih hmore⟩
  · split at h
    · cases h
      exact List.forall_mem_nil _
    · cases h

/-- A value that may be left out is sorted where it is not. -/
theorem value_sorted_of_field? {fields : Entries Node} {name : String} {value? : Option Value} {value : Value}
    (h : field? fields name none (optional? Node.value?) = some value?) (hvalue : value? = some value) :
    value.Sorted := by
  subst hvalue
  rcases field?_eq_some h with hmissing | ⟨node, hnode⟩
  · cases hmissing
  · rcases optional?_eq_some hnode with hnone | ⟨found, hfound, hread⟩
    · cases hnone
    · cases hfound
      exact node.value?_sorted hread

end Node

end Yaml

/-- Whether the values in the draft of a declaration are sorted. -/
structure Declaration.Draft.Sorted (draft : Declaration.Draft) : Prop where
  sample : ∀ value, draft.sample? = some value → value.Sorted
  default : ∀ value, draft.default? = some value → value.Sorted

theorem Declaration.Draft.sorted_of_ofNode? {node : Yaml.Node} {draft : Declaration.Draft}
    (h : Declaration.Draft.ofNode? node = some draft) : draft.Sorted := by
  simp only [Declaration.Draft.ofNode?, Option.bind_eq_bind, Option.bind_eq_some_iff, Option.some.injEq] at h
  obtain ⟨fields, -, name?, -, description?, -, default?, hdefault, sample?, hsample, validate?, -, unknown, -, rfl⟩ := h
  exact ⟨fun _ => Yaml.Node.value_sorted_of_field? hsample, fun _ => Yaml.Node.value_sorted_of_field? hdefault⟩

/-- **The values in a manifest that is read are sorted.** -/
theorem Manifest.Draft.sorted_of_ofString? {text : String} {draft : Manifest.Draft}
    (h : Manifest.Draft.ofString? text = some draft) : ∀ d ∈ draft.declarations, d.Sorted := by
  obtain ⟨node, -, h⟩ := Option.bind_eq_some_iff.mp h
  simp only [Manifest.Draft.ofNode?, Option.bind_eq_bind, Option.bind_eq_some_iff, Option.some.injEq] at h
  obtain ⟨fields, -, name?, -, description?, -, templateVersion, -, manifestVersion, -, authors, -, license?, -,
    configuration, -, declarations, hdeclarations, unknown, -, rfl⟩ := h
  rcases Yaml.Node.field?_eq_some hdeclarations with rfl | ⟨list, hlist⟩
  · exact List.forall_mem_nil _
  · intro d hd
    obtain ⟨item, hitem⟩ := Yaml.Node.listOf?_eq_some hlist d hd
    exact Declaration.Draft.sorted_of_ofNode? hitem

end Stencil
