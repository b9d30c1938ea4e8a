import Stencil.Template.Operation

/-!
# The functions in data

A function is a datum like any other: it can be put into a list, handed on and called later. But no
operation makes one out of something else. `Datum.Only p` says that all functions somewhere in a datum are
of a kind `p`, and the theorems here say that operations keep it so.
-/

namespace Stencil.Template

/-- Whether a result, if there is one, is as it should be. -/
def Yields {α : Type} (good : α → Prop) : Except Cause α → Prop
  | .ok a => good a
  | .error _ => True

namespace Yields

variable {α β : Type} {good : α → Prop} {good' : β → Prop} {result : Except Cause α}

@[simp] theorem ok {a : α} : Yields good (.ok a) ↔ good a := Iff.rfl

@[simp] theorem pure {a : α} : Yields good (Pure.pure a) ↔ good a := Iff.rfl

@[simp] theorem error {cause : Cause} : Yields good (.error cause : Except Cause α) := trivial

@[simp] theorem throw {cause : Cause} : Yields good (MonadExcept.throw cause : Except Cause α) := trivial

theorem of_ok (h : Yields good result) {a : α} (ha : result = .ok a) : good a := by
  subst ha
  exact h

theorem mono {good' : α → Prop} (h : Yields good result) (hgood : ∀ a, good a → good' a) :
    Yields good' result := by
  cases result with
  | ok a => exact hgood a h
  | error cause => trivial

/-- What is known of a result anyway. -/
theorem of_forall (h : ∀ a, good a) : Yields good result := by
  cases result with
  | ok a => exact h a
  | error cause => trivial

theorem bind {next : α → Except Cause β} (h : Yields good result)
    (hnext : ∀ a, good a → Yields good' (next a)) : Yields good' (result >>= next) := by
  cases result with
  | ok a => exact hnext a h
  | error cause => trivial

theorem map {f : α → β} (h : Yields good result) (hf : ∀ a, good a → good' (f a)) :
    Yields good' (result.map f) := by
  cases result with
  | ok a => exact hf a h
  | error cause => trivial

theorem foldlM {step : β → α → Except Cause β} {items : List α} {b : β} (hb : good' b)
    (hstep : ∀ b, good' b → ∀ a ∈ items, Yields good' (step b a)) :
    Yields good' (items.foldlM step b) := by
  induction items generalizing b with
  | nil => exact hb
  | cons a rest ih =>
      rw [List.foldlM_cons]
      refine (hstep b hb a List.mem_cons_self).bind fun b' hb' => ?_
      exact ih hb' fun b hb a ha => hstep b hb a (List.mem_cons_of_mem _ ha)

theorem mapM {step : α → Except Cause β} {items : List α}
    (hstep : ∀ a ∈ items, Yields good' (step a)) :
    Yields (fun all => ∀ b ∈ all, good' b) (items.mapM step) := by
  induction items with
  | nil => simp [List.mapM_nil]
  | cons a rest ih =>
      rw [List.mapM_cons]
      refine (hstep a List.mem_cons_self).bind fun b hb => ?_
      refine (ih fun a ha => hstep a (List.mem_cons_of_mem _ ha)).bind fun all hall => ?_
      simpa [hb] using hall

end Yields

/-! ## Readers -/

/-- Whether a reader gives what is good, started where an invariant holds, and keeps to the invariant. -/
def Keeping {σ α : Type} (inv : σ → Prop) (good : α → Prop) (reader : StateT σ (Except Cause) α) : Prop :=
  ∀ s, inv s → Yields (fun result => good result.1 ∧ inv result.2) (StateT.run reader s)

namespace Keeping

variable {σ α β : Type} {inv : σ → Prop} {good : α → Prop} {good' : β → Prop}
  {reader : StateT σ (Except Cause) α}

theorem pure {a : α} (h : good a) :
    Keeping inv good (Pure.pure a : StateT σ (Except Cause) α) := fun _ hs => ⟨h, hs⟩

theorem throw {cause : Cause} :
    Keeping inv good (MonadExcept.throw cause : StateT σ (Except Cause) α) := fun _ _ => trivial

theorem lift {result : Except Cause α} (h : Yields good result) :
    Keeping inv good (ofExcept result : StateT σ (Except Cause) α) := by
  cases result with
  | ok a => exact pure h
  | error cause => exact throw

theorem bind {next : α → StateT σ (Except Cause) β} (h : Keeping inv good reader)
    (hnext : ∀ a, good a → Keeping inv good' (next a)) : Keeping inv good' (reader >>= next) := by
  intro s hs
  rw [StateT.run_bind]
  exact (h s hs).bind fun result hresult => hnext result.1 hresult.1 result.2 hresult.2

/-- What is done next may depend on what there is to read. -/
theorem get_bind {next : σ → StateT σ (Except Cause) α}
    (h : ∀ s, inv s → Yields (fun result => good result.1 ∧ inv result.2) (StateT.run (next s) s)) :
    Keeping inv good (get >>= next) := h

theorem set {s : σ} (h : inv s) :
    Keeping inv (fun _ => True) (MonadStateOf.set s : StateT σ (Except Cause) PUnit) :=
  fun _ _ => ⟨trivial, h⟩

theorem map {f : α → β} (h : Keeping inv good reader) (hf : ∀ a, good a → good' (f a)) :
    Keeping inv good' (f <$> reader) := by
  rw [← bind_pure_comp]
  exact bind h fun a ha => pure (hf a ha)

end Keeping

namespace Datum

variable {p : Builtin → Prop}

mutual

/-- Whether all functions in a datum are of a kind. -/
def Only (p : Builtin → Prop) : Datum → Prop
  | .list items => OnlyAll p items
  | .stream items _ => OnlyAll p items
  | .map entries => OnlyEntries p entries
  | .named entries => OnlyNamed p entries
  | .group common items => Only p common ∧ OnlyAll p items
  | .function f => p f
  | _ => True

/-- Whether all functions in a row of data are of a kind. -/
def OnlyAll (p : Builtin → Prop) : List Datum → Prop
  | [] => True
  | d :: rest => Only p d ∧ OnlyAll p rest

/-- Whether all functions in the entries of a map are of a kind. -/
def OnlyEntries (p : Builtin → Prop) : List (Datum × Datum) → Prop
  | [] => True
  | (key, d) :: rest => (Only p key ∧ Only p d) ∧ OnlyEntries p rest

/-- Whether all functions in named arguments are of a kind. -/
def OnlyNamed (p : Builtin → Prop) : List (String × Datum) → Prop
  | [] => True
  | (_, d) :: rest => Only p d ∧ OnlyNamed p rest

end

theorem onlyAll_iff {items : List Datum} : OnlyAll p items ↔ ∀ d ∈ items, d.Only p := by
  induction items with
  | nil => exact iff_of_true trivial (List.forall_mem_nil _)
  | cons d rest ih =>
      rw [List.forall_mem_cons, ← ih]
      exact Iff.rfl

theorem onlyEntries_iff {entries : List (Datum × Datum)} :
    OnlyEntries p entries ↔ ∀ entry ∈ entries, entry.1.Only p ∧ entry.2.Only p := by
  induction entries with
  | nil => exact iff_of_true trivial (List.forall_mem_nil _)
  | cons entry rest ih =>
      rw [List.forall_mem_cons, ← ih]
      exact Iff.rfl

theorem onlyNamed_iff {entries : List (String × Datum)} :
    OnlyNamed p entries ↔ ∀ entry ∈ entries, entry.2.Only p := by
  induction entries with
  | nil => exact iff_of_true trivial (List.forall_mem_nil _)
  | cons entry rest ih =>
      rw [List.forall_mem_cons, ← ih]
      exact Iff.rfl

@[simp] theorem only_undefined : Datum.undefined.Only p := trivial

@[simp] theorem only_none : Datum.none.Only p := trivial

@[simp] theorem only_bool (b : Bool) : (Datum.bool b).Only p := trivial

@[simp] theorem only_integer (n : Int) : (Datum.integer n).Only p := trivial

@[simp] theorem only_decimal (x : Float) : (Datum.decimal x).Only p := trivial

@[simp] theorem only_text (s : String) (safe : Bool) : (Datum.text s safe).Only p := trivial

@[simp] theorem only_ofString (s : String) : (ofString s).Only p := only_text s false

@[simp] theorem only_macroRef (head : MacroHead) : (Datum.macroRef head).Only p := trivial

@[simp] theorem only_loop (place : Nat) : (Datum.loop place).Only p := trivial

@[simp] theorem only_space (place : Nat) : (Datum.space place).Only p := trivial

@[simp] theorem only_writer (label : String) : (Datum.writer label).Only p := trivial

@[simp] theorem only_label (text : String) : (Datum.label text).Only p := trivial

@[simp] theorem only_function {f : Builtin} : (Datum.function f).Only p ↔ p f := Iff.rfl

@[simp] theorem only_list {items : List Datum} :
    (Datum.list items).Only p ↔ ∀ d ∈ items, d.Only p :=
  onlyAll_iff

@[simp] theorem only_stream {items : List Datum} {counted : Bool} :
    (Datum.stream items counted).Only p ↔ ∀ d ∈ items, d.Only p :=
  onlyAll_iff

@[simp] theorem only_map {entries : List (Datum × Datum)} :
    (Datum.map entries).Only p ↔ ∀ entry ∈ entries, entry.1.Only p ∧ entry.2.Only p :=
  onlyEntries_iff

@[simp] theorem only_named {entries : List (String × Datum)} :
    (Datum.named entries).Only p ↔ ∀ entry ∈ entries, entry.2.Only p :=
  onlyNamed_iff

@[simp] theorem only_group {common : Datum} {items : List Datum} :
    (Datum.group common items).Only p ↔ common.Only p ∧ ∀ d ∈ items, d.Only p :=
  and_congr_right fun _ => onlyAll_iff

/-! ## Maps and rows -/

theorem insertEntry_only {key value : Datum} {entries : List (Datum × Datum)}
    (hkey : key.Only p) (hvalue : value.Only p)
    (h : ∀ entry ∈ entries, entry.1.Only p ∧ entry.2.Only p) :
    ∀ entry ∈ insertEntry key value entries, entry.1.Only p ∧ entry.2.Only p := by
  induction entries with
  | nil => simp [insertEntry, hkey, hvalue]
  | cons first rest ih =>
      obtain ⟨other, old⟩ := first
      have hfirst := h _ List.mem_cons_self
      have hrest : ∀ entry ∈ rest, entry.1.Only p ∧ entry.2.Only p := fun entry hentry =>
        h entry (List.mem_cons_of_mem _ hentry)
      unfold insertEntry
      split
      · simpa [hkey, hvalue, hfirst] using hrest
      · simpa [hvalue, hfirst] using hrest
      · simpa [hfirst] using ih hrest

theorem ofPairs_only {entries : List (Datum × Datum)}
    (h : ∀ entry ∈ entries, entry.1.Only p ∧ entry.2.Only p) : (ofPairs entries).Only p := by
  refine only_map.mpr (List.foldlRecOn
    (motive := fun acc : List (Datum × Datum) => ∀ entry ∈ acc, entry.1.Only p ∧ entry.2.Only p)
    entries _ (by simp) ?_)
  exact fun acc hacc entry hentry => insertEntry_only (h entry hentry).1 (h entry hentry).2 hacc

theorem valueOf?_only {key d : Datum} {entries : List (Datum × Datum)}
    (h : ∀ entry ∈ entries, entry.1.Only p ∧ entry.2.Only p) (hd : valueOf? key entries = some d) :
    d.Only p := by
  obtain ⟨entry, hfind, rfl⟩ := Option.map_eq_some_iff.mp hd
  exact (h entry (List.mem_of_find?_eq_some hfind)).2

theorem get?_only {name : String} {d : Datum} {entries : Entries Datum}
    (h : ∀ entry ∈ entries, entry.2.Only p) (hd : Entries.get? name entries = some d) : d.Only p := by
  induction entries with
  | nil => exact absurd hd (by simp)
  | cons entry rest ih =>
      obtain ⟨key, value⟩ := entry
      rw [Entries.get?] at hd
      split at hd
      · exact Option.some.inj hd ▸ h _ List.mem_cons_self
      · exact ih (fun other hother => h other (List.mem_cons_of_mem _ hother)) hd

theorem nth?_only {items : List Datum} {place : Int} {d : Datum} (h : ∀ d ∈ items, d.Only p)
    (hd : nth? items place = some d) : d.Only p := by
  unfold nth? at hd
  split at hd
  · split at hd
    · exact h d (List.mem_of_getElem? hd)
    · exact absurd hd (by simp)
  · exact h d (List.mem_of_getElem? hd)

theorem items?_only {d : Datum} {items : List Datum} (h : d.Only p) (hitems : d.items? = some items) :
    ∀ x ∈ items, x.Only p := by
  cases d with
  | undefined | none =>
      obtain rfl := Option.some.inj hitems
      simp
  | text s safe =>
      obtain rfl := Option.some.inj hitems
      simp
  | list all | stream all counted =>
      obtain rfl := Option.some.inj hitems
      simpa using h
  | map entries =>
      obtain rfl := Option.some.inj hitems
      simp only [List.forall_mem_map]
      exact fun entry hentry => (only_map.mp h entry hentry).1
  | named entries =>
      obtain rfl := Option.some.inj hitems
      simp only [List.forall_mem_map]
      exact fun _ _ => only_ofString _
  | group common all =>
      obtain rfl := Option.some.inj hitems
      simpa using h
  | _ => exact absurd hitems (by simp [items?])

theorem attribute?_only {d found : Datum} {name : String} (h : d.Only p)
    (hfound : d.attribute? name = some found) : found.Only p := by
  cases d with
  | map entries => exact valueOf?_only (only_map.mp h) hfound
  | named entries => exact get?_only (only_named.mp h) hfound
  | group common items =>
      simp only [attribute?] at hfound
      split at hfound
      · exact Option.some.inj hfound ▸ (only_group.mp h).1
      · split at hfound
        · exact Option.some.inj hfound ▸ only_list.mpr (only_group.mp h).2
        · exact absurd hfound (by simp)
  | macroRef head =>
      simp only [attribute?] at hfound
      split at hfound
      · exact Option.some.inj hfound ▸ only_ofString _
      · split at hfound
        · exact Option.some.inj hfound ▸ only_list.mpr (by simp)
        · split at hfound
          · exact Option.some.inj hfound ▸ only_bool _
          · exact absurd hfound (by simp)
  | _ => exact absurd hfound (by simp [attribute?])

theorem item?_only {d key found : Datum} (h : d.Only p) (hfound : d.item? key = some found) :
    found.Only p := by
  have hnth : ∀ items place, d.items? = some items → nth? items place = some found → found.Only p :=
    fun items place hitems hd => nth?_only (items?_only h hitems) hd
  have hattribute : ∀ name, d.attribute? name = some found → found.Only p :=
    fun name hd => attribute?_only h hd
  have hrow : (do nth? (← d.items?) (← key.toInt?)) = some found → found.Only p := by
    intro hd
    obtain ⟨items, hitems, hd⟩ := Option.bind_eq_some_iff.mp hd
    obtain ⟨place, _, hd⟩ := Option.bind_eq_some_iff.mp hd
    exact hnth items place hitems hd
  unfold item? at hfound
  split at hfound
  · exact valueOf?_only (only_map.mp h) hfound
  · exact hrow hfound
  · obtain ⟨place, _, hd⟩ := Option.bind_eq_some_iff.mp hfound
    exact hnth _ place rfl hd
  · obtain ⟨place, _, hd⟩ := Option.bind_eq_some_iff.mp hfound
    exact hnth _ place rfl hd
  · split at hfound
    · exact hattribute _ hfound
    · exact hrow hfound
  · split at hfound
    · exact hattribute _ hfound
    · exact absurd hfound (by simp)

mutual

theorem ofValue_only (value : Value) : (ofValue value).Only p := by
  cases value with
  | null | bool | integer | decimal | text => simp [ofValue]
  | list items =>
      rw [ofValue, only_list]
      exact ofValues_only items
  | map entries =>
      rw [ofValue, only_map]
      exact ofEntries_only entries

theorem ofValues_only (items : List Value) : ∀ d ∈ ofValues items, d.Only p := by
  cases items with
  | nil => simp [ofValues]
  | cons item rest => simpa [ofValues, ofValue_only item] using ofValues_only rest

theorem ofEntries_only (entries : List (String × Value)) :
    ∀ entry ∈ ofEntries entries, entry.1.Only p ∧ entry.2.Only p := by
  cases entries with
  | nil => simp [ofEntries]
  | cons entry rest =>
      obtain ⟨key, item⟩ := entry
      simpa [ofEntries, ofValue_only item] using ofEntries_only rest

end

/-! ## Operators -/

theorem row?_only {d : Datum} {items : List Datum} (h : d.Only p) (hitems : d.row? = some items) :
    ∀ x ∈ items, x.Only p := by
  cases d with
  | list all | stream all counted =>
      obtain rfl := Option.some.inj hitems
      simpa using h
  | group common all =>
      obtain rfl := Option.some.inj hitems
      simpa using h
  | _ => exact absurd hitems (by simp [row?])

theorem integerResult_only {operator : String} {n : Int} :
    Yields (·.Only p) (integerResult operator n) := by
  unfold integerResult
  split
  · simp
  · simp [failed]

theorem add_only {a b : Datum} (ha : a.Only p) (hb : b.Only p) :
    Yields (·.Only p) (a.add b) := by
  unfold add
  split
  · rename_i xs ys hxs hys
    have hxs' := row?_only ha hxs
    have hys' := row?_only hb hys
    simp only [Yields.ok, only_stream, List.forall_mem_append]
    exact ⟨hxs', hys'⟩
  · split
    · exact integerResult_only
    · simp
    · simp
    · simp [impossible]

theorem repeated_only {items : List Datum} {times : Datum} (h : ∀ d ∈ items, d.Only p) :
    Yields (·.Only p) (repeated items times) := by
  unfold repeated
  split
  · simp only [Yields.ok, only_stream, List.mem_flatten, List.mem_replicate]
    rintro d ⟨row, ⟨_, rfl⟩, hd⟩
    exact h d hd
  · simp

theorem repeatedText_only {s : String} {times : Datum} : Yields (·.Only p) (repeatedText s times) := by
  unfold repeatedText
  split <;> simp

theorem multiply_only {a b : Datum} (ha : a.Only p) (hb : b.Only p) :
    Yields (·.Only p) (a.multiply b) := by
  unfold multiply
  split
  · exact repeatedText_only
  · exact repeatedText_only
  · split
    · rename_i items _ hitems
      exact repeated_only (row?_only ha hitems)
    · rename_i items _ hitems
      exact repeated_only (row?_only hb hitems)
    · split
      · exact integerResult_only
      · simp
      · simp [impossible]

/-- An operator on numbers gives a number. -/
theorem numeric_only {a b : Datum} {operator : String} {whole : Int → Int → Except Cause Datum}
    {broken : Float → Float → Float} (hwhole : ∀ m n, Yields (·.Only p) (whole m n)) :
    Yields (·.Only p) (match pair? false a b with
      | some (.integers m n) => whole m n
      | some (.decimals x y) => .ok (.decimal (broken x y))
      | _ => impossible operator a b) := by
  split
  · exact hwhole _ _
  · simp
  · simp [impossible]

theorem mem_everyNth {α : Type} {step : Nat} {x : α} {skip : Nat} {items : List α}
    (h : x ∈ everyNth step skip items) : x ∈ items := by
  induction items generalizing skip with
  | nil => simp [everyNth] at h
  | cons first rest ih =>
      cases skip with
      | zero =>
          rw [everyNth, List.mem_cons] at h
          exact List.mem_cons.mpr (h.imp_right ih)
      | succ skip =>
          rw [everyNth] at h
          exact List.mem_cons_of_mem _ (ih h)

theorem mem_forwardSlice {α : Type} {x : α} {items : List α} {start stop : Option Int} {step : Nat}
    (h : x ∈ forwardSlice items start stop step) : x ∈ items :=
  List.mem_of_mem_drop (List.mem_of_mem_take (mem_everyNth h))

theorem mem_backwardSlice {α : Type} {x : α} {items : List α} {start stop : Option Int} {step : Nat}
    (h : x ∈ backwardSlice items start stop step) : x ∈ items :=
  List.mem_of_mem_take (List.mem_of_mem_drop
    (List.mem_reverse.mp (mem_everyNth (List.mem_of_mem_take h))))

theorem slice_only {d start stop step : Datum} (h : d.Only p) :
    Yields (·.Only p) (d.slice start stop step) := by
  unfold slice
  refine Yields.bind (Yields.of_forall fun _ => trivial) fun first (_ : True) => ?_
  refine Yields.bind (Yields.of_forall fun _ => trivial) fun last (_ : True) => ?_
  refine Yields.bind (Yields.of_forall fun _ => trivial) fun width (_ : True) => ?_
  by_cases hzero : width.getD 1 = 0
  · simp [hzero]
  · simp only [if_neg hzero]
    split
    · simp
    · simp
    · simp
    · split
      · rename_i items hitems
        simp only [Yields.pure, only_stream]
        intro x hx
        refine row?_only h hitems x ?_
        split at hx
        · exact mem_forwardSlice hx
        · exact mem_backwardSlice hx
      · simp

end Datum

theorem BinaryOp.apply_only {p : Builtin → Prop} (op : BinaryOp) {a b : Datum} (ha : a.Only p)
    (hb : b.Only p) : Yields (·.Only p) (op.apply a b) := by
  have hresult : ∀ operator n, Yields (·.Only p) (Datum.integerResult operator n) :=
    fun _ _ => Datum.integerResult_only
  have hfailed : ∀ operator, Yields (·.Only p) (Datum.failed operator : Except Cause Datum) :=
    fun _ => trivial
  cases op with
  | or | and =>
      simp only [apply, Yields.ok]
      split <;> assumption
  | equal | notEqual | less | lessOrEqual | greater | greaterOrEqual => simp [apply]
  | contained => exact Yields.map (Yields.of_forall fun _ => trivial) fun _ (_ : True) => by simp
  | add => exact Datum.add_only ha hb
  | subtract => exact Datum.numeric_only fun _ _ => hresult _ _
  | concatenate => simp [apply, Datum.concatenate]
  | multiply => exact Datum.multiply_only ha hb
  | divide =>
      simp only [apply, Datum.divide]
      split
      · simp
      · simp [Datum.impossible]
  | floorDivide | remainder =>
      refine Datum.numeric_only fun m n => ?_
      split
      · exact hfailed _
      · exact hresult _ _
  | power =>
      refine Datum.numeric_only fun m n => ?_
      split
      · simp
      · exact hfailed _

theorem UnaryOp.apply_only {p : Builtin → Prop} (op : UnaryOp) (d : Datum) :
    Yields (·.Only p) (op.apply d) := by
  cases op with
  | negate =>
      simp only [apply, Datum.negate]
      split
      · simp
      · split
        · simp
        · split
          · exact Datum.integerResult_only
          · simp
      · simp
  | not => simp [apply]

end Stencil.Template
