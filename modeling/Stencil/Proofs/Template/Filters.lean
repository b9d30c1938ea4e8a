import Stencil.Template.Filter.Basic
import Stencil.Proofs.Template.Functions

/-!
# The functions in what filters give

A filter gives no function that was not in its arguments (`Filter.apply_only`). Most filters give texts or
numbers, whatever they read (`Reading.Always`). The others hand on what they read, and so it matters that
reading arguments finds nothing in them that was not there (`Reading.Gives`).
-/

namespace Stencil.Template

variable {p : Builtin → Prop} {α β : Type}

/-! ## Reading -/

/-- Whether all functions in the arguments that are left are of a kind. -/
def Arguments.Only (p : Builtin → Prop) (args : Arguments) : Prop :=
  (∀ d ∈ args.rest, d.Only p) ∧ ∀ entry ∈ args.named, entry.2.Only p

namespace Reading

/-- Whether a reader gives what is good, from whatever it reads. -/
def Always (good : α → Prop) (reader : Reading α) : Prop :=
  ∀ args, Yields (fun result => good result.1) (StateT.run reader args)

/-- Whether a reader gives what is good from arguments with functions of a kind only, and leaves such. -/
abbrev Gives (p : Builtin → Prop) (good : α → Prop) (reader : Reading α) : Prop :=
  Keeping (Arguments.Only p) good reader

/-- What was read is given if nothing is left. -/
theorem finish {good : α → Prop} {result : Except Cause (α × Arguments)} {whole : Arguments → Bool} :
    Yields (fun result => good result.1) result → Yields good (match result with
      | .error cause => .error cause
      | .ok (a, left) => if whole left then .ok a else .error .tooManyArguments) := by
  intro h
  cases result with
  | error cause => trivial
  | ok result =>
      simp only
      split
      · exact h
      · trivial

namespace Always

variable {good : α → Prop} {good' : β → Prop} {reader : Reading α}

theorem pure {a : α} (h : good a) : Always good (Pure.pure a) := fun _ => h

theorem throw {cause : Cause} : Always good (MonadExcept.throw cause : Reading α) := fun _ => trivial

theorem lift {result : Except Cause α} (h : Yields good result) :
    Always good (ofExcept result : Reading α) := by
  cases result with
  | ok a => exact pure h
  | error cause => exact throw

/-- Whatever is read first, what counts is what is given in the end. -/
theorem bind {next : α → Reading β} (h : ∀ a, Always good' (next a)) :
    Always good' (reader >>= next) := by
  intro args
  rw [StateT.run_bind]
  exact Yields.bind (Yields.of_forall fun _ => trivial) fun result (_ : True) => h result.1 result.2

theorem run (h : Always good reader) (args : List Datum) : Yields good (Reading.run reader args) :=
  finish (h _)

theorem runNamed (h : Always good reader) (args : List Datum) :
    Yields good (Reading.runNamed reader args) :=
  finish (h _)

end Always

namespace Gives

variable {good : α → Prop} {good' : β → Prop} {reader : Reading α}

theorem next? : Gives p (fun d? => ∀ d ∈ d?, Datum.Only p d) Reading.next? := by
  intro args hargs
  refine ⟨fun d hd => ?_, fun d hd => hargs.1 d (List.mem_of_mem_drop hd), hargs.2⟩
  exact hargs.1 d (List.mem_of_head? hd)

theorem datum : Gives p (Datum.Only p) Reading.datum := by
  refine Keeping.bind next? fun d? hd? => ?_
  cases d? with
  | some d => exact Keeping.pure (hd? d rfl)
  | none => exact Keeping.throw

theorem required {read : Datum → Except Cause α} (h : ∀ d, d.Only p → Yields good (read d)) :
    Gives p good (Reading.required read) := by
  refine Keeping.bind datum fun d hd => ?_
  have hread := h d hd
  cases hresult : read d with
  | ok a =>
      rw [hresult] at hread
      exact Keeping.pure hread
  | error cause => exact Keeping.throw

theorem optional {read : Datum → Except Cause α} (h : ∀ d, d.Only p → Yields good (read d)) :
    Gives p (fun a? => ∀ a ∈ a?, good a) (Reading.optional read) := by
  refine Keeping.bind next? fun d? hd? => ?_
  split
  · exact Keeping.pure (by simp)
  · exact Keeping.pure (by simp)
  · exact Keeping.pure (by simp)
  · rename_i d _ _
    have hread := h d (hd? d rfl)
    cases hresult : read d with
    | ok a =>
        rw [hresult] at hread
        exact Keeping.pure (by simpa using hread)
    | error cause => exact Keeping.throw

theorem namedOptional {name : String} {read : Datum → Except Cause α}
    (h : ∀ d, d.Only p → Yields good (read d)) :
    Gives p (fun a? => ∀ a ∈ a?, good a) (Reading.namedOptional name read) := by
  refine Keeping.get_bind fun args hargs => ?_
  have hleft : Arguments.Only p { args with named := args.named.filter fun entry => entry.1 ≠ name } :=
    ⟨hargs.1, fun entry hentry => hargs.2 entry ((List.mem_filter.mp hentry).1)⟩
  refine (show Gives p (fun a? => ∀ a ∈ a?, good a) _ from (Keeping.set hleft).bind fun _ _ => ?_) args hargs
  split
  · exact Keeping.pure (by simp)
  · exact Keeping.pure (by simp)
  · exact Keeping.pure (by simp)
  · rename_i d _ _ hd
    have hread := h d (Datum.get?_only hargs.2 hd)
    cases hresult : read d with
    | ok a =>
        rw [hresult] at hread
        exact Keeping.pure (by simpa using hread)
    | error cause => exact Keeping.throw

theorem remaining : Gives p (fun items => ∀ d ∈ items, Datum.Only p d) Reading.remaining :=
  fun _ hargs => ⟨hargs.1, by simp, hargs.2⟩

/-- What is read without looking at functions. -/
theorem plain {read : Datum → Except Cause α} : ∀ d, d.Only p → Yields (fun _ => True) (read d) :=
  fun _ _ => Yields.of_forall fun _ => trivial

theorem asAny : ∀ d : Datum, d.Only p → Yields (Datum.Only p) (Reading.asAny d) := fun _ h => h

theorem run (h : Gives p good reader) {args : List Datum} (hargs : ∀ d ∈ args, d.Only p) :
    Yields good (Reading.run reader args) :=
  finish ((h _ ⟨hargs, by simp⟩).mono fun _ hresult => hresult.1)

theorem runNamed (h : Gives p good reader) {args : List Datum} (hargs : ∀ d ∈ args, d.Only p) :
    Yields good (Reading.runNamed reader args) := by
  refine finish ((h _ ?_).mono fun _ hresult => hresult.1)
  split
  · rename_i entries hlast
    refine ⟨fun d hd => hargs d (List.dropLast_subset _ hd), ?_⟩
    exact Datum.only_named.mp (hargs _ (List.mem_of_getLast? hlast))
  · exact ⟨hargs, by simp⟩

end Gives

end Reading

namespace Filter

open Reading

/-- Whether a filter gives no functions but such as were in its arguments. -/
def Keeps (p : Builtin → Prop) (filter : List Datum → Except Cause Datum) : Prop :=
  ∀ args : List Datum, (∀ d ∈ args, d.Only p) → Yields (·.Only p) (filter args)

/-! ## Filters on texts and numbers -/

theorem keeps_of_always {reader : Reading Datum} (h : Always (·.Only p) reader) :
    Keeps p (run reader) :=
  fun args _ => h.run args

theorem text?_keeps {name : String} {filter : List Datum → Except Cause Datum}
    (h : text? name = some filter) : Keeps p filter := by
  have hrows : ∀ parts : List (List Char), Datum.Only p
      (.stream (parts.map fun part => .ofString (String.ofList part)) false) := by simp
  have hshown : ∀ f : String → String, Keeps p (run do
      let s ← required asShown
      pure (Datum.ofString (f s))) := fun f =>
    keeps_of_always (.bind fun s => .pure (Datum.only_ofString _))
  have htext : ∀ f : String → String, Keeps p (run do
      let s ← required asText
      pure (Datum.ofString (f s))) := fun f =>
    keeps_of_always (.bind fun s => .pure (Datum.only_ofString _))
  unfold text? at h
  simp only at h
  split at h <;> (try exact Option.some.inj h ▸ hshown _) <;> (try exact Option.some.inj h ▸ htext _)
  · obtain rfl := Option.some.inj h
    exact keeps_of_always (.bind fun _ => .bind fun _ => .bind fun _ => .pure (Datum.only_ofString _))
  · obtain rfl := Option.some.inj h
    exact keeps_of_always (.bind fun _ => .bind fun _ => .pure (Datum.only_ofString _))
  · obtain rfl := Option.some.inj h
    exact keeps_of_always (.bind fun _ => .bind fun _ => .bind fun _ => .pure (hrows _))
  · obtain rfl := Option.some.inj h
    exact keeps_of_always (.bind fun _ => .pure (hrows _))
  · obtain rfl := Option.some.inj h
    exact keeps_of_always (.bind fun _ => .bind fun _ => .bind fun _ => .bind fun _ =>
      .pure (Datum.only_ofString _))
  · obtain rfl := Option.some.inj h
    exact keeps_of_always (.bind fun _ => .pure (Datum.only_ofString _))
  · obtain rfl := Option.some.inj h
    exact keeps_of_always (.bind fun _ => .pure (Datum.only_text _ _))
  · obtain rfl := Option.some.inj h
    refine keeps_of_always (.bind fun d => .pure ?_)
    split <;> simp
  · exact absurd h (by simp)

theorem number?_keeps {name : String} {filter : List Datum → Except Cause Datum}
    (h : number? name = some filter) : Keeps p filter := by
  unfold number? at h
  split at h
  · obtain rfl := Option.some.inj h
    refine keeps_of_always (.bind fun d => .bind fun _ => ?_)
    split
    · exact .pure (by simp)
    · exact .pure (by simp)
    · exact .throw
  · obtain rfl := Option.some.inj h
    refine keeps_of_always (.bind fun d => ?_)
    split
    · exact .pure (by simp)
    · exact .pure (by simp)
    · exact .throw
  · obtain rfl := Option.some.inj h
    refine keeps_of_always (.bind fun d => .lift ?_)
    unfold toInteger
    repeat' split
    all_goals simp
  · obtain rfl := Option.some.inj h
    refine keeps_of_always (.bind fun d => .lift ?_)
    unfold toDecimal
    repeat' split
    all_goals simp
  · obtain rfl := Option.some.inj h
    exact keeps_of_always (.bind fun _ => .pure (by simp))
  · exact absurd h (by simp)

theorem format_keeps : Keeps p format := by
  intro args _
  unfold format
  simp only
  split
  · trivial
  · refine Yields.bind (Yields.of_forall fun _ => trivial) fun _ (_ : True) => ?_
    exact Yields.bind (Yields.of_forall fun _ => trivial) fun _ (_ : True) => by simp

/-! ## Filters on rows -/

variable {items : List Datum} {d : Datum}

theorem rowOf_only (tried : String) (h : d.Only p) :
    Yields (fun items => ∀ x ∈ items, Datum.Only p x) (rowOf tried d) := by
  unfold rowOf
  split
  · rename_i items hitems
    exact Datum.items?_only h hitems
  · trivial

/-- What is found is as what was looked into, and so is nothing. -/
theorem getD_only {found? : Option Datum} (h : ∀ found, found? = some found → found.Only p) :
    (found?.getD .undefined).Only p := by
  cases found? with
  | none => simp
  | some found => exact h found rfl

theorem attributeOf_only (name : String) (h : d.Only p) : Yields (·.Only p) (attributeOf name d) := by
  unfold attributeOf
  split
  · trivial
  · exact getD_only fun found hfound => Datum.attribute?_only h hfound

theorem itemOf_only (key : Datum) (h : d.Only p) : Yields (·.Only p) (itemOf key d) := by
  unfold itemOf
  split
  · trivial
  · exact getD_only fun found hfound => Datum.item?_only h hfound

theorem follow_only (way : String) (h : d.Only p) : Yields (·.Only p) (follow way d) := by
  refine Yields.foldlM h fun d hd piece _ => ?_
  split
  · exact itemOf_only _ hd
  · exact attributeOf_only _ hd

theorem followOr_only (way : String) {default : Datum} (hdefault : default.Only p) (h : d.Only p) :
    (followOr way default d).Only p := by
  unfold followOr
  split
  · exact hdefault
  · rename_i found _ hfound
    exact (follow_only way h).of_ok hfound
  · exact hdefault

theorem mem_sortOn {key : Datum → Datum} {caseCounts : Bool} (h : d ∈ sortOn key caseCounts items) :
    d ∈ items :=
  List.mem_mergeSort.mp h

theorem backwards_only (h : d.Only p) : Yields (·.Only p) (backwards d) := by
  unfold backwards
  split
  · simp
  · simp
  · simp
  · split
    · rename_i items hitems
      simpa using Datum.items?_only h hitems
    · trivial

theorem least_only (h : ∀ d ∈ items, d.Only p) : (least items).Only p := by
  cases items with
  | nil => simp [least]
  | cons x rest =>
      refine List.foldlRecOn (motive := Datum.Only p) rest _ (h x List.mem_cons_self) fun a ha b hb => ?_
      split
      · exact h b (List.mem_cons_of_mem _ hb)
      · exact ha

theorem greatest_only (h : ∀ d ∈ items, d.Only p) : (greatest items).Only p := by
  cases items with
  | nil => simp [greatest]
  | cons x rest =>
      refine List.foldlRecOn (motive := Datum.Only p) rest _ (h x List.mem_cons_self) fun a ha b hb => ?_
      split
      · exact ha
      · exact h b (List.mem_cons_of_mem _ hb)

theorem mem_partsOf {size fuel : Nat} {part : List Datum} (h : part ∈ partsOf size fuel items) :
    ∀ x ∈ part, x ∈ items := by
  induction fuel generalizing items with
  | zero => simp [partsOf] at h
  | succ fuel ih =>
      cases items with
      | nil => simp [partsOf] at h
      | cons first rest =>
          rw [partsOf, List.mem_cons] at h
          rcases h with rfl | h
          · exact fun x hx => List.mem_of_mem_take hx
          · exact fun x hx => List.mem_of_mem_drop (ih h x hx)
          · simp

theorem batches_only {size : Nat} {filler? : Option Datum} (h : ∀ d ∈ items, d.Only p)
    (hfiller : ∀ d ∈ filler?, d.Only p) : ∀ d ∈ batches size filler? items, d.Only p := by
  unfold batches
  simp only [List.forall_mem_map]
  intro part hpart
  have hall : ∀ x ∈ part, x.Only p := fun x hx => h x (mem_partsOf hpart x hx)
  split
  · rename_i filler
    simp only [Datum.only_list, List.forall_mem_append, List.mem_replicate]
    exact ⟨hall, fun x hx => hx.2 ▸ hfiller filler rfl⟩
  · exact Datum.only_list.mpr hall

theorem columns_only {count : Nat} {filler? : Option Datum} (h : ∀ d ∈ items, d.Only p)
    (hfiller : ∀ d ∈ filler?, d.Only p) : ∀ d ∈ columns count filler? items, d.Only p := by
  unfold columns
  simp only [List.forall_mem_map]
  intro i _
  have hall : ∀ size, ∀ x ∈ (items.drop (i * (items.length / count) + min i (items.length % count))).take
      size, x.Only p := fun size x hx => h x (List.mem_of_mem_drop (List.mem_of_mem_take hx))
  split
  · rename_i filler
    rw [Datum.only_list]
    split
    · simp only [List.forall_mem_append, List.mem_singleton]
      exact ⟨hall _, fun x hx => hx ▸ hfiller filler rfl⟩
    · exact hall _
  · exact Datum.only_list.mpr (hall _)

theorem total_only (h : ∀ d ∈ items, d.Only p) : Yields (·.Only p) (total items) := by
  refine Yields.foldlM (by simp) fun acc hacc d hd => ?_
  split
  · exact hacc
  · exact Datum.add_only hacc (h _ hd)

theorem mem_distinctOn {key : Datum → Datum} {seen : List Datum} (h : d ∈ distinctOn key seen items) :
    d ∈ items := by
  induction items generalizing seen with
  | nil => simp [distinctOn] at h
  | cons x rest ih =>
      rw [distinctOn] at h
      split at h
      · exact List.mem_cons_of_mem _ (ih h)
      · rcases List.mem_cons.mp h with rfl | h
        · exact List.mem_cons_self
        · exact List.mem_cons_of_mem _ (ih h)

theorem groupsFrom_only {same : Datum → Datum → Bool} {key : Datum → Datum}
    (hkey : ∀ d, d.Only p → (key d).Only p) {members : List Datum}
    (hmembers : ∀ d ∈ members, d.Only p) (h : ∀ d ∈ items, d.Only p) :
    ∀ d ∈ groupsFrom same key members items, d.Only p := by
  have hgroup : ∀ last members, (∀ d ∈ last :: members, d.Only p) →
      (Datum.group (key last) (last :: members).reverse).Only p := fun last members hall =>
    Datum.only_group.mpr ⟨hkey last (hall last List.mem_cons_self), fun d hd =>
      hall d (List.mem_reverse.mp hd)⟩
  induction items generalizing members with
  | nil =>
      cases members with
      | nil => simp [groupsFrom]
      | cons last members => simpa [groupsFrom] using hgroup last members hmembers
  | cons x rest ih =>
      have hx := h x List.mem_cons_self
      have hrest : ∀ d ∈ rest, d.Only p := fun d hd => h d (List.mem_cons_of_mem _ hd)
      cases members with
      | nil =>
          rw [groupsFrom]
          exact ih (by simpa using hx) hrest
      | cons last members =>
          rw [groupsFrom]
          split
          · exact ih (by simpa [hx] using hmembers) hrest
          · rw [List.forall_mem_cons]
            exact ⟨hgroup last members hmembers, ih (by simpa using hx) hrest⟩

/-- What is taken from items one by one is as it should be if each of them is. -/
theorem forall_of_mapM {f : α → Option β} {good : β → Prop} {row : List α} {all : List β}
    (h : ∀ a ∈ row, ∀ b, f a = some b → good b) (hall : row.mapM f = some all) : ∀ b ∈ all, good b := by
  induction row generalizing all with
  | nil =>
      obtain rfl : [] = all := Option.some.inj hall
      simp
  | cons a rest ih =>
      rw [List.mapM_cons] at hall
      obtain ⟨b, hb, hall⟩ := Option.bind_eq_some_iff.mp hall
      obtain ⟨others, hothers, hall⟩ := Option.bind_eq_some_iff.mp hall
      obtain rfl := Option.some.inj hall
      rw [List.forall_mem_cons]
      exact ⟨h a List.mem_cons_self b hb, ih (fun a ha => h a (List.mem_cons_of_mem _ ha)) hothers⟩

theorem sideBySide_only {fuel : Nat} {rows : List (List Datum)}
    (h : ∀ row ∈ rows, ∀ d ∈ row, d.Only p) : ∀ d ∈ sideBySide fuel rows, d.Only p := by
  induction fuel generalizing rows with
  | zero => simp [sideBySide]
  | succ fuel ih =>
      rw [sideBySide]
      split
      · rename_i heads hheads
        rw [List.forall_mem_cons]
        refine ⟨Datum.only_list.mpr ?_, ih ?_⟩
        · exact forall_of_mapM (fun row hrow d hd => h row hrow d (List.mem_of_head? hd)) hheads
        · simp only [List.forall_mem_map]
          exact fun row hrow d hd => h row hrow d (List.mem_of_mem_drop hd)
      · simp

theorem entriesOf?_only {entries : List (Datum × Datum)} (h : d.Only p)
    (hentries : entriesOf? d = some entries) : ∀ entry ∈ entries, entry.1.Only p ∧ entry.2.Only p := by
  cases d with
  | map all =>
      obtain rfl := Option.some.inj hentries
      exact Datum.only_map.mp h
  | named all =>
      obtain rfl := Option.some.inj hentries
      simp only [List.forall_mem_map]
      exact fun entry hentry => ⟨Datum.only_ofString _, Datum.only_named.mp h entry hentry⟩
  | _ => exact absurd hentries (by simp [entriesOf?])

theorem chained_only (h : ∀ d ∈ items, d.Only p) : (chained items).Only p := by
  unfold chained
  split
  · rename_i entries hentries
    refine Datum.ofPairs_only fun entry hentry => ?_
    obtain ⟨part, hpart, hentry⟩ := List.mem_flatten.mp hentry
    have hparts : ∀ d ∈ items, ∀ part, entriesOf? d = some part →
        ∀ entry ∈ part, Datum.Only p entry.1 ∧ Datum.Only p entry.2 :=
      fun d hd part hpart => entriesOf?_only (h d hd) hpart
    exact forall_of_mapM hparts hentries part hpart entry hentry
  · have hall : ∀ x ∈ (items.map fun part => (part.items?).getD []).flatten, Datum.Only p x := by
      intro x hx
      obtain ⟨row, hrow, hx⟩ := List.mem_flatten.mp hx
      obtain ⟨part, hpart, rfl⟩ := List.mem_map.mp hrow
      cases hitems : part.items? with
      | none => simp [hitems] at hx
      | some row => exact Datum.items?_only (h part hpart) hitems x (by simpa [hitems] using hx)
    simp only
    split
    · exact Datum.only_list.mpr hall
    · exact Datum.only_stream.mpr hall

theorem sortedEntries_only {byValue caseCounts backward : Bool} {entries : List (Datum × Datum)}
    (h : ∀ entry ∈ entries, entry.1.Only p ∧ entry.2.Only p) :
    ∀ d ∈ sortedEntries byValue caseCounts backward entries, d.Only p := by
  unfold sortedEntries
  simp only [List.forall_mem_map]
  intro entry hentry
  have hmem : entry ∈ entries := by
    split at hentry
    · exact List.mem_mergeSort.mp (List.mem_reverse.mp hentry)
    · exact List.mem_mergeSort.mp hentry
  simpa using h entry hmem

theorem row?_keeps {name : String} {filter : List Datum → Except Cause Datum}
    (h : row? name = some filter) : Keeps p filter := by
  have hrow : ∀ {d : Datum} (tried : String), d.Only p →
      Gives p (fun items => ∀ x ∈ items, Datum.Only p x) (ofExcept (rowOf tried d)) :=
    fun tried hd => .lift (rowOf_only tried hd)
  unfold row? at h
  split at h
  -- `length`, `count`
  · obtain rfl := Option.some.inj h
    refine keeps_of_always (.bind fun d => ?_)
    split
    · exact .pure (by simp)
    · exact .throw
  · obtain rfl := Option.some.inj h
    refine keeps_of_always (.bind fun d => ?_)
    split
    · exact .pure (by simp)
    · exact .throw
  -- `items`
  · obtain rfl := Option.some.inj h
    refine fun args hargs => Gives.run (.bind Gives.datum fun d hd => ?_) hargs
    split
    · rename_i entries hentries
      refine .pure (Datum.only_stream.mpr ?_)
      simp only [List.forall_mem_map]
      exact fun entry hentry => by simpa using entriesOf?_only hd hentries entry hentry
    · exact .throw
  -- `dictsort`
  · obtain rfl := Option.some.inj h
    refine fun args hargs => Gives.runNamed (.bind Gives.datum fun d hd => ?_) hargs
    refine .bind (Gives.namedOptional Gives.plain) fun _ _ => .bind (Gives.namedOptional Gives.plain) fun _ _ => ?_
    refine .bind (Gives.namedOptional Gives.plain) fun _ _ => ?_
    split
    · rename_i entries hentries
      have hpure : ∀ byValue caseCounts backward, Gives p (·.Only p)
          (pure (.list (sortedEntries byValue caseCounts backward entries)) : Reading Datum) :=
        fun _ _ _ => .pure (Datum.only_list.mpr (sortedEntries_only (entriesOf?_only hd hentries)))
      simp only
      split
      · exact .bind (.pure trivial) fun _ (_ : True) => hpure _ _ _
      · exact .bind (.pure trivial) fun _ (_ : True) => hpure _ _ _
      · exact .bind (.pure trivial) fun _ (_ : True) => hpure _ _ _
      · exact .bind .throw fun _ (_ : True) => hpure _ _ _
    · exact .throw
  -- `reverse`
  · obtain rfl := Option.some.inj h
    exact fun args hargs => Gives.run (.bind Gives.datum fun d hd => .lift (backwards_only hd)) hargs
  -- `join`
  · obtain rfl := Option.some.inj h
    refine keeps_of_always (.bind fun d => .bind fun _ => ?_)
    split
    · exact .pure (by simp)
    · exact .throw
  -- `first`
  · obtain rfl := Option.some.inj h
    refine fun args hargs => Gives.run (.bind Gives.datum fun d hd => ?_) hargs
    split
    · exact .throw
    · exact .throw
    · refine .bind (hrow _ hd) fun items hitems => .pure ?_
      exact getD_only fun found hfound => hitems found (List.mem_of_head? hfound)
  -- `last`
  · obtain rfl := Option.some.inj h
    refine fun args hargs => Gives.run (.bind Gives.datum fun d hd => ?_) hargs
    split
    · refine .pure (getD_only fun found hfound => ?_)
      obtain ⟨items, hitems, hlast⟩ := Option.bind_eq_some_iff.mp hfound
      exact Datum.items?_only hd hitems found (List.mem_of_getLast? hlast)
    · exact .throw
  -- `min`, `max`
  · obtain rfl := Option.some.inj h
    exact fun args hargs => Gives.run (.bind Gives.datum fun d hd => .map (hrow _ hd) fun _ => least_only) hargs
  · obtain rfl := Option.some.inj h
    exact fun args hargs =>
      Gives.run (.bind Gives.datum fun d hd => .map (hrow _ hd) fun _ => greatest_only) hargs
  -- `sort`
  · obtain rfl := Option.some.inj h
    refine fun args hargs => Gives.runNamed (.bind Gives.datum fun d hd => ?_) hargs
    refine .bind (hrow _ hd) fun items hitems => .bind (Gives.namedOptional Gives.plain) fun _ _ => ?_
    refine .bind (Gives.namedOptional Gives.plain) fun way? _ => .bind (Gives.namedOptional Gives.plain) fun _ _ => ?_
    refine .pure (Datum.only_list.mpr fun x hx => hitems x ?_)
    split at hx
    · split at hx
      · exact mem_sortOn (List.mem_reverse.mp hx)
      · exact mem_sortOn (List.mem_reverse.mp hx)
    · split at hx
      · exact mem_sortOn hx
      · exact mem_sortOn hx
  -- `list`
  · obtain rfl := Option.some.inj h
    exact fun args hargs =>
      Gives.run (.bind Gives.datum fun d hd => .map (hrow _ hd) fun _ => Datum.only_list.mpr) hargs
  -- `batch`, `slice`
  · obtain rfl := Option.some.inj h
    refine fun args hargs => Gives.run (.bind Gives.datum fun d hd => ?_) hargs
    refine .bind (Gives.required Gives.plain) fun _ _ => .bind (Gives.optional Gives.asAny) fun filler? hfiller => ?_
    split
    · exact .bind .throw fun _ (_ : True) => .bind (hrow _ hd) fun items hitems =>
        .pure (Datum.only_list.mpr (batches_only hitems hfiller))
    · exact .bind (hrow _ hd) fun items hitems =>
        .pure (Datum.only_list.mpr (batches_only hitems hfiller))
  · obtain rfl := Option.some.inj h
    refine fun args hargs => Gives.run (.bind Gives.datum fun d hd => ?_) hargs
    refine .bind (Gives.required Gives.plain) fun _ _ => .bind (Gives.optional Gives.asAny) fun filler? hfiller => ?_
    split
    · exact .bind .throw fun _ (_ : True) => .bind (hrow _ hd) fun items hitems =>
        .pure (Datum.only_list.mpr (columns_only hitems hfiller))
    · exact .bind (hrow _ hd) fun items hitems =>
        .pure (Datum.only_list.mpr (columns_only hitems hfiller))
  -- `sum`
  · obtain rfl := Option.some.inj h
    exact fun args hargs => Gives.run (.bind Gives.datum fun d hd => .bind (hrow _ hd) fun items hitems =>
      .lift (total_only hitems)) hargs
  -- `unique`
  · obtain rfl := Option.some.inj h
    refine fun args hargs => Gives.runNamed (.bind Gives.datum fun d hd => ?_) hargs
    refine .bind (Gives.namedOptional Gives.plain) fun _ _ => .bind (Gives.namedOptional Gives.plain) fun _ _ => ?_
    refine .bind (hrow _ hd) fun items hitems => ?_
    exact .pure (Datum.only_list.mpr fun x hx => hitems x (mem_distinctOn hx))
  -- `groupby`
  · obtain rfl := Option.some.inj h
    refine fun args hargs => Gives.runNamed (.bind Gives.datum fun d hd => ?_) hargs
    refine .bind (Gives.optional Gives.plain) fun way? _ => .bind (Gives.namedOptional Gives.asAny) fun default? hdefault => ?_
    refine .bind (Gives.namedOptional Gives.plain) fun _ _ => ?_
    have hdefault' : (default?.getD .undefined).Only p := getD_only hdefault
    have hgroups : ∀ way caseCounts, Gives p (·.Only p) (do
        let items ← ofExcept (rowOf (d.kind.name ++ " is not iterable") d)
        pure (.list (groupsFrom (fun a b => order caseCounts a b == .eq)
          (followOr way (default?.getD .undefined)) []
          (sortOn (followOr way (default?.getD .undefined)) caseCounts items))) : Reading Datum) :=
      fun way caseCounts => .bind (hrow _ hd) fun items hitems => .pure (Datum.only_list.mpr
        (groupsFrom_only (fun x hx => followOr_only way hdefault' hx) (by simp)
          fun x hx => hitems x (mem_sortOn hx)))
    simp only
    split
    · exact .bind (.pure trivial) fun way (_ : True) => hgroups way _
    · refine .bind (Gives.namedOptional Gives.plain) fun _ _ => ?_
      split
      · exact .bind (.pure trivial) fun way (_ : True) => hgroups way _
      · exact .bind .throw fun way (_ : True) => hgroups way _
  -- `chain`
  · obtain rfl := Option.some.inj h
    refine fun args hargs => Gives.run (.bind Gives.datum fun d hd => .bind Gives.remaining fun others hothers => ?_) hargs
    exact .pure (chained_only (List.forall_mem_cons.mpr ⟨hd, hothers⟩))
  -- `zip`
  · obtain rfl := Option.some.inj h
    refine fun args hargs => Gives.run (.bind Gives.datum fun d hd => .bind Gives.remaining fun others hothers => ?_) hargs
    refine .bind (.lift (Yields.mapM fun part hpart => rowOf_only _
      (List.forall_mem_cons.mpr ⟨hd, hothers⟩ part hpart))) fun rows hrows => ?_
    exact .pure (Datum.only_stream.mpr (sideBySide_only hrows))
  · exact absurd h (by simp)

/-! ## All filters -/

theorem orDefault_only {other? : Option Datum} (lax : Bool) (h : d.Only p)
    (hother : ∀ other ∈ other?, Datum.Only p other) : (orDefault d other? lax).Only p := by
  have hdefault : (other?.getD (.ofString "")).Only p := by
    cases other? with
    | none => simp
    | some other => exact hother other rfl
  unfold orDefault
  simp only
  split
  · exact hdefault
  · split
    · exact hdefault
    · exact h

theorem default_keeps : Keeps p simple?.default := fun _ hargs =>
  Gives.run (.bind Gives.datum fun _ hd => .bind (Gives.optional Gives.asAny) fun _ hother =>
    .bind (Gives.optional Gives.plain) fun _ _ => .pure (orDefault_only _ hd hother)) hargs

theorem escape_keeps {mode : Escaping} : Keeps p (simple?.escape mode) := by
  refine fun args _ => Always.run (.bind fun d => ?_) args
  split
  · exact .pure (by simp)
  · exact .bind fun _ => .pure (by simp)

theorem pageJson_only {layout : Datum.JsonLayout} : Yields (·.Only p) (pageJson layout d) := by
  unfold pageJson
  split
  · trivial
  · exact Yields.ok.mpr (Datum.only_text _ _)

theorem simple?_keeps {mode : Escaping} {name : String} {filter : List Datum → Except Cause Datum}
    (h : simple? mode name = some filter) : Keeps p filter := by
  unfold simple? at h
  split at h
  · exact Option.some.inj h ▸ default_keeps
  · exact Option.some.inj h ▸ default_keeps
  -- `attr`
  · obtain rfl := Option.some.inj h
    exact fun args hargs => Gives.run (.bind Gives.datum fun d hd => .bind Gives.datum fun key _ =>
      .lift (itemOf_only key hd)) hargs
  · exact Option.some.inj h ▸ escape_keeps
  · exact Option.some.inj h ▸ escape_keeps
  -- `pprint`
  · obtain rfl := Option.some.inj h
    exact keeps_of_always (.bind fun _ => .pure (by simp))
  -- `tojson`
  · obtain rfl := Option.some.inj h
    refine fun args _ => Always.runNamed (.bind fun _ => .bind fun _ => .bind fun _ => ?_) args
    exact .lift pageJson_only
  · exact Option.some.inj h ▸ format_keeps
  · rcases Option.or_eq_some_iff.mp h with htext | ⟨_, hrest⟩
    · exact text?_keeps htext
    · rcases Option.or_eq_some_iff.mp hrest with hrow | ⟨_, hnumber⟩
      · exact row?_keeps hrow
      · exact number?_keeps hnumber

/-- Items of a row that are kept are items of the row. -/
theorem selected_only {keep : Bool} {way? name? : Option String} {args : List Datum} (h : d.Only p) :
    Yields (·.Only p) (selected keep way? name? args d) := by
  have hpicked : ∀ (step : Datum → Except Cause Bool) (items : List Datum), (∀ x ∈ items, x.Only p) →
      Yields (fun kept => ∀ x ∈ kept, Datum.Only p x) (items.filterMapM fun x => do
        let passed ← step x
        pure (if passed = keep then some x else none)) := by
    intro step items
    induction items with
    | nil => simp [List.filterMapM_nil]
    | cons x rest ih =>
        intro hall
        have hrest := ih fun y hy => hall y (List.mem_cons_of_mem _ hy)
        rw [List.filterMapM_cons, bind_assoc]
        refine .bind (Yields.of_forall fun _ => trivial) fun passed (_ : True) => ?_
        rw [pure_bind]
        split
        · exact hrest
        · rename_i y hy
          refine hrest.bind fun kept hkept => ?_
          split at hy
          · obtain rfl := Option.some.inj hy
            exact List.forall_mem_cons.mpr ⟨hall _ List.mem_cons_self, hkept⟩
          · exact absurd hy (by simp)
  refine .bind (Yields.of_forall fun _ => trivial) fun check? (_ : True) => ?_
  refine (rowOf_only _ h).bind fun items hitems => ?_
  exact (hpicked (passes way? check? args) items hitems).bind fun kept hkept =>
    Datum.only_list.mpr hkept

theorem select_keeps {keep byAttribute : Bool} : Keeps p (select keep byAttribute) := by
  refine fun args hargs => Gives.run (.bind Gives.datum fun d hd => ?_) hargs
  have hrest : ∀ way? : Option String, Gives p (·.Only p) (do
      let name? ← optional asShown
      let others ← remaining
      ofExcept (selected keep way? name? others d)) := fun way? =>
    .bind (Gives.optional Gives.plain) fun name? _ => .bind Gives.remaining fun others _ => .lift (selected_only hd)
  simp only
  split
  · exact .bind (.map (Gives.required Gives.plain) fun _ _ => trivial) fun way? (_ : True) => hrest way?
  · exact .bind (.pure trivial) fun way? (_ : True) => hrest way?

theorem attributeOr_only {key default : Datum} (hdefault : default.Only p) (h : d.Only p) :
    Yields (·.Only p) (attributeOr key default d) := by
  unfold attributeOr
  extract_lets found
  have hfound : Yields (·.Only p) found := by
    unfold found
    split
    · exact follow_only _ h
    · exact itemOf_only _ h
  clear_value found
  split
  · exact hdefault
  · exact hfound
  · split
    · trivial
    · exact hdefault

/-- What the items of a row are mapped to, the row and the other arguments once read. -/
def mappedRow (find? : String → Option (List Datum → Except Cause Datum)) (items positional : List Datum)
    (named : Entries Datum) : Except Cause Datum :=
  match Entries.get? "attribute" named with
  | some key =>
    if positional.isEmpty then
      let default := (Entries.get? "default" named).getD .undefined
      (items.mapM (attributeOr key default)).map Datum.list
    else .error .tooManyArguments
  | none =>
    match positional with
    | [] => .error (.invalid "filter name is required")
    | .text name _ :: more =>
      match find? name with
      | some filter => (items.mapM fun x => filter (x :: more)).map Datum.list
      | none => .error (.unknownFilter name)
    | _ => .error (.invalid "filter name must be a string")

theorem mappedRow_only {find? : String → Option (List Datum → Except Cause Datum)}
    {items positional : List Datum} {named : Entries Datum}
    (h : ∀ name filter, find? name = some filter → Keeps p filter) (hitems : ∀ x ∈ items, Datum.Only p x)
    (hpositional : ∀ x ∈ positional, Datum.Only p x) (hnamed : ∀ entry ∈ named, Datum.Only p entry.2) :
    Yields (Datum.Only p) (mappedRow find? items positional named) := by
  unfold mappedRow
  split
  · split
    · refine Yields.map (Yields.mapM fun x hx => attributeOr_only ?_ (hitems x hx))
        fun _ => Datum.only_list.mpr
      exact getD_only fun default hdefault => Datum.get?_only hnamed hdefault
    · trivial
  · split
    · trivial
    · split
      · rename_i filter hfilter
        refine Yields.map (Yields.mapM fun x hx => h _ filter hfilter _ ?_)
          fun _ => Datum.only_list.mpr
        exact List.forall_mem_cons.mpr ⟨hitems x hx, fun y hy =>
          hpositional y (List.mem_cons_of_mem _ hy)⟩
      · trivial
    · trivial

theorem mapped_keeps {find? : String → Option (List Datum → Except Cause Datum)}
    (h : ∀ name filter, find? name = some filter → Keeps p filter) : Keeps p (mapped find?) := by
  intro args hargs
  cases args with
  | nil => trivial
  | cons d rest =>
      have hd := hargs d List.mem_cons_self
      have hrest : ∀ x ∈ rest, x.Only p := fun x hx => hargs x (List.mem_cons_of_mem _ hx)
      unfold mapped
      refine (rowOf_only _ hd).bind fun items hitems => ?_
      refine mappedRow_only h hitems ?_ ?_
      · split
        · exact fun x hx => hrest x (List.dropLast_subset _ hx)
        · exact hrest
      · split
        · rename_i entries hlast
          exact Datum.only_named.mp (hrest _ (List.mem_of_getLast? hlast))
        · simp

theorem find?_keeps {mode : Escaping} {more : Nat} {name : String}
    {filter : List Datum → Except Cause Datum} (h : find? mode more name = some filter) :
    Keeps p filter := by
  induction more generalizing name filter with
  | zero => exact simple?_keeps h
  | succ more ih =>
      unfold find? at h
      split at h
      · exact Option.some.inj h ▸ select_keeps
      · exact Option.some.inj h ▸ select_keeps
      · exact Option.some.inj h ▸ select_keeps
      · exact Option.some.inj h ▸ select_keeps
      · exact Option.some.inj h ▸ mapped_keeps fun name filter hfilter => ih hfilter
      · exact simple?_keeps h

/-- **A filter gives no functions** but such as were in its arguments. -/
theorem apply_only {mode : Escaping} {name : String} {args : List Datum}
    (hargs : ∀ d ∈ args, d.Only p) : Yields (·.Only p) (apply mode name args) := by
  unfold apply
  split
  · rename_i filter hfilter
    exact find?_keeps hfilter args hargs
  · trivial

end Filter

end Stencil.Template
