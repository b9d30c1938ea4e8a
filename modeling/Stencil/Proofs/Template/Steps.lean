import Stencil.Proofs.Template.Alike

/-!
# Steps that go alike

The steps that need no deeper evaluation, one theorem for each: in two evaluations at the same point they
have the same result and lead to the same point again. A result keeps to the names as what went into it
did, so what is known of the data, the targets and the bodies of templates can be handed on.

Only a lookup can tell two evaluations apart (`lookup?_alike`), and only by the name of the writer.
-/

namespace Stencil.Template

variable {named : String → Prop} {α β : Type}

/-! ## Maps by names -/

namespace Datum

theorem rank_eq_of_compare {a b : Datum} (h : compare a b = .eq) : a.kind.rank = b.kind.rank := by
  unfold compare at h
  split at h
  · cases h
  · cases h
  · exact Nat.compare_eq_eq.mp ‹_›

theorem exists_text_of_rank {d : Datum} (h : d.kind.rank = 4) : ∃ s safe, d = .text s safe := by
  cases d with
  | text s safe => exact ⟨s, safe, rfl⟩
  | _ => exact absurd h (by simp [kind, Kind.rank])

theorem compare_texts {s t : String} {safe safe' : Bool} :
    compare (.text s safe) (.text t safe') = .eq ↔ s = t := by
  have h : compare (.text s safe) (.text t safe') = comparePair (.texts s t) := by
    simp only [compare, kind, Nat.compare_eq_eq.mpr, pair?]
  rw [h, comparePair]
  by_cases hlt : s < t
  · have hne : s ≠ t := fun heq => String.lt_irrefl t (heq ▸ hlt)
    simp [hlt, hne]
  · by_cases heq : s = t <;> simp [hlt, heq]

/-- A text comes out even only with the same text, whichever is compared with the other. -/
theorem compare_text_left {s : String} {safe : Bool} {d : Datum} :
    compare (.text s safe) d = .eq ↔ ∃ safe', d = .text s safe' := by
  constructor
  · intro h
    obtain ⟨t, safe', rfl⟩ := exists_text_of_rank (rank_eq_of_compare h).symm
    exact ⟨safe', congrArg (Datum.text · safe') (compare_texts.mp h).symm⟩
  · rintro ⟨safe', rfl⟩
    exact compare_texts.mpr rfl

theorem compare_text_right {s : String} {safe : Bool} {d : Datum} :
    compare d (.text s safe) = .eq ↔ ∃ safe', d = .text s safe' := by
  constructor
  · intro h
    obtain ⟨t, safe', rfl⟩ := exists_text_of_rank (rank_eq_of_compare h)
    exact ⟨safe', congrArg (Datum.text · safe') (compare_texts.mp h)⟩
  · rintro ⟨safe', rfl⟩
    exact compare_texts.mpr rfl

variable {entries : List (Datum × Datum)} {value : Datum}

theorem valueOf?_cons {key : Datum} (entry : Datum × Datum) :
    valueOf? key (entry :: entries) =
      if compare entry.1 key = .eq then some entry.2 else valueOf? key entries := by
  unfold valueOf?
  rw [List.find?_cons]
  by_cases h : compare entry.1 key = .eq
  · simp [h]
  · rw [if_neg h, beq_eq_false_iff_ne.mpr h]

theorem valueOf?_insertEntry_self (name : String) :
    valueOf? (ofString name) (insertEntry (ofString name) value entries) = some value := by
  induction entries with
  | nil => simp [insertEntry, valueOf?_cons, ofString, compare_texts]
  | cons entry rest ih =>
      obtain ⟨other, old⟩ := entry
      unfold insertEntry
      split
      · simp [valueOf?_cons, ofString, compare_texts]
      · rename_i h
        obtain ⟨safe, rfl⟩ := compare_text_left.mp h
        simp [valueOf?_cons, ofString, compare_texts]
      · rename_i h
        have hother : compare other (ofString name) ≠ .eq := fun heq => by
          have heq' : compare (ofString name) other = .eq :=
            compare_text_left.mpr (compare_text_right.mp heq)
          cases heq'.symm.trans h
        rw [valueOf?_cons, if_neg hother, ih]

theorem valueOf?_insertEntry_of_ne {name other : String} (h : other ≠ name) :
    valueOf? (ofString other) (insertEntry (ofString name) value entries) =
      valueOf? (ofString other) entries := by
  have hskip : ∀ safe d all, valueOf? (ofString other) ((.text name safe, d) :: all) =
      valueOf? (ofString other) all := fun safe d all =>
    (valueOf?_cons _).trans (if_neg fun heq => h (compare_texts.mp heq).symm)
  induction entries with
  | nil => exact hskip false value []
  | cons entry rest ih =>
      obtain ⟨key, old⟩ := entry
      unfold insertEntry
      split
      · exact hskip false value _
      · rename_i heq
        obtain ⟨safe, rfl⟩ := compare_text_left.mp heq
        rw [hskip, hskip]
      · rw [valueOf?_cons, valueOf?_cons, ih]

theorem attribute?_ofPairs_append (entries : List (Datum × Datum)) (name other : String) (value : Datum) :
    (ofPairs (entries ++ [(ofString name, value)])).attribute? other =
      if other = name then some value else (ofPairs entries).attribute? other := by
  have happend : ofPairs (entries ++ [(ofString name, value)]) = .map (insertEntry (ofString name) value
      (entries.foldl (fun acc entry => insertEntry entry.1 entry.2 acc) [])) := by
    rw [ofPairs, List.foldl_append]
    rfl
  rw [happend]
  split
  · rename_i h
    rw [h]
    exact valueOf?_insertEntry_self name
  · rename_i h
    exact valueOf?_insertEntry_of_ne h

end Datum

/-! ## Data and the store -/

theorem forall_put {good : α → Prop} {entries : Entries α} {name : String} {a : α}
    (h : ∀ entry ∈ entries, good entry.2) (ha : good a) :
    ∀ entry ∈ Entries.put name a entries, good entry.2 := by
  induction entries with
  | nil => simpa [Entries.put] using ha
  | cons entry rest ih =>
      obtain ⟨key, old⟩ := entry
      obtain ⟨hold, hrest⟩ := List.forall_mem_cons.mp h
      unfold Entries.put
      split
      · exact List.forall_mem_cons.mpr ⟨ha, hrest⟩
      · exact List.forall_mem_cons.mpr ⟨hold, ih hrest⟩

theorem forall_get? {good : α → Prop} {entries : Entries α} {name : String} {a : α}
    (h : ∀ entry ∈ entries, good entry.2) (ha : Entries.get? name entries = some a) : good a :=
  h _ (Entries.mem_of_get? ha)

theorem EntriesKeep.get? {entries : Entries Datum} (h : EntriesKeep named entries) {name : String}
    {d : Datum} (hd : Entries.get? name entries = some d) : d.Keeps named :=
  Datum.get?_only h hd

theorem EntriesKeep.put {entries : Entries Datum} (h : EntriesKeep named entries) {name : String}
    {d : Datum} (hd : d.Keeps named) : EntriesKeep named (Entries.put name d entries) :=
  forall_put h hd

theorem EntriesKeep.insert {entries : Entries Datum} (h : EntriesKeep named entries) {name : String}
    {d : Datum} (hd : d.Keeps named) : EntriesKeep named (Entries.insert name d entries) := by
  induction entries with
  | nil => simpa [EntriesKeep, Entries.insert] using hd
  | cons entry rest ih =>
      obtain ⟨key, old⟩ := entry
      obtain ⟨hold, hrest⟩ := List.forall_mem_cons.mp h
      unfold Entries.insert
      split
      · exact List.forall_mem_cons.mpr ⟨hd, h⟩
      · split
        · exact List.forall_mem_cons.mpr ⟨hd, hrest⟩
        · exact List.forall_mem_cons.mpr ⟨hold, ih hrest⟩

theorem EntriesKeep.insertAll {entries more : Entries Datum} (h : EntriesKeep named entries)
    (hmore : EntriesKeep named more) :
    EntriesKeep named (more.foldl (fun acc entry => Entries.insert entry.1 entry.2 acc) entries) :=
  List.foldlRecOn more _ (motive := EntriesKeep named) h
    fun _ hacc entry hentry => hacc.insert (hmore entry hentry)

/-- A place of an array, changed, is as it should be if its contents were. -/
theorem forall_mem_modify {good : α → Prop} {all : Array α} {place : Nat} {f : α → α}
    (h : ∀ a ∈ all, good a) (hf : ∀ a, good a → good (f a)) : ∀ a ∈ all.modify place f, good a := by
  intro a ha
  obtain ⟨i, hi, rfl⟩ := Array.mem_iff_getElem.mp ha
  rw [Array.getElem_modify]
  have hi' : i < all.size := by simpa using hi
  split
  · exact hf _ (h _ (Array.getElem_mem hi'))
  · exact h _ (Array.getElem_mem hi')

theorem forall_mem_push {good : α → Prop} {all : Array α} {a : α} (h : ∀ a ∈ all, good a)
    (ha : good a) : ∀ b ∈ all.push a, good b := by
  intro b hb
  rcases Array.mem_push.mp hb with hb | rfl
  · exact h b hb
  · exact ha

theorem forall_getD {good : α → Prop} {all : Array α} {place : Nat} {d : α}
    (h : ∀ a ∈ all, good a) (hd : good d) : good (all[place]?.getD d) := by
  cases hplace : all[place]? with
  | none => exact hd
  | some a => exact h a (Array.mem_of_getElem? hplace)

theorem LoopState.Keeps.default : (Inhabited.default : LoopState).Keeps named where
  items := List.forall_mem_nil _
  last := fun _ hlast => by cases hlast

theorem MacroBody.Keeps.default : (Inhabited.default : MacroBody).Keeps named where
  defaults := List.forall_mem_nil _
  body := List.forall_mem_nil _

namespace Store.Keeps

variable {store : Store}

theorem loop (h : store.Keeps named) (place : Nat) :
    (store.loops[place]?.getD Inhabited.default).Keeps named :=
  forall_getD h.loops .default

theorem space (h : store.Keeps named) (place : Nat) :
    EntriesKeep named (store.spaces[place]?.getD []) :=
  forall_getD h.spaces (by simp [EntriesKeep])

theorem capture (h : store.Keeps named) (place : Nat) :
    EntriesKeep named (store.captures[place]?.getD []) :=
  forall_getD h.captures (by simp [EntriesKeep])

theorem macroBody (h : store.Keeps named) (place : Nat) :
    (store.macros[place]?.getD Inhabited.default).Keeps named :=
  forall_getD h.macros .default

end Store.Keeps

/-- A frame that is the same in both evaluations. -/
theorem Frame.Alike.same {frame : Frame} (hlocals : EntriesKeep named frame.locals)
    (hloop : ∀ loop ∈ frame.loop?, ∀ again ∈ loop.again?, again.Keeps named)
    (hbackdrop : frame.backdrop.Alike named frame.backdrop) : Frame.Alike named frame frame :=
  .intro hlocals hloop hbackdrop

theorem Frame.Alike.empty : Frame.Alike named {} {} :=
  .same (List.forall_mem_nil _) (fun _ h => by cases h) .nothing

theorem Frame.Alike.ofLoop {loop : FrameLoop} (h : ∀ again ∈ loop.again?, again.Keeps named) :
    Frame.Alike named { loop? := some loop } { loop? := some loop } :=
  .same (List.forall_mem_nil _) (fun _ hloop => Option.some.inj hloop ▸ h) .nothing

theorem Seen.of_get? {entries : Entries Datum} (h : EntriesKeep named entries) (name : String) :
    Seen named name (Entries.get? name entries) (Entries.get? name entries) :=
  .same fun _ hd => h.get? hd

namespace Run

theorem mapOf_keeps {entries : Entries Datum} (h : EntriesKeep named entries) :
    (mapOf entries).Keeps named := by
  refine Datum.ofPairs_only fun entry hentry => ?_
  obtain ⟨entry, hmem, rfl⟩ := List.mem_map.mp hentry
  exact ⟨Datum.only_ofString _, h entry hmem⟩

theorem getD_keeps {d? : Option Datum} (h : ∀ d ∈ d?, d.Keeps named) :
    (d?.getD .undefined).Keeps named := by
  cases d? with
  | none => exact Datum.only_undefined
  | some d => exact h d rfl

theorem numberOr_keeps (n? : Option Nat) : (numberOr n?).Keeps named := by
  cases n? <;> simp [numberOr]

theorem loopAttributes_keeps {loop : LoopState} (h : loop.Keeps named) :
    EntriesKeep named (loopAttributes loop) := by
  have hitem : ∀ i, (loop.items[i]?.getD Datum.undefined).Keeps named := fun i =>
    getD_keeps fun d hd => h.items d (List.mem_of_getElem? hd)
  have hbefore : Datum.Keeps named
      ((if loop.index = 0 then none else loop.items[loop.index - 1]?).getD Datum.undefined) := by
    split
    · exact Datum.only_undefined
    · exact hitem _
  simp only [EntriesKeep, loopAttributes, List.forall_mem_cons]
  simp [numberOr_keeps, hitem, hbefore]

theorem settle_keeps {store : Store} (h : store.Keeps named) (fuel : Nat) {d : Datum}
    (hd : d.Keeps named) : (settle store fuel d).Keeps named := by
  induction fuel generalizing d with
  | zero => simp [settle]
  | succ fuel ih =>
      cases d with
      | loop place => simp [settle]
      | space place =>
          refine mapOf_keeps fun entry hentry => ?_
          obtain ⟨entry, hmem, rfl⟩ := List.mem_map.mp hentry
          exact ih (h.space place entry hmem)
      | list items | stream items =>
          simp only [settle, Datum.only_list, Datum.only_stream, List.forall_mem_map] at hd ⊢
          exact fun d hmem => ih (hd d hmem)
      | map entries =>
          simp only [settle, Datum.only_map, List.forall_mem_map] at hd ⊢
          exact fun entry hmem => ⟨ih (hd entry hmem).1, ih (hd entry hmem).2⟩
      | named entries =>
          simp only [settle, Datum.only_named, List.forall_mem_map] at hd ⊢
          exact fun entry hmem => ih (hd entry hmem)
      | group common items =>
          simp only [settle, Datum.only_group, List.forall_mem_map] at hd ⊢
          exact ⟨ih hd.1, fun d hmem => ih (hd.2 d hmem)⟩
      | _ => exact hd

theorem settled_steady {d : Datum} (hd : d.Keeps named) :
    Steady named (Datum.Keeps named) (settled d) := by
  unfold settled
  split
  · refine Alike.get.bind ?_
    rintro m _ ⟨_, hstore, _, _⟩
    exact .pure (.rfl (settle_keeps hstore _ hd))
  · exact .pure (.rfl hd)

theorem modifyStore_steady {f : Store → Store}
    (h : ∀ store : Store, store.Keeps named → (f store).Keeps named) :
    Steady named Any (modifyStore f) := by
  refine Alike.changing ?_
  rintro m _ ⟨hframes, hstore, hblocks, hparent⟩
  exact ⟨hframes, h _ hstore, hblocks, hparent⟩

theorem loopAt_steady (place : Nat) : Steady named (LoopState.Keeps named) (loopAt place) := by
  refine Alike.get.bind ?_
  rintro m _ ⟨_, hstore, _, _⟩
  exact .pure (.rfl (hstore.loop place))

theorem modifyLoop_steady (place : Nat) {f : LoopState → LoopState}
    (h : ∀ loop : LoopState, loop.Keeps named → (f loop).Keeps named) :
    Steady named Any (modifyLoop place f) :=
  modifyStore_steady fun _ hstore => { hstore with loops := forall_mem_modify hstore.loops h }

theorem newLoop_steady {loop : LoopState} (h : loop.Keeps named) : Steady named Any (newLoop loop) := by
  refine Alike.get.bind ?_
  rintro m _ ⟨_, _, _, _⟩
  refine Alike.andThen (modifyStore_steady fun store hstore => ?_) fun _ _ => .pure (.rfl trivial)
  exact { hstore with loops := forall_mem_push hstore.loops h }

theorem newSpace_steady {entries : Entries Datum} (h : EntriesKeep named entries) :
    Steady named Any (newSpace entries) := by
  refine Alike.get.bind ?_
  rintro m _ ⟨_, _, _, _⟩
  refine Alike.andThen (modifyStore_steady fun store hstore => ?_) fun _ _ => .pure (.rfl trivial)
  exact { hstore with spaces := forall_mem_push hstore.spaces h }

theorem opened_steady {d : Datum} (hd : d.Keeps named) :
    Steady named (Datum.Keeps named) (opened d) := by
  cases d with
  | loop place =>
      exact (loopAt_steady place).map fun loop hloop => mapOf_keeps (loopAttributes_keeps hloop)
  | space place =>
      refine Alike.get.bind ?_
      rintro m _ ⟨_, hstore, _, _⟩
      exact .pure (.rfl (mapOf_keeps (hstore.space place)))
  | _ => exact .pure (.rfl hd)

/-! ## Output -/

theorem emit_steady (text : String) : Steady named Any (emit text) := by
  refine Alike.changing ?_
  rintro m _ ⟨hframes, hstore, hblocks, hparent⟩
  dsimp only
  split <;> exact ⟨hframes, hstore, hblocks, hparent⟩

theorem captured_steady {good : α → Prop} {step : Run α} (h : Steady named good step) :
    Steady named (fun result => good result.1) (captured step) := by
  refine Alike.get.bind ?_
  rintro before _ ⟨_, _, _, _⟩
  refine Alike.get.bind ?_
  rintro before' _ ⟨_, _, _, _⟩
  refine Alike.andThen (Alike.changing ?_) fun _ _ => ?_
  · rintro m _ ⟨hframes, hstore, hblocks, hparent⟩
    exact ⟨hframes, hstore, hblocks, hparent⟩
  refine h.andThen fun a ha => ?_
  refine Alike.get.bind ?_
  rintro after _ ⟨_, _, _, _⟩
  refine Alike.andThen (Alike.changing ?_) fun _ _ => .pure (.rfl ha)
  rintro m _ ⟨hframes, hstore, hblocks, hparent⟩
  exact ⟨hframes, hstore, hblocks, hparent⟩

theorem silenced_steady {good : α → Prop} {step : Run α} (h : Steady named good step) :
    Steady named good (silenced step) := by
  refine Alike.get.bind ?_
  rintro before _ ⟨_, _, _, _⟩
  refine Alike.andThen (Alike.changing ?_) fun _ _ => ?_
  · rintro m _ ⟨hframes, hstore, hblocks, hparent⟩
    exact ⟨hframes, hstore, hblocks, hparent⟩
  refine h.andThen fun a ha => ?_
  refine Alike.andThen (Alike.changing ?_) fun _ _ => .pure (.rfl ha)
  rintro m _ ⟨hframes, hstore, hblocks, hparent⟩
  exact ⟨hframes, hstore, hblocks, hparent⟩

theorem capturedText_steady (text : String) :
    Steady named (Datum.Keeps named) (capturedText text) := by
  refine Alike.get.bind ?_
  rintro m _ ⟨_, _, _, _⟩
  exact .pure (.rfl (Datum.only_text _ _))

/-! ## Frames -/

theorem depth_steady : Steady named Any depth := by
  refine Alike.get.bind ?_
  rintro m _ ⟨hframes, _, _, _⟩
  exact .pure ⟨congrArg (m.outer + ·) hframes.length_eq, trivial⟩

theorem checkDepth_steady : Steady named Any checkDepth := by
  refine depth_steady.andThen fun n _ => ?_
  split
  · exact .raise _
  · exact .pure (.rfl trivial)

theorem inFrame_steady {frame : Frame} {good : α → Prop} {step : Run α}
    (hframe : Frame.Alike named frame frame) (h : Steady named good step) :
    Steady named good (inFrame frame step) := by
  refine checkDepth_steady.andThen fun _ _ => ?_
  refine Alike.andThen (Alike.changing ?_) fun _ _ => ?_
  · rintro m _ ⟨hframes, hstore, hblocks, hparent⟩
    exact ⟨.cons hframe hframes, hstore, hblocks, hparent⟩
  refine h.andThen fun a ha => ?_
  refine Alike.andThen (Alike.changing ?_) fun _ _ => .pure (.rfl ha)
  rintro m _ ⟨hframes, hstore, hblocks, hparent⟩
  exact ⟨List.forall₂_drop 1 hframes, hstore, hblocks, hparent⟩

theorem modifyFrame_steady {f : Frame → Frame}
    (h : ∀ frame frame', Frame.Alike named frame frame' → Frame.Alike named (f frame) (f frame')) :
    Steady named Any (modifyFrame f) := by
  refine Alike.changing ?_
  rintro m _ ⟨hframes, hstore, hblocks, hparent⟩
  cases hm : m.frames with
  | nil =>
      rw [hm] at hframes
      cases hframes
      have hnil : List.Forall₂ (Frame.Alike named) m.frames [] := by rw [hm]; exact .nil
      simp only
      exact ⟨hnil, hstore, hblocks, hparent⟩
  | cons frame rest =>
      rw [hm] at hframes
      cases hframes with
      | cons hframe hrest =>
          simp only
          exact ⟨.cons (h _ _ hframe) hrest, hstore, hblocks, hparent⟩

theorem frame_alike : Alike named (Frame.Alike named) Run.frame Run.frame := by
  refine Alike.get.bind ?_
  rintro m _ ⟨hframes, _, _, _⟩
  refine .pure ?_
  cases hm : m.frames with
  | nil =>
      rw [hm] at hframes
      cases hframes
      exact .empty
  | cons frame rest =>
      rw [hm] at hframes
      cases hframes with
      | cons hframe hrest => exact hframe

/-! ## Names -/

/-- Whether two lookups find the same by a name, or each its own writer by the name of the writer. -/
inductive Found (named : String → Prop) (name : String) : Option Datum → Option Datum → Prop where
  | seen {d? d?' : Option Datum} (h : Seen named name d? d?') : Found named name d? d?'
  | builtin {f : Builtin} (h : builtin? name = some f) :
      Found named name (some (.function f)) (some (.function f))

theorem frameLookup?_seen {store : Store} {frame frame' : Frame} (name : String)
    (hstore : store.Keeps named) (h : Frame.Alike named frame frame') :
    Seen named name (frameLookup? store name frame) (frameLookup? store name frame') := by
  obtain ⟨hlocals, hloop, hbackdrop⟩ := h
  unfold frameLookup?
  dsimp only
  cases hlocal : Entries.get? name frame.locals with
  | some d => exact .same fun _ hd => Option.some.inj hd ▸ hlocals.get? hlocal
  | none =>
      dsimp only
      split
      · rename_i d hd
        refine .same fun _ hd' => ?_
        obtain rfl := Option.some.inj hd'
        split at hd
        · split at hd
          · exact Option.some.inj hd ▸ Datum.only_loop _
          · cases hd
        · cases hd
      · generalize frame.backdrop = backdrop at hbackdrop
        cases hbackdrop with
        | nothing => exact .same fun _ hd => by cases hd
        | data h => exact h name
        | captured place => exact .of_get? (hstore.capture place) name

theorem findSome?_seen {store : Store} {frames frames' : List Frame} (name : String)
    (hstore : store.Keeps named) (h : List.Forall₂ (Frame.Alike named) frames frames') :
    Seen named name (frames.findSome? (frameLookup? store name))
      (frames'.findSome? (frameLookup? store name)) := by
  induction h with
  | nil => exact .same fun _ hd => by cases hd
  | @cons frame frame' rest rest' hframe _ ih =>
      rw [List.findSome?_cons, List.findSome?_cons]
      have hseen := frameLookup?_seen name hstore hframe
      generalize frameLookup? store name frame = d? at hseen
      generalize frameLookup? store name frame' = d?' at hseen
      cases hseen with
      | writer hname hnamed label label' => exact .writer hname hnamed label label'
      | same h =>
          cases d? with
          | none => exact ih
          | some d => exact .same h

/-- A lookup reads the frames and the built-in functions, and changes nothing. -/
theorem lookup?_apply (name : String) (m : Machine) :
    lookup? name m = .done ((m.frames.findSome? (frameLookup? m.store name)).or
      ((builtin? name).map .function), m) := by
  have hget (next : Machine → Run (Option Datum)) : (get >>= next) m = next m m := rfl
  unfold lookup?
  rw [hget]
  cases m.frames.findSome? (frameLookup? m.store name) <;> rfl

/-- **A lookup can tell two evaluations apart only by the name of the writer.** -/
theorem lookup?_alike (name : String) :
    Alike named (Found named name) (lookup? name) (lookup? name) := by
  refine Alike.get.bind ?_
  rintro m _ ⟨hframes, hstore, _, _⟩
  have hseen := findSome?_seen name hstore hframes
  dsimp only
  generalize m.frames.findSome? (frameLookup? m.store name) = d? at hseen
  generalize List.findSome? (frameLookup? m.store name) _ = d?' at hseen
  cases hseen with
  | writer hname hnamed label label' => exact .pure (.seen (.writer hname hnamed label label'))
  | same h =>
      cases d? with
      | some d => exact .pure (.seen (.same h))
      | none =>
          cases hf : builtin? name with
          | none => exact .pure (.seen (.same fun _ hd => by cases hd))
          | some f => exact .pure (.builtin hf)

theorem eq_of_builtin?_toFile {name : String} (h : builtin? name = some .toFile) :
    name = "toFile" := by
  unfold builtin? at h
  split at h <;> first | rfl | cases h

theorem builtin?_writerName : builtin? writerName = none := by decide

/-- By a name that may be looked up, both find the same. -/
theorem Found.of_named {name : String} {d? d?' : Option Datum} (h : Found named name d? d?')
    (hname : named name) : Both (fun d? => ∀ d ∈ d?, d.Keeps named) d? d?' := by
  cases h with
  | seen h =>
      cases h with
      | same h => exact .rfl h
      | writer heq hnamed => exact absurd (heq ▸ hname) hnamed
  | @builtin f hf =>
      refine .rfl fun d hd => ?_
      obtain rfl := Option.some.inj hd
      refine Datum.only_function.mpr fun hfile => ?_
      subst hfile
      exact eq_of_builtin?_toFile hf ▸ hname

theorem lookup?_steady {name : String} (hname : named name) :
    Steady named (fun d? => ∀ d ∈ d?, d.Keeps named) (lookup? name) :=
  (lookup?_alike name).mono fun _ _ h => h.of_named hname

theorem assign_steady (name : String) {d : Datum} (hd : d.Keeps named) :
    Steady named Any (assign name d) := by
  have hframe : Steady named Any
      (modifyFrame fun frame => { frame with locals := Entries.put name d frame.locals }) := by
    refine modifyFrame_steady ?_
    rintro frame _ ⟨hlocals, hloop, hbackdrop⟩
    exact ⟨EntriesKeep.put hlocals hd, hloop, hbackdrop⟩
  refine frame_alike.bind ?_
  rintro frame _ ⟨_, _, _⟩
  dsimp only
  split
  · refine Alike.andThen (modifyStore_steady fun store hstore => ?_) fun _ _ => hframe
    exact { hstore with captures := forall_mem_modify hstore.captures fun _ h => EntriesKeep.put h hd }
  · exact hframe

theorem capturePlace_steady : Steady named Any capturePlace := by
  refine frame_alike.bind ?_
  rintro frame _ ⟨_, _, _⟩
  dsimp only
  split
  · exact .pure (.rfl trivial)
  · refine Alike.get.bind ?_
    rintro m _ ⟨_, _, _, _⟩
    refine Alike.andThen (modifyStore_steady fun store hstore => ?_) fun _ _ => ?_
    · exact { hstore with captures := forall_mem_push hstore.captures (List.forall_mem_nil _) }
    refine Alike.andThen (modifyFrame_steady ?_) fun _ _ => .pure (.rfl trivial)
    rintro frame _ ⟨hlocals, hloop, hbackdrop⟩
    exact ⟨hlocals, hloop, hbackdrop⟩

theorem capture_steady {name : String} (hname : named name) : Steady named Any (capture name) := by
  refine capturePlace_steady.andThen fun place _ => ?_
  refine (lookup?_steady hname).andThen fun d? hd => ?_
  have hentries : ∀ entries, EntriesKeep named entries → EntriesKeep named
      (if Entries.contains name entries then entries
        else Entries.put name (d?.getD .undefined) entries) := by
    intro entries h
    split
    · exact h
    · exact h.put (getD_keeps hd)
  refine modifyStore_steady fun store hstore => ?_
  exact { hstore with captures := forall_mem_modify hstore.captures hentries }

theorem innermostLoop?_steady :
    Steady named (fun loop? => ∀ loop ∈ loop?, ∀ again ∈ loop.again?, again.Keeps named)
      innermostLoop? := by
  refine Alike.get.bind ?_
  rintro m _ ⟨hframes, _, _, _⟩
  refine .pure ?_
  dsimp only
  generalize m.frames = frames at hframes
  induction hframes with
  | nil => exact .rfl fun _ h => by cases h
  | cons hframe _ ih =>
      obtain ⟨_, hloop, _⟩ := hframe
      rw [List.findSome?_cons, List.findSome?_cons]
      dsimp only
      split
      · rename_i loop heq
        exact .rfl fun _ h => Option.some.inj h ▸ hloop loop heq
      · exact ih

/-! ## Parts of data -/

theorem attributeOf_steady {d : Datum} (hd : d.Keeps named) (name : String) :
    Steady named (Datum.Keeps named) (attributeOf d name) := by
  refine (opened_steady hd).andThen fun d hd => ?_
  split
  · exact .raise _
  · exact .pure (.rfl (getD_keeps fun _ h => Datum.attribute?_only hd h))

theorem itemAt_steady {d : Datum} (hd : d.Keeps named) (key : Datum) :
    Steady named (Datum.Keeps named) (itemAt d key) := by
  refine (opened_steady hd).andThen fun d hd => ?_
  split
  · exact .raise _
  · exact .pure (.rfl (getD_keeps fun _ h => Datum.item?_only hd h))

theorem itemsOf_steady {d : Datum} (hd : d.Keeps named) :
    Steady named (fun result => ∀ d ∈ result.1, d.Keeps named) (itemsOf d) := by
  refine (opened_steady hd).andThen fun d hd => ?_
  split
  · exact .pure (.rfl (Datum.only_stream.mp hd))
  · split
    · rename_i items hitems
      exact .pure (.rfl (Datum.items?_only hd hitems))
    · exact .raise _

theorem unpacked_steady (count : Nat) {d : Datum} (hd : d.Keeps named) :
    Steady named (fun items => ∀ d ∈ items, d.Keeps named) (unpacked count d) := by
  refine (opened_steady hd).andThen fun d hd => ?_
  dsimp only
  split
  · rename_i items hitems
    have hrow : d.items? = some items := by
      split at hitems <;> first | cases hitems | exact hitems
    split
    · exact .pure (.rfl (Datum.items?_only hd hrow))
    · exact .raise _
  · exact .raise _

/-! ## Rows of statements and items -/

theorem runAll_steady {step : Statement → Run Signal} {body : List Statement}
    (h : ∀ s ∈ body, Steady named Any (step s)) : Steady named Any (runAll step body) := by
  induction body with
  | nil => exact .pure (.rfl trivial)
  | cons s rest ih =>
      refine (h s List.mem_cons_self).andThen fun signal _ => ?_
      split
      · exact ih fun s hs => h s (List.mem_cons_of_mem _ hs)
      · exact .pure (.rfl trivial)

theorem forItems_steady {step : Nat → Datum → Run Signal} {items : List Datum}
    (h : ∀ i, ∀ d ∈ items, Steady named Any (step i d)) (i : Nat) :
    Steady named Any (forItems step i items) := by
  induction items generalizing i with
  | nil => exact .pure (.rfl trivial)
  | cons d rest ih =>
      refine (h i d List.mem_cons_self).andThen fun signal _ => ?_
      split
      · exact .pure (.rfl trivial)
      · exact ih (fun i d hd => h i d (List.mem_cons_of_mem _ hd)) (i + 1)

theorem keepItems_steady {step : Datum → Run Bool} {items : List Datum}
    (hitems : ∀ d ∈ items, d.Keeps named) (h : ∀ d ∈ items, Steady named Any (step d)) :
    Steady named (fun items => ∀ d ∈ items, d.Keeps named) (keepItems step items) := by
  induction items with
  | nil => exact .pure (.rfl (List.forall_mem_nil _))
  | cons d rest ih =>
      obtain ⟨hd, hrest⟩ := List.forall_mem_cons.mp hitems
      refine (h d List.mem_cons_self).andThen fun kept _ => ?_
      refine (ih hrest fun d hd => h d (List.mem_cons_of_mem _ hd)).andThen fun others hothers => ?_
      refine .pure (.rfl ?_)
      split
      · exact List.forall_mem_cons.mpr ⟨hd, hothers⟩
      · exact hothers

/-! ## Arguments -/

theorem namedEntries_steady {d : Datum} (hd : d.Keeps named) :
    Steady named (EntriesKeep named) (namedEntries d) := by
  refine (opened_steady hd).andThen fun d hd => ?_
  split
  · exact .pure (.rfl (Datum.only_named.mp hd))
  · rename_i entries
    refine .pure (.rfl fun entry hentry => ?_)
    obtain ⟨old, hold, hsome⟩ := List.mem_filterMap.mp hentry
    obtain ⟨name, _, rfl⟩ := Option.map_eq_some_iff.mp hsome
    exact (Datum.only_map.mp hd old hold).2
  · exact .raise _

/-- Whether arguments that were evaluated so far have no function that may not be called. -/
def ArgumentsKeep (named : String → Prop) (acc : List Datum × Option (Entries Datum)) : Prop :=
  (∀ d ∈ acc.1, d.Keeps named) ∧ ∀ entries ∈ acc.2, EntriesKeep named entries

theorem ArgumentsKeep.entries {acc : List Datum × Option (Entries Datum)}
    (h : ArgumentsKeep named acc) : EntriesKeep named (acc.2.getD []) := by
  obtain ⟨positional, named?⟩ := acc
  cases named? with
  | none => exact List.forall_mem_nil _
  | some entries => exact h.2 entries rfl

theorem evaluateArguments_steady {step : Expr → Run Datum} {args : List Argument}
    {caller? : Option Datum} (hstep : ∀ e : Expr, e.Keeps named → Steady named (Datum.Keeps named) (step e))
    (hargs : ∀ a ∈ args, a.Keeps named) (hcaller : ∀ d ∈ caller?, d.Keeps named) :
    Steady named (fun all => ∀ d ∈ all, d.Keeps named) (evaluateArguments step args caller?) := by
  have hstart : ArgumentsKeep named ([], none) := ⟨List.forall_mem_nil _, fun _ h => by cases h⟩
  unfold evaluateArguments
  refine Alike.andThen (Alike.foldlM hstart fun acc hacc a ha => ?_) fun acc hacc => ?_
  · obtain ⟨positional, named?⟩ := acc
    dsimp only
    have hpositional : ∀ items : List Datum, (∀ d ∈ items, d.Keeps named) →
        ArgumentsKeep named (positional ++ items, named?) := fun items hitems =>
      ⟨List.forall_mem_append.mpr ⟨hacc.1, hitems⟩, hacc.2⟩
    have hnamed : ∀ entries, EntriesKeep named entries →
        ArgumentsKeep named (positional, some entries) := fun entries hentries =>
      ⟨hacc.1, fun _ h => Option.some.inj h ▸ hentries⟩
    cases hargs a ha with
    | positional he =>
        refine (hstep _ he).andThen fun d hd => .pure (.rfl ?_)
        exact hpositional [d] (List.forall_mem_singleton.mpr hd)
    | spread he =>
        refine (hstep _ he).andThen fun d hd => ?_
        exact (itemsOf_steady hd).andThen fun result hresult => .pure (.rfl (hpositional _ hresult))
    | named he =>
        refine (hstep _ he).andThen fun d hd => .pure (.rfl ?_)
        exact hnamed _ (hacc.entries.insert hd)
    | spreadNamed he =>
        refine (hstep _ he).andThen fun d hd => ?_
        refine (namedEntries_steady hd).andThen fun entries hentries => .pure (.rfl ?_)
        exact hnamed _ (hacc.entries.insertAll hentries)
  · obtain ⟨positional, named?⟩ := acc
    dsimp only
    have hlast : ∀ entries, EntriesKeep named entries →
        ∀ d ∈ positional ++ [Datum.named entries], d.Keeps named := fun entries hentries =>
      List.forall_mem_append.mpr
        ⟨hacc.1, List.forall_mem_singleton.mpr (Datum.only_named.mpr hentries)⟩
    refine .pure (.rfl ?_)
    cases caller? with
    | some caller => exact hlast _ (hacc.entries.insert (hcaller caller rfl))
    | none =>
        cases named? with
        | some entries => exact hlast entries (hacc.2 entries rfl)
        | none => exact hacc.1

theorem settledAll_steady {args : List Datum} (hargs : ∀ d ∈ args, d.Keeps named) :
    Steady named (fun all => ∀ d ∈ all, d.Keeps named) (args.mapM settled) :=
  .mapM fun d hd => settled_steady (hargs d hd)

theorem applyFilter_steady (name : String) {args : List Datum} (hargs : ∀ d ∈ args, d.Keeps named) :
    Steady named (Datum.Keeps named) (applyFilter name args) := by
  have hfilter : ∀ args : List Datum, (∀ d ∈ args, d.Keeps named) →
      Steady named (Datum.Keeps named)
        (do ofExcept (Filter.apply (← get).escaping name args)) := by
    intro args hargs
    refine Alike.get.bind ?_
    rintro m _ ⟨_, _, _, _⟩
    exact .lift (Filter.apply_only hargs)
  unfold applyFilter
  dsimp only
  split
  · exact hfilter args hargs
  · exact (settledAll_steady hargs).andThen hfilter

theorem applyCheck_steady (name : String) {args : List Datum} (hargs : ∀ d ∈ args, d.Keeps named) :
    Steady named (Datum.Keeps named) (applyCheck name args) := by
  refine (settledAll_steady hargs).andThen fun args _ => ?_
  split
  · exact (Alike.lift_any _).map fun _ _ => Datum.only_bool _
  · exact .raise _

theorem print_steady {d : Datum} (hd : d.Keeps named) : Steady named Any (print d) := by
  refine Alike.get.bind ?_
  rintro m _ ⟨_, _, _, _⟩
  refine (settled_steady hd).andThen fun d _ => ?_
  exact (Alike.lift_any _).andThen fun text _ => emit_steady text

theorem escapingOf_steady (d : Datum) : Steady named Any (escapingOf d) := by
  unfold escapingOf
  split
  · exact .pure (.rfl trivial)
  · exact .pure (.rfl trivial)
  · exact .pure (.rfl trivial)
  · exact .raise _
  · exact .pure (.rfl trivial)

/-! ## Assignments and macros -/

theorem assignTo_steady {step : Expr → Run Datum}
    (hstep : ∀ e : Expr, e.Keeps named → Steady named (Datum.Keeps named) (step e)) (fuel : Nat)
    {target : Target} (htarget : target.Keeps named) {d : Datum} (hd : d.Keeps named) :
    Steady named Any (assignTo step fuel target d) := by
  induction fuel generalizing target d with
  | zero => exact .exhausted
  | succ fuel ih =>
      cases htarget with
      | «variable» name => exact assign_steady name hd
      | @«attribute» object name h =>
          refine (hstep object h).andThen fun found _ => ?_
          split
          · refine modifyStore_steady fun store hstore => ?_
            exact { hstore with
              spaces := forall_mem_modify hstore.spaces fun _ h => EntriesKeep.insert h hd }
          · exact .raise _
      | @several targets h =>
          refine (unpacked_steady _ hd).andThen fun items hitems => .forM fun entry hentry => ?_
          obtain ⟨htarget, hitem⟩ := List.of_mem_zip hentry
          exact ih (h _ htarget) (hitems _ hitem)

theorem makeMacro_steady (name : String) (parameters : List String) {defaults : List Expr}
    {body : List Statement} (hdefaults : ∀ e ∈ defaults, e.Keeps named)
    (hbody : ∀ s ∈ body, s.Keeps named) :
    Steady named (Datum.Keeps named) (makeMacro name parameters defaults body) := by
  have hnames : ∀ name ∈ capturedNames parameters defaults body, named name :=
    capturedNames_named hdefaults hbody
  refine Alike.bind (Alike.forM fun name hname => ?_) fun _ _ _ => ?_
  · exact capture_steady (hnames name (List.mem_of_mem_filter hname))
  refine Alike.get.bind ?_
  rintro m _ ⟨_, _, _, _⟩
  refine frame_alike.bind ?_
  rintro frame _ ⟨_, _, _⟩
  refine Alike.andThen (modifyStore_steady fun store hstore => ?_) fun _ _ =>
    .pure (.rfl (Datum.only_macroRef _))
  exact { hstore with macros := forall_mem_push hstore.macros ⟨hdefaults, hbody⟩ }

/-! ## Functions -/

theorem makeRange_only {p : Builtin → Prop} (low high step : Int) :
    Yields (·.Only p) (makeRange low high step) := by
  have hnumbers : ∀ count, (Datum.stream (numbersFrom low step count) true).Only p := by
    simp [numbersFrom]
  unfold makeRange
  extract_lets count
  split
  · trivial
  · split
    · trivial
    · exact hnumbers _

theorem computed_keeps (f : Builtin) {args : List Datum} (hargs : ∀ d ∈ args, d.Keeps named) :
    Yields (Datum.Keeps named) (computed f args) := by
  have htext : ∀ s, Reading.Always (Datum.Keeps named) (Pure.pure (Datum.ofString s)) :=
    fun s => .pure (Datum.only_ofString s)
  cases f with
  | range =>
      refine Yields.bind (Yields.of_forall fun _ => trivial) fun bounds (_ : True) => ?_
      dsimp only
      split <;> exact makeRange_only _ _ _
  | dict =>
      refine Reading.Gives.run ?_ hargs
      refine Reading.Gives.next?.bind fun first? hfirst => ?_
      refine Reading.Gives.next?.bind fun second? hsecond => ?_
      extract_lets entriesOf
      have hentries : ∀ d? : Option Datum, (∀ d ∈ d?, d.Keeps named) →
          Reading.Gives (Callable named) (fun entries : List (Datum × Datum) =>
            ∀ entry ∈ entries, entry.1.Keeps named ∧ entry.2.Keeps named) (entriesOf d?) := by
        intro d? hd
        dsimp only [entriesOf]
        split
        · exact .pure (List.forall_mem_nil _)
        · exact .pure (List.forall_mem_nil _)
        · split
          · rename_i hall
            exact .pure (Filter.entriesOf?_only (hd _ rfl) hall)
          · exact .throw
      refine (hentries first? hfirst).bind fun first hfirst => ?_
      refine (hentries second? hsecond).bind fun second hsecond => .pure ?_
      exact Datum.ofPairs_only (List.forall_mem_append.mpr ⟨hfirst, hsecond⟩)
  | debug =>
      simp only [computed]
      split
      · exact Yields.ok.mpr (Datum.only_ofString _)
      · exact Yields.ok.mpr (Datum.only_ofString _)
      · exact Yields.ok.mpr (Datum.only_ofString _)
  | os | arch => exact (htext _).run args
  | joinSingleQuote | joinDoubleQuote =>
      exact (Reading.Always.bind fun _ => .bind fun _ => htext _).run args
  | «namespace» | «include» | toFile => trivial

theorem makeSpace_steady {args : List Datum} (hargs : ∀ d ∈ args, d.Keeps named) :
    Steady named (Datum.Keeps named) (makeSpace args) := by
  have hfirst : Yields (fun d? => ∀ d ∈ d?, d.Keeps named)
      (Reading.run (Reading.optional Reading.asAny) args) :=
    (Reading.Gives.optional Reading.Gives.asAny).run hargs
  refine (Alike.lift hfirst).andThen fun d? hd => ?_
  split
  · exact (newSpace_steady (List.forall_mem_nil _)).map fun _ _ => Datum.only_space _
  · rename_i d
    refine (opened_steady (hd d rfl)).andThen fun d' hd' => ?_
    split
    · rename_i entries hentries
      have hall := Filter.entriesOf?_only hd' hentries
      refine (newSpace_steady ?_).map fun _ _ => Datum.only_space _
      refine EntriesKeep.insertAll (List.forall_mem_nil _) fun entry hentry => ?_
      obtain ⟨old, hold, hsome⟩ := List.mem_filterMap.mp hentry
      obtain ⟨name, _, rfl⟩ := Option.map_eq_some_iff.mp hsome
      exact (hall old hold).2
    · exact .raise _

theorem matchArguments_keeps (head : MacroHead) {args : List Datum} (hargs : ∀ d ∈ args, d.Keeps named) :
    Yields (fun result => (∀ d ∈ result.1, d.Keeps named) ∧ ∀ d ∈ result.2, d.Keeps named)
      (matchArguments head args) := by
  unfold matchArguments
  extract_lets
  split
  rename_i positional entries heq
  obtain ⟨hpositional, hnamed⟩ : (∀ d ∈ positional, d.Keeps named) ∧ EntriesKeep named entries := by
    split at heq
    · rename_i hlast
      obtain ⟨rfl, rfl⟩ := Prod.mk.inj heq
      refine ⟨fun d hd => hargs d (List.dropLast_subset _ hd), ?_⟩
      exact Datum.only_named.mp (hargs _ (List.mem_of_getLast? hlast))
    · obtain ⟨rfl, rfl⟩ := Prod.mk.inj heq
      exact ⟨hargs, List.forall_mem_nil _⟩
  dsimp only
  split
  · trivial
  refine Yields.bind (Yields.mapM ?_) fun values (hvalues : ∀ d ∈ values, d.Keeps named) => ?_
  · intro entry _
    split
    · trivial
    · rename_i d hd _
      exact hpositional d (List.mem_of_getElem? hd)
    · rename_i d _ hd
      exact hnamed.get? hd
    · exact Yields.pure.mpr Datum.only_undefined
  · split
    · refine ⟨hvalues, fun d hd => ?_⟩
      split at hd
      · exact Option.some.inj hd ▸ getD_keeps fun _ h => hnamed.get? h
      · cases hd
    · trivial

/-! ## Templates -/

theorem layersOf_keeps {document : Document} (h : document.Keeps named) :
    ∀ entry ∈ layersOf document, entry.2.Keeps named := by
  intro entry hentry
  obtain ⟨block, hblock, rfl⟩ := List.mem_map.mp hentry
  exact List.forall_mem_singleton.mpr (h.blocks block hblock)

theorem withLayers_keeps {blocks : Entries BlockLayers} {parent : Document}
    (h : ∀ entry ∈ blocks, entry.2.Keeps named) (hparent : parent.Keeps named) :
    ∀ entry ∈ withLayers blocks parent, entry.2.Keeps named := by
  refine List.foldlRecOn parent.blocks _
    (motive := fun acc : Entries BlockLayers => ∀ entry ∈ acc, entry.2.Keeps named) h
    fun acc hacc block hblock => ?_
  have hold : ((Entries.get? block.1 acc).getD { layers := [] }).Keeps named := by
    cases hget : Entries.get? block.1 acc with
    | none => exact List.forall_mem_nil _
    | some old => exact forall_get? hacc hget
  refine forall_put hacc ?_
  exact List.forall_mem_append.mpr ⟨hold, List.forall_mem_singleton.mpr (hparent.blocks block hblock)⟩

theorem loadFault_alike {rel : α → β → Prop} (name : String) (fault : LoadFault) :
    Alike named rel (fun _ => Rendering.loadFault name fault) (fun _ => Rendering.loadFault name fault) := by
  intro m m' _
  cases fault <;> exact .fail _

theorem loaded_steady (name : String) : Steady named (Document.Keeps named) (loaded name) := by
  refine (Alike.load name).andThen fun answer hanswer => ?_
  split
  · exact .pure (.rfl (hanswer _ rfl))
  · exact loadFault_alike name _

theorem extend_steady (d : Datum) : Steady named Any (extend d) := by
  have hload : ∀ name, Steady named Any (do
      let document ← loaded name
      modify fun m => { m with
        extended := document.name :: m.extended
        blocks := withLayers m.blocks document
        parent? := some document
        muted := true }) := by
    intro name
    refine (loaded_steady name).andThen fun document hdocument => .changing ?_
    rintro m _ ⟨hframes, hstore, hblocks, _⟩
    exact ⟨hframes, hstore, withLayers_keeps hblocks hdocument, fun _ h => Option.some.inj h ▸ hdocument⟩
  refine Alike.get.bind ?_
  rintro m _ ⟨_, _, _, _⟩
  dsimp only
  split
  · exact .raise_bind
  split
  · refine Alike.get.bind ?_
    rintro m _ ⟨_, _, _, _⟩
    dsimp only
    split
    · exact .raise_bind
    · exact hload _
  · exact .raise _

theorem firstLoaded_steady (names : List Datum) :
    Steady named (fun document? => ∀ document ∈ document?, document.Keeps named) (firstLoaded names) := by
  induction names with
  | nil => exact .pure (.rfl fun _ h => by cases h)
  | cons d rest ih =>
      unfold firstLoaded
      split
      · refine (Alike.load _).andThen fun answer hanswer => ?_
        split
        · exact .pure (.rfl fun _ h => Option.some.inj h ▸ hanswer _ rfl)
        · exact ih
        · exact loadFault_alike _ _
      · exact .raise _

theorem setLayer_steady (name : String) (depth : Nat) : Steady named Any (setLayer name depth) := by
  refine Alike.changing ?_
  rintro m _ ⟨hframes, hstore, hblocks, hparent⟩
  dsimp only
  split
  · rename_i block hblock
    have hold : block.Keeps named := forall_get? hblocks hblock
    have hnew : { block with depth }.Keeps named := hold
    exact ⟨hframes, hstore, forall_put hblocks hnew, hparent⟩
  · exact ⟨hframes, hstore, hblocks, hparent⟩

/-- Data that are the same but for the writers that stand behind them. -/
theorem ofPairs_alike {entries : List (Datum × Datum)} {d? d?' : Option Datum}
    (hentries : ∀ entry ∈ entries, entry.1.Keeps named ∧ entry.2.Keeps named)
    (h : Found named writerName d? d?') :
    Backdrop.Alike named
      (.data (Datum.ofPairs (entries ++ [(.ofString writerName, d?.getD .undefined)])))
      (.data (Datum.ofPairs (entries ++ [(.ofString writerName, d?'.getD .undefined)]))) := by
  refine .data fun name => ?_
  rw [Datum.attribute?_ofPairs_append, Datum.attribute?_ofPairs_append]
  have hothers : Seen named name ((Datum.ofPairs entries).attribute? name)
      ((Datum.ofPairs entries).attribute? name) :=
    .same fun _ hd => Datum.attribute?_only (Datum.ofPairs_only hentries) hd
  split
  · rename_i hname
    cases h with
    | seen h =>
        cases h with
        | same h => exact .same fun _ hd => Option.some.inj hd ▸ getD_keeps h
        | writer _ hnamed label label' => exact .writer hname hnamed label label'
    | builtin h => exact absurd h (by simp [builtin?_writerName])
  · exact hothers

theorem freshData_alike {data? : Option Datum} (h : ∀ d ∈ data?, d.Keeps named) :
    Alike named (fun d d' => Backdrop.Alike named (.data d) (.data d')) (freshData data?)
      (freshData data?) := by
  refine (lookup?_alike writerName).bind fun d? d?' hfound => ?_
  refine (opened_steady (getD_keeps h)).andThen fun given hgiven => .pure (ofPairs_alike ?_ hfound)
  split
  · simp
  · intro entry hentry
    cases hentries : Filter.entriesOf? given with
    | none => simp [hentries] at hentry
    | some entries =>
        exact Filter.entriesOf?_only hgiven hentries entry (by simpa [hentries] using hentry)

end Run

end Stencil.Template
