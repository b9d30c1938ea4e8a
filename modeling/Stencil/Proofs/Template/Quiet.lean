import Stencil.Proofs.Template.Steps

/-!
# Quiet steps

How deep evaluations are nested hangs on a few things only: on the texts that an evaluation keeps for later,
which are the bodies of loops, macros, blocks and parents, and on the number of its frames. Together they are
its footing. Most steps of an evaluation compute something, or change data, and are quiet: they ask for
nothing, and leave the footing as it is.
-/

namespace Stencil.Template

/-- Whether two states of an evaluation keep the same texts, and have as many frames. -/
structure Machine.SameFooting (m m' : Machine) : Prop where
  loops : m'.frames.map Frame.loop? = m.frames.map Frame.loop?
  macros : m'.store.macros = m.store.macros
  blocks : m'.blocks = m.blocks
  parent : m'.parent? = m.parent?
  outer : m'.outer = m.outer

namespace Machine.SameFooting

variable {m m' m'' : Machine}

theorem refl (m : Machine) : SameFooting m m := ⟨rfl, rfl, rfl, rfl, rfl⟩

theorem trans (h : SameFooting m m') (h' : SameFooting m' m'') : SameFooting m m'' where
  loops := h'.loops.trans h.loops
  macros := h'.macros.trans h.macros
  blocks := h'.blocks.trans h.blocks
  parent := h'.parent.trans h.parent
  outer := h'.outer.trans h.outer

end Machine.SameFooting

namespace Run

variable {α β γ : Type}

/-- **Whether a step asks for nothing and leaves the footing as it is**, if it does not fail. -/
def Quiet (step : Run α) : Prop :=
  ∀ m, (∃ fault, step m = .fail fault) ∨ ∃ a m', step m = .done (a, m') ∧ m.SameFooting m'

namespace Quiet

variable {step : Run α} {next : α → Run β}

theorem pure (a : α) : Quiet (Pure.pure a) := fun m => Or.inr ⟨a, m, rfl, .refl m⟩

theorem bind (h : Quiet step) (hnext : ∀ a, Quiet (next a)) : Quiet (step >>= next) := by
  intro m
  have hstep : (step >>= next) m = (step m).bind fun result => next result.1 result.2 := rfl
  rw [hstep]
  rcases h m with ⟨fault, hfail⟩ | ⟨a, m', hdone, hfooting⟩
  · exact Or.inl ⟨fault, by rw [hfail, Rendering.fail_bind]⟩
  · rw [hdone, Rendering.done_bind]
    rcases hnext a m' with hfail | ⟨b, m'', hdone', hfooting'⟩
    · exact Or.inl hfail
    · exact Or.inr ⟨b, m'', hdone', hfooting.trans hfooting'⟩

theorem map (f : α → β) (h : Quiet step) : Quiet (f <$> step) := h.bind fun a => pure (f a)

theorem raise (cause : Cause) : Quiet (Run.raise (α := α) cause) := fun _ => Or.inl ⟨_, rfl⟩

theorem lift (result : Except Cause α) : Quiet (ofExcept result) := by
  cases result with
  | ok a => exact pure a
  | error cause => exact raise cause

theorem get : Quiet (MonadState.get : Run Machine) := fun m => Or.inr ⟨m, m, rfl, .refl m⟩

theorem changing {f : Machine → Machine} (h : ∀ m : Machine, m.SameFooting (f m)) :
    Quiet (modify f : Run PUnit) := fun m => Or.inr ⟨⟨⟩, f m, rfl, h m⟩

theorem mapM {step : α → Run β} (h : ∀ a, Quiet (step a)) (items : List α) : Quiet (items.mapM step) := by
  induction items with
  | nil =>
      rw [List.mapM_nil]
      exact pure []
  | cons a rest ih =>
      rw [List.mapM_cons]
      exact (h a).bind fun b => ih.bind fun all => pure (b :: all)

theorem forM {step : α → Run PUnit} (h : ∀ a, Quiet (step a)) (items : List α) :
    Quiet (items.forM step) := by
  induction items with
  | nil => exact pure PUnit.unit
  | cons a rest ih => exact (h a).bind fun _ => ih

end Quiet

/-! ## The store and the output -/

theorem modifyStore_quiet {f : Store → Store} (h : ∀ store, (f store).macros = store.macros) :
    Quiet (modifyStore f) :=
  .changing fun m => { Machine.SameFooting.refl m with macros := h m.store }

theorem loopAt_quiet (place : Nat) : Quiet (loopAt place) := Quiet.get.bind fun _ => .pure _

theorem modifyLoop_quiet (place : Nat) (f : LoopState → LoopState) : Quiet (modifyLoop place f) :=
  modifyStore_quiet fun _ => rfl

theorem newLoop_quiet (loop : LoopState) : Quiet (newLoop loop) := by
  refine Quiet.get.bind fun m => Quiet.bind (modifyStore_quiet fun store => ?_) fun _ => .pure _
  rfl

theorem newSpace_quiet (entries : Entries Datum) : Quiet (newSpace entries) := by
  refine Quiet.get.bind fun m => Quiet.bind (modifyStore_quiet fun store => ?_) fun _ => .pure _
  rfl

theorem settled_quiet (d : Datum) : Quiet (settled d) := by
  unfold settled
  split
  · exact Quiet.get.bind fun _ => .pure _
  · exact .pure d

theorem opened_quiet (d : Datum) : Quiet (opened d) := by
  cases d with
  | loop place => exact (loopAt_quiet place).bind fun _ => .pure _
  | space place => exact Quiet.get.bind fun _ => .pure _
  | _ => exact .pure _

theorem emit_quiet (text : String) : Quiet (emit text) := by
  refine .changing fun m => ?_
  split
  · exact .refl m
  · exact ⟨rfl, rfl, rfl, rfl, rfl⟩

theorem capturedText_quiet (text : String) : Quiet (capturedText text) := Quiet.get.bind fun _ => .pure _

/-! ## Frames and names -/

theorem frame_quiet : Quiet frame := Quiet.get.bind fun _ => .pure _

theorem modifyFrame_quiet {f : Frame → Frame} (h : ∀ frame, (f frame).loop? = frame.loop?) :
    Quiet (modifyFrame f) := by
  refine .changing fun m => ?_
  split
  · rename_i frame rest hframes
    have hloops : (f frame :: rest).map Frame.loop? = m.frames.map Frame.loop? := by
      rw [hframes, List.map_cons, List.map_cons, h frame]
    exact { Machine.SameFooting.refl m with loops := hloops }
  · exact .refl m

theorem lookup?_quiet (name : String) : Quiet (lookup? name) := by
  refine Quiet.get.bind fun m => ?_
  split <;> exact .pure _

theorem assign_quiet (name : String) (d : Datum) : Quiet (assign name d) := by
  have hframe : Quiet
      (modifyFrame fun frame => { frame with locals := Entries.put name d frame.locals }) :=
    modifyFrame_quiet fun _ => rfl
  refine frame_quiet.bind fun frame => ?_
  dsimp only
  split
  · refine Quiet.bind (modifyStore_quiet fun store => ?_) fun _ => hframe
    rfl
  · exact hframe

theorem capturePlace_quiet : Quiet capturePlace := by
  refine frame_quiet.bind fun frame => ?_
  dsimp only
  split
  · exact .pure _
  · refine Quiet.get.bind fun m => Quiet.bind (modifyStore_quiet fun store => ?_) fun _ =>
      Quiet.bind (modifyFrame_quiet fun frame => ?_) fun _ => .pure _
    · rfl
    · rfl

theorem capture_quiet (name : String) : Quiet (capture name) :=
  capturePlace_quiet.bind fun _ => (lookup?_quiet name).bind fun _ => modifyStore_quiet fun _ => rfl

theorem innermostLoop?_quiet : Quiet innermostLoop? := Quiet.get.bind fun _ => .pure _

/-! ## Parts of data -/

theorem attributeOf_quiet (d : Datum) (name : String) : Quiet (attributeOf d name) := by
  refine (opened_quiet d).bind fun d => ?_
  split
  · exact .raise _
  · exact .pure _

theorem itemAt_quiet (d key : Datum) : Quiet (itemAt d key) := by
  refine (opened_quiet d).bind fun d => ?_
  split
  · exact .raise _
  · exact .pure _

theorem itemsOf_quiet (d : Datum) : Quiet (itemsOf d) := by
  refine (opened_quiet d).bind fun d => ?_
  split
  · exact .pure _
  · split
    · exact .pure _
    · exact .raise _

theorem unpacked_quiet (count : Nat) (d : Datum) : Quiet (unpacked count d) := by
  refine (opened_quiet d).bind fun d => ?_
  dsimp only
  split
  · split
    · exact .pure _
    · exact .raise _
  · exact .raise _

theorem namedEntries_quiet (d : Datum) : Quiet (namedEntries d) := by
  refine (opened_quiet d).bind fun d => ?_
  split
  · exact .pure _
  · exact .pure _
  · exact .raise _

/-! ## Filters, checks and functions -/

theorem applyFilter_quiet (name : String) (args : List Datum) : Quiet (applyFilter name args) := by
  have hfilter : ∀ args : List Datum, Quiet (do ofExcept (Filter.apply (← get).escaping name args)) :=
    fun args => Quiet.get.bind fun _ => .lift _
  unfold applyFilter
  dsimp only
  split
  · exact hfilter args
  · exact (Quiet.mapM settled_quiet args).bind hfilter

theorem applyCheck_quiet (name : String) (args : List Datum) : Quiet (applyCheck name args) := by
  refine (Quiet.mapM settled_quiet args).bind fun args => ?_
  split
  · exact (Quiet.lift _).map _
  · exact .raise _

theorem print_quiet (d : Datum) : Quiet (print d) :=
  Quiet.get.bind fun _ => (settled_quiet d).bind fun _ => (Quiet.lift _).bind fun text => emit_quiet text

theorem escapingOf_quiet (d : Datum) : Quiet (escapingOf d) := by
  unfold escapingOf
  split
  · exact .pure _
  · exact .pure _
  · exact .pure _
  · exact .raise _
  · exact .pure _

theorem makeSpace_quiet (args : List Datum) : Quiet (makeSpace args) := by
  refine (Quiet.lift _).bind fun first? => ?_
  split
  · exact (newSpace_quiet _).map _
  · refine (opened_quiet _).bind fun d => ?_
    split
    · exact (newSpace_quiet _).map _
    · exact .raise _

theorem freshData_quiet (data? : Option Datum) : Quiet (freshData data?) :=
  (lookup?_quiet _).bind fun _ => (opened_quiet _).bind fun _ => .pure _

end Run

end Stencil.Template
