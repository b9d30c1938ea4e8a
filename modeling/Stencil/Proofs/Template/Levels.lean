import Stencil.Proofs.Template.Quiet

/-!
# How many levels an evaluation takes

An evaluation goes deeper with every part of a text that it follows, and texts are finite. It starts on another
text only where it opens a frame, of which there can be so many, or where it loads a template. So if there is a
bound on the number of templates that it loads and on their size, there is one on its levels (`Limits.levels`).

`Upto` compares an evaluation that is allowed some levels with one that is allowed more. The first may be
exhausted where the second goes on, unless it was given as many as it takes (`full`); in all else they are the
same. Nothing is said of what comes after more templates were loaded than there may be.
-/

namespace Stencil.Template

/-! ## Sizes -/

/-- How large the text of a template is, as a tree. -/
noncomputable def Document.size (document : Document) : Nat := sizeOf document.body

mutual

theorem Statement.sizeOf_le_of_mem_blocks :
    ∀ (s : Statement), ∀ block ∈ s.blocks, sizeOf block.2 ≤ sizeOf s
  | .block name body, block, h => by
      rw [Statement.blocks] at h
      rcases List.mem_append.mp h with h | h
      · have := sizeOf_le_of_mem_blocksOf body block h
        simp only [Statement.block.sizeOf_spec]
        omega
      · obtain rfl := List.mem_singleton.mp h
        simp only [Statement.block.sizeOf_spec]
        omega
  | .loop _ _ _ _ body otherwise, block, h => by
      rw [Statement.blocks] at h
      have hparts := (List.mem_append.mp h).imp (sizeOf_le_of_mem_blocksOf body block)
        (sizeOf_le_of_mem_blocksOf otherwise block)
      simp only [Statement.loop.sizeOf_spec]
      omega
  | .branch _ body otherwise, block, h => by
      rw [Statement.blocks] at h
      have hparts := (List.mem_append.mp h).imp (sizeOf_le_of_mem_blocksOf body block)
        (sizeOf_le_of_mem_blocksOf otherwise block)
      simp only [Statement.branch.sizeOf_spec]
      omega
  | .scope _ body, block, h => by
      rw [Statement.blocks] at h
      have := sizeOf_le_of_mem_blocksOf body block h
      simp only [Statement.scope.sizeOf_spec]
      omega
  | .assignText _ _ body, block, h => by
      rw [Statement.blocks] at h
      have := sizeOf_le_of_mem_blocksOf body block h
      simp only [Statement.assignText.sizeOf_spec]
      omega
  | .escaping _ body, block, h => by
      rw [Statement.blocks] at h
      have := sizeOf_le_of_mem_blocksOf body block h
      simp only [Statement.escaping.sizeOf_spec]
      omega
  | .filtered _ body, block, h => by
      rw [Statement.blocks] at h
      have := sizeOf_le_of_mem_blocksOf body block h
      simp only [Statement.filtered.sizeOf_spec]
      omega
  | .data _, _, h | .print _, _, h | .assign _ _, _, h | .parent _, _, h | .splice _ _, _, h
  | .importAll _ _, _, h | .importNames _ _, _, h | .define _ _ _ _, _, h
  | .callWith _ _ _ _ _, _, h | .run _ _, _, h | .next, _, h | .leave, _, h => by
      rw [Statement.blocks] at h
      · exact absurd h List.not_mem_nil
      all_goals simp

theorem sizeOf_le_of_mem_blocksOf :
    ∀ (body : List Statement), ∀ block ∈ blocksOf body, sizeOf block.2 ≤ sizeOf body
  | [], _, h => absurd h List.not_mem_nil
  | s :: rest, block, h => by
      rw [blocksOf] at h
      have hparts := (List.mem_append.mp h).imp (Statement.sizeOf_le_of_mem_blocks s block)
        (sizeOf_le_of_mem_blocksOf rest block)
      simp only [List.cons.sizeOf_spec]
      omega

end

/-! ## Limits -/

/-- What an evaluation may do. -/
structure Limits where
  /-- How large the texts are that it comes upon. -/
  size : Nat
  /-- How many templates it may load. -/
  loads : Nat
  /-- How many frames it may open. -/
  frames : Nat

namespace Limits

/-- How many levels it takes to start on one text after the other. -/
def levels (limits : Limits) : Nat :=
  (limits.loads * (maxFrames + 2) + limits.frames) * (2 * limits.size + 10)

/-- Whether limits are those on what is done inside of a frame, or with a template that was loaded. -/
structure Below (inner limits : Limits) : Prop where
  size : inner.size = limits.size
  loads : inner.loads ≤ limits.loads
  levels : inner.levels + (2 * limits.size + 10) ≤ limits.levels

theorem Below.of_lt {inner limits : Limits} (hsize : inner.size = limits.size)
    (hloads : inner.loads ≤ limits.loads)
    (h : inner.loads * (maxFrames + 2) + inner.frames < limits.loads * (maxFrames + 2) + limits.frames) :
    inner.Below limits where
  size := hsize
  loads := hloads
  levels := by
    unfold Limits.levels
    rw [hsize, ← Nat.succ_mul]
    exact Nat.mul_le_mul_right _ h

/-- The limits inside of a frame. -/
theorem below_frame {limits : Limits} {frames : Nat} (h : limits.frames = frames + 1) :
    { limits with frames }.Below limits :=
  .of_lt rfl Nat.le.refl (by simp only; omega)

/-- The limits after a template was loaded. -/
theorem below_load {limits : Limits} {loads : Nat} (h : limits.loads = loads + 1) :
    { limits with loads }.Below limits :=
  .of_lt rfl (by simp only; omega) (by simp only [h, Nat.succ_mul]; omega)

/-- The limits of an evaluation of its own. -/
def fresh (limits : Limits) : Limits := { limits with frames := maxFrames }

theorem below_fresh {limits : Limits} {loads : Nat} (h : limits.loads = loads + 1) :
    { limits with loads }.fresh.Below limits :=
  .of_lt rfl (by simp only [fresh]; omega) (by simp only [fresh, h, Nat.succ_mul]; omega)

end Limits

/-- Whether the layers of a block are no larger than a size. -/
def BlockLayers.Fits (size : Nat) (block : BlockLayers) : Prop :=
  ∀ layer ∈ block.layers, sizeOf layer.2 ≤ size

/-- **Whether an evaluation keeps to limits**: the texts that it keeps are no larger, and its frames are so
many already that only so many more can be opened. -/
structure Machine.Fits (limits : Limits) (m : Machine) : Prop where
  loops : ∀ loop? ∈ m.frames.map Frame.loop?, ∀ loop ∈ loop?, ∀ again ∈ loop.again?,
    sizeOf again ≤ limits.size
  macros : ∀ made ∈ m.store.macros, sizeOf made.defaults ≤ limits.size ∧ sizeOf made.body ≤ limits.size
  blocks : ∀ entry ∈ m.blocks, entry.2.Fits limits.size
  parent : ∀ document ∈ m.parent?, document.size ≤ limits.size
  size : 0 < limits.size
  room : maxFrames < m.outer + m.frames.length + limits.frames

/-- What an evaluation keeps from one point to another, while some of the templates are loaded that may be:
the number of its frames, and there is no parent unless there was one or a template was loaded. -/
structure Machine.Kept (loads left : Nat) (m m' : Machine) : Prop where
  le : left ≤ loads
  outer : m'.outer = m.outer
  frames : m'.frames.length = m.frames.length
  parent : m'.parent?.isSome → m.parent?.isSome ∨ left < loads

namespace Machine

variable {limits : Limits} {m m' m'' : Machine} {loads left rest : Nat}

theorem Kept.refl (loads : Nat) (m : Machine) : Kept loads loads m m := ⟨Nat.le.refl, rfl, rfl, Or.inl⟩

theorem Kept.trans (h : Kept loads left m m') (h' : Kept left rest m' m'') : Kept loads rest m m'' where
  le := Nat.le_trans h'.le h.le
  outer := h'.outer.trans h.outer
  frames := h'.frames.trans h.frames
  parent hsome := by
    rcases h'.parent hsome with hsome | hlt
    · exact (h.parent hsome).imp_right (Nat.lt_of_le_of_lt h'.le)
    · exact Or.inr (Nat.lt_of_lt_of_le hlt h.le)

theorem SameFooting.length_frames (h : SameFooting m m') : m'.frames.length = m.frames.length := by
  simpa using congrArg List.length h.loops

theorem SameFooting.kept (h : SameFooting m m') : Kept loads loads m m' :=
  ⟨Nat.le.refl, h.outer, h.length_frames, fun hsome => Or.inl (h.parent ▸ hsome)⟩

theorem SameFooting.fits (h : SameFooting m m') (hm : m.Fits limits) : m'.Fits limits where
  loops := h.loops ▸ hm.loops
  macros := h.macros ▸ hm.macros
  blocks := h.blocks ▸ hm.blocks
  parent := h.parent ▸ hm.parent
  size := hm.size
  room := by
    rw [h.outer, h.length_frames]
    exact hm.room

end Machine

variable {α β : Type} {full : Prop}

/-! ## Renderings -/

/-- **Whether a rendering is another one up to a point**: they ask for the same and end alike, but for the first
being exhausted where the second goes on, if it may be. What has become of them at their end is known
from the number of templates that could still be loaded then. -/
inductive Rendering.Upto (full : Prop) (size : Nat) (post : Nat → α → Prop) :
    Nat → Rendering α → Rendering α → Prop where
  | done {loads : Nat} {a : α} (h : post loads a) : Upto full size post loads (.done a) (.done a)
  | fail {loads : Nat} (fault : Fault) : Upto full size post loads (.fail fault) (.fail fault)
  | exhausted {loads : Nat} {r : Rendering α} (h : ¬ full) : Upto full size post loads .exhausted r
  | load {loads : Nat} (name : String) {next next' : Except LoadFault Document → Rendering α}
      (hfault : ∀ fault, Upto full size post loads (next (.error fault)) (next' (.error fault)))
      (h : ∀ left document, loads = left + 1 → document.size ≤ size →
        Upto full size post left (next (.ok document)) (next' (.ok document))) :
      Upto full size post loads (.load name next) (.load name next')
  | permit {loads : Nat} (path : String) {next next' : Bool → Rendering α}
      (h : ∀ answer, Upto full size post loads (next answer) (next' answer)) :
      Upto full size post loads (.permit path next) (.permit path next')
  | write {loads : Nat} (path text : String) {next next' : Bool → Rendering α}
      (h : ∀ answer, Upto full size post loads (next answer) (next' answer)) :
      Upto full size post loads (.write path text next) (.write path text next')

namespace Rendering.Upto

variable {size loads : Nat} {post : Nat → α → Prop} {post' : Nat → β → Prop} {r r' : Rendering α}

theorem bind {next next' : α → Rendering β} (h : Upto full size post loads r r')
    (hnext : ∀ left a, post left a → Upto full size post' left (next a) (next' a)) :
    Upto full size post' loads (r.bind next) (r'.bind next') := by
  induction h with
  | done h => exact hnext _ _ h
  | fail fault => exact .fail fault
  | exhausted h => exact .exhausted h
  | load name _ _ ihfault ih => exact .load name ihfault ih
  | permit path _ ih => exact .permit path ih
  | write path text _ ih => exact .write path text ih

theorem mapFault (f : Fault → Fault) (h : Upto full size post loads r r') :
    Upto full size post loads (r.mapFault f) (r'.mapFault f) := by
  induction h with
  | done h => exact .done h
  | fail fault => exact .fail (f fault)
  | exhausted h => exact .exhausted h
  | load name _ _ ihfault ih => exact .load name ihfault ih
  | permit path _ ih => exact .permit path ih
  | write path text _ ih => exact .write path text ih

theorem mono {wide : Nat → α → Prop} (h : Upto full size post loads r r')
    (hwide : ∀ left a, post left a → wide left a) : Upto full size wide loads r r' := by
  induction h with
  | done h => exact .done (hwide _ _ h)
  | fail fault => exact .fail fault
  | exhausted h => exact .exhausted h
  | load name _ _ ihfault ih => exact .load name ihfault ih
  | permit path _ ih => exact .permit path ih
  | write path text _ ih => exact .write path text ih

end Rendering.Upto

/-! ## Steps -/

namespace Run

/-- **Whether a step is another one up to a point**, in every evaluation that keeps to limits, and it keeps to
them afterwards. -/
def Upto (full : Prop) (limits : Limits) (good : α → Prop) (step step' : Run α) : Prop :=
  ∀ loads ≤ limits.loads, ∀ m : Machine, m.Fits limits → Rendering.Upto full limits.size
    (fun left result => good result.1 ∧ result.2.Fits limits ∧ m.Kept loads left result.2) loads
    (step m) (step' m)

variable {limits : Limits} {good : α → Prop} {good' : β → Prop} {step step' : Run α}

theorem Quiet.upto (h : Quiet step) : Upto full limits Any step step := by
  intro loads _ m hm
  rcases h m with ⟨fault, hfail⟩ | ⟨a, m', hdone, hfooting⟩
  · rw [hfail]
    exact .fail fault
  · rw [hdone]
    exact .done ⟨trivial, hfooting.fits hm, hfooting.kept⟩

namespace Upto

theorem pure {a : α} (h : good a) : Upto full limits good (Pure.pure a) (Pure.pure a) :=
  fun loads _ m hm => .done ⟨h, hm, .refl loads m⟩

theorem raise (cause : Cause) : Upto full limits good (Run.raise cause) (Run.raise cause) :=
  fun _ _ _ _ => .fail _

theorem exhausted (h : ¬ full) : Upto full limits good Run.exhausted step' := fun _ _ _ _ => .exhausted h

theorem bind {next next' : α → Run β} (h : Upto full limits good step step')
    (hnext : ∀ a, good a → Upto full limits good' (next a) (next' a)) :
    Upto full limits good' (step >>= next) (step' >>= next') := by
  intro loads hloads m hm
  refine (h loads hloads m hm).bind fun left result hresult => ?_
  obtain ⟨hgood, hfits, hkept⟩ := hresult
  refine (hnext result.1 hgood left (Nat.le_trans hkept.le hloads) result.2 hfits).mono ?_
  exact fun rest final hfinal => ⟨hfinal.1, hfinal.2.1, hkept.trans hfinal.2.2⟩

/-- A quiet step and then another. -/
theorem after {next next' : α → Run β} (h : Quiet step)
    (hnext : ∀ a, Upto full limits good' (next a) (next' a)) :
    Upto full limits good' (step >>= next) (step >>= next') :=
  h.upto.bind fun a _ => hnext a

/-- A step and then a quiet one. -/
theorem thenQuiet {next : α → Run β} (h : Upto full limits good step step') (hnext : ∀ a, Quiet (next a)) :
    Upto full limits Any (step >>= next) (step' >>= next) :=
  h.bind fun a _ => (hnext a).upto

theorem mapFault (f : Fault → Fault) (h : Upto full limits good step step') :
    Upto full limits good (Run.mapFault f step) (Run.mapFault f step') :=
  fun loads hloads m hm => (h loads hloads m hm).mapFault f

/-- What is done with the state that is found. -/
theorem get {next next' : Machine → Run β}
    (h : ∀ m : Machine, m.Fits limits → Upto full limits good' (next m) (next' m)) :
    Upto full limits good' (MonadState.get >>= next) (MonadState.get >>= next') :=
  fun loads hloads m hm => h m hm loads hloads m hm

/-- A change that keeps the number of frames and the parent. -/
theorem changing {f : Machine → Machine} (hfits : ∀ m : Machine, m.Fits limits → (f m).Fits limits)
    (houter : ∀ m : Machine, (f m).outer = m.outer)
    (hframes : ∀ m : Machine, (f m).frames.length = m.frames.length)
    (hparent : ∀ m : Machine, (f m).parent? = m.parent?) :
    Upto full limits Any (modify f : Run PUnit) (modify f) :=
  fun _ _ m hm => .done ⟨trivial, hfits m hm, Nat.le.refl, houter m, hframes m, fun h => Or.inl (hparent m ▸ h)⟩

/-! ### Rows of steps -/

theorem mapM {step step' : α → Run β} {items : List α}
    (h : ∀ a ∈ items, Upto full limits Any (step a) (step' a)) :
    Upto full limits Any (items.mapM step) (items.mapM step') := by
  induction items with
  | nil =>
      rw [List.mapM_nil, List.mapM_nil]
      exact pure trivial
  | cons a rest ih =>
      rw [List.mapM_cons, List.mapM_cons]
      refine (h a List.mem_cons_self).bind fun b _ => ?_
      exact (ih fun a ha => h a (List.mem_cons_of_mem _ ha)).bind fun all _ => pure trivial

theorem forM {step step' : α → Run PUnit} {items : List α}
    (h : ∀ a ∈ items, Upto full limits Any (step a) (step' a)) :
    Upto full limits Any (items.forM step) (items.forM step') := by
  induction items with
  | nil => exact pure trivial
  | cons a rest ih =>
      refine (h a List.mem_cons_self).bind fun _ _ => ?_
      exact ih fun b hb => h b (List.mem_cons_of_mem _ hb)

theorem foldlM {step step' : β → α → Run β} {items : List α} (b : β)
    (h : ∀ b, ∀ a ∈ items, Upto full limits Any (step b a) (step' b a)) :
    Upto full limits Any (items.foldlM step b) (items.foldlM step' b) := by
  induction items generalizing b with
  | nil => exact pure trivial
  | cons a rest ih =>
      rw [List.foldlM_cons, List.foldlM_cons]
      refine (h b a List.mem_cons_self).bind fun b' _ => ?_
      exact ih b' fun b a ha => h b a (List.mem_cons_of_mem _ ha)

theorem runAll {step step' : Statement → Run Signal} {body : List Statement}
    (h : ∀ s ∈ body, Upto full limits Any (step s) (step' s)) :
    Upto full limits Any (Run.runAll step body) (Run.runAll step' body) := by
  induction body with
  | nil => exact pure trivial
  | cons s rest ih =>
      refine (h s List.mem_cons_self).bind fun signal _ => ?_
      split
      · exact ih fun s hs => h s (List.mem_cons_of_mem _ hs)
      · exact pure trivial

theorem forItems {step step' : Nat → Datum → Run Signal}
    (h : ∀ i d, Upto full limits Any (step i d) (step' i d)) (i : Nat) (items : List Datum) :
    Upto full limits Any (Run.forItems step i items) (Run.forItems step' i items) := by
  induction items generalizing i with
  | nil => exact pure trivial
  | cons d rest ih =>
      refine (h i d).bind fun signal _ => ?_
      split
      · exact pure trivial
      · exact ih (i + 1)

theorem keepItems {step step' : Datum → Run Bool} (h : ∀ d, Upto full limits Any (step d) (step' d))
    (items : List Datum) :
    Upto full limits Any (Run.keepItems step items) (Run.keepItems step' items) := by
  induction items with
  | nil => exact pure trivial
  | cons d rest ih => exact (h d).bind fun _ _ => ih.bind fun _ _ => pure trivial

/-! ### Output and frames -/

theorem captured (h : Upto full limits Any step step') :
    Upto full limits Any (Run.captured step) (Run.captured step') := by
  refine .get fun before _ => .get fun before' _ => ?_
  refine Upto.bind (changing (fun _ hm => { hm with }) (fun _ => rfl) (fun _ => rfl) fun _ => rfl) fun _ _ => ?_
  refine h.bind fun a _ => .get fun after _ => ?_
  refine Upto.bind (changing (fun _ hm => { hm with }) (fun _ => rfl) (fun _ => rfl) fun _ => rfl) fun _ _ => ?_
  exact pure trivial

theorem silenced (h : Upto full limits Any step step') :
    Upto full limits Any (Run.silenced step) (Run.silenced step') := by
  refine .get fun before _ => ?_
  refine Upto.bind (changing (fun _ hm => { hm with }) (fun _ => rfl) (fun _ => rfl) fun _ => rfl) fun _ _ => ?_
  refine h.bind fun a _ => ?_
  refine Upto.bind (changing (fun _ hm => { hm with }) (fun _ => rfl) (fun _ => rfl) fun _ => rfl) fun _ _ => ?_
  exact pure trivial

theorem checkDepth_apply (m : Machine) :
    Run.checkDepth m = if maxFrames < m.outer + m.frames.length
      then Rendering.raise (.invalid "recursion limit exceeded") else .done (PUnit.unit, m) := by
  show (if m.outer + m.frames.length > maxFrames
    then Run.raise (.invalid "recursion limit exceeded") else Pure.pure PUnit.unit : Run PUnit) m = _
  split <;> rfl

/-- **A step in a frame of its own**: where a frame can be opened, one less can be opened inside. -/
theorem inFrame {frame : Frame}
    (hframe : ∀ loop ∈ frame.loop?, ∀ again ∈ loop.again?, sizeOf again ≤ limits.size)
    (h : ∀ inner : Limits, inner.Below limits → Upto full inner good step step') :
    Upto full limits good (Run.inFrame frame step) (Run.inFrame frame step') := by
  intro loads hloads m hm
  have hopen : ∀ step : Run α, Run.inFrame frame step m = (Run.checkDepth m).bind fun _ =>
      (step { m with frames := frame :: m.frames }).bind fun result =>
        .done (result.1, { result.2 with frames := result.2.frames.drop 1 }) := by
    intro step
    show (Run.checkDepth m).bind (fun result => _) = _
    rw [checkDepth_apply]
    split <;> rfl
  rw [hopen, hopen, checkDepth_apply]
  split
  · exact .fail _
  · rename_i hroom
    have hfits := hm.room
    obtain ⟨frames, hframes⟩ : ∃ frames, limits.frames = frames + 1 :=
      ⟨limits.frames - 1, by omega⟩
    have hinner : Machine.Fits { limits with frames } { m with frames := frame :: m.frames } :=
      { loops := by
          simpa using ⟨hframe, fun f hf => hm.loops _ (List.mem_map_of_mem hf)⟩
        macros := hm.macros
        blocks := hm.blocks
        parent := hm.parent
        size := hm.size
        room := by
          simp only [List.length_cons]
          omega }
    refine (h _ (Limits.below_frame hframes) loads hloads _ hinner).bind fun left result hresult => ?_
    obtain ⟨hgood, hfits', hkept⟩ := hresult
    have hlength : (result.2.frames.drop 1).length = m.frames.length := by
      rw [List.length_drop, hkept.frames, List.length_cons]
      omega
    refine .done ⟨hgood, ?_, hkept.le, hkept.outer, hlength, hkept.parent⟩
    exact
      { loops := fun loop? hloop => hfits'.loops loop? (by
          rw [List.map_drop] at hloop
          exact List.mem_of_mem_drop hloop)
        macros := hfits'.macros
        blocks := hfits'.blocks
        parent := hfits'.parent
        size := hm.size
        room := by
          simp only [hlength, hkept.outer]
          exact hm.room }

/-! ### Templates -/

/-- A template is loaded, and what is done with it has one less to load. -/
theorem load {next next' : Except LoadFault Document → Run β} (name : String)
    (hfault : ∀ fault, Upto full limits good' (next (.error fault)) (next' (.error fault)))
    (h : ∀ left document, limits.loads = left + 1 → document.size ≤ limits.size →
      Upto full { limits with loads := left } good' (next (.ok document)) (next' (.ok document))) :
    Upto full limits good' (Run.load name >>= next) (Run.load name >>= next') := by
  intro loads hloads m hm
  refine .load name (fun fault => hfault fault loads hloads m hm) fun left document hleft hsize => ?_
  obtain ⟨rest, hrest⟩ : ∃ rest, limits.loads = rest + 1 := ⟨limits.loads - 1, by omega⟩
  have hfits : m.Fits { limits with loads := rest } := { hm with }
  refine (h rest document hrest hsize left (by simp only; omega) m hfits).mono ?_
  intro final result hresult
  obtain ⟨hgood, hfits', hkept⟩ := hresult
  have hlt : final < loads := by
    have := hkept.le
    omega
  exact ⟨hgood, { hfits' with }, Nat.le_of_lt hlt, hkept.outer, hkept.frames, fun _ => Or.inr hlt⟩

/-! ### Files -/

theorem permit (path : String) : Upto full limits Any (Run.permit path) (Run.permit path) :=
  fun loads _ m hm => .permit path fun _ => .done ⟨trivial, hm, .refl loads m⟩

theorem write (path text : String) : Upto full limits Any (Run.write path text) (Run.write path text) :=
  fun loads _ m hm => .write path text fun _ => .done ⟨trivial, hm, .refl loads m⟩

end Upto

/-! ## Evaluations inside of others -/

/-- Whether a step of an evaluation of its own, which keeps to limits of its own, leads back to the state that
the one around it had. -/
def Returns (full : Prop) (inner limits : Limits) (m : Machine) (loads : Nat) (step step' : Run α) : Prop :=
  ∀ left ≤ loads, ∀ now : Machine, now.Fits inner → Rendering.Upto full limits.size
    (fun rest result => Any result.1 ∧ result.2.Fits limits ∧ m.Kept loads rest result.2) left
    (step now) (step' now)

namespace Returns

variable {inner : Limits} {m : Machine} {loads : Nat}

theorem bind {next next' : α → Run β} (hsize : inner.size = limits.size) (hloads : loads ≤ inner.loads)
    (h : Upto full inner good step step')
    (hnext : ∀ a, good a → Returns full inner limits m loads (next a) (next' a)) :
    Returns full inner limits m loads (step >>= next) (step' >>= next') := by
  intro left hleft now hnow
  refine Rendering.Upto.bind (hsize ▸ h left (Nat.le_trans hleft hloads) now hnow) ?_
  intro rest result hresult
  exact hnext result.1 hresult.1 rest (Nat.le_trans hresult.2.2.le hleft) result.2 hresult.2.1

/-- The store is kept, and all else is as it was. -/
theorem restore {next : Machine → Run β} (hsize : inner.size = limits.size) (hm : m.Fits limits)
    (hnext : ∀ after, Quiet (next after)) :
    Returns full inner limits m loads
      (do
        let after ← get
        set { m with store := after.store }
        next after)
      (do
        let after ← get
        set { m with store := after.store }
        next after) := by
  intro left hleft now hnow
  have hfits : Machine.Fits limits { m with store := now.store } :=
    { hm with macros := hsize ▸ hnow.macros }
  show Rendering.Upto full limits.size _ left (next now { m with store := now.store })
    (next now { m with store := now.store })
  rcases hnext now { m with store := now.store } with ⟨fault, hfail⟩ | ⟨b, m', hdone, hfooting⟩
  · rw [hfail]
    exact .fail fault
  · rw [hdone]
    refine .done ⟨trivial, hfooting.fits hfits, hleft, hfooting.outer, hfooting.length_frames, ?_⟩
    exact fun hsome => Or.inl (hfooting.parent ▸ hsome)

end Returns

end Run

end Stencil.Template
