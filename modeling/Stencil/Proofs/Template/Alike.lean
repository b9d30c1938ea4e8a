import Mathlib.Data.List.Forall2
import Stencil.Proofs.Template.Filters
import Stencil.Proofs.Template.Names
import Stencil.Template.Evaluation

/-!
# Renderings that are alike

Two evaluations of one template can differ in their scopes only, and a template learns of its scope only by
the name of its writer. So as long as no such name is looked up, two evaluations go on alike: they ask for
the same things, and where they get the same answers they end alike. That is what the relations here say,
first of renderings, then of the state of an evaluation, and at last of its steps.

All of them depend on which names templates may look up (`named`). Functions in data matter because
`toFile` could be called by another name: it may be in data only if its name may be looked up
(`Datum.Keeps`). And where a file is asked for, both evaluations are to fail if there is no leave for it or
it cannot be written.

Nothing is known of the templates that are loaded but that their names are such, too.
-/

namespace Stencil.Template

/-- Whether a function may be called where only names of a kind are looked up. -/
def Callable (named : String → Prop) (f : Builtin) : Prop := f = .toFile → named "toFile"

/-- Whether no function is in a datum that may not be called. -/
abbrev Datum.Keeps (named : String → Prop) (d : Datum) : Prop := d.Only (Callable named)

variable {named : String → Prop} {α β : Type}

/-! ## Renderings -/

instance : LawfulMonad Rendering :=
  LawfulMonad.mk' Rendering Rendering.bind_done (fun _ _ => rfl) Rendering.bind_assoc

/-- Whether an answer is no template, or one with names of a kind only. -/
def AnswerKeeps (named : String → Prop) (answer : Except LoadFault Document) : Prop :=
  ∀ document, answer = .ok document → document.Keeps named

/-- Whether two renderings ask for the same and, given the same answers, end alike. -/
inductive Rendering.Alike (named : String → Prop) (rel : α → β → Prop) :
    Rendering α → Rendering β → Prop where
  | done {a : α} {b : β} (h : rel a b) : Alike named rel (.done a) (.done b)
  | fail (fault : Fault) : Alike named rel (.fail fault) (.fail fault)
  | exhausted : Alike named rel .exhausted .exhausted
  | load (name : String) {next : Except LoadFault Document → Rendering α}
      {next' : Except LoadFault Document → Rendering β}
      (h : ∀ answer, AnswerKeeps named answer → Alike named rel (next answer) (next' answer)) :
      Alike named rel (.load name next) (.load name next')
  | permit (path : String) {next : Bool → Rendering α} {next' : Bool → Rendering β}
      (hnamed : named "toFile") (hno : ∃ fault, next false = .fail fault ∧ next' false = .fail fault)
      (h : Alike named rel (next true) (next' true)) :
      Alike named rel (.permit path next) (.permit path next')
  | write (path text : String) {next : Bool → Rendering α} {next' : Bool → Rendering β}
      (hnamed : named "toFile") (hno : ∃ fault, next false = .fail fault ∧ next' false = .fail fault)
      (h : Alike named rel (next true) (next' true)) :
      Alike named rel (.write path text next) (.write path text next')

namespace Rendering.Alike

variable {γ δ : Type} {rel : α → β → Prop} {rel' : γ → δ → Prop} {r : Rendering α} {r' : Rendering β}

theorem bind {next : α → Rendering γ} {next' : β → Rendering δ} (h : Alike named rel r r')
    (hnext : ∀ a b, rel a b → Alike named rel' (next a) (next' b)) :
    Alike named rel' (r.bind next) (r'.bind next') := by
  induction h with
  | done h => exact hnext _ _ h
  | fail fault => exact .fail fault
  | exhausted => exact .exhausted
  | load name _ ih => exact .load name ih
  | permit path hnamed hno _ ih =>
      obtain ⟨fault, hnext, hnext'⟩ := hno
      exact .permit path hnamed ⟨fault, by rw [hnext, fail_bind], by rw [hnext', fail_bind]⟩ ih
  | write path text hnamed hno _ ih =>
      obtain ⟨fault, hnext, hnext'⟩ := hno
      exact .write path text hnamed ⟨fault, by rw [hnext, fail_bind], by rw [hnext', fail_bind]⟩ ih

theorem mapFault (f : Fault → Fault) (h : Alike named rel r r') :
    Alike named rel (r.mapFault f) (r'.mapFault f) := by
  induction h with
  | done h => exact .done h
  | fail fault => exact .fail (f fault)
  | exhausted => exact .exhausted
  | load name _ ih => exact .load name ih
  | permit path hnamed hno _ ih =>
      obtain ⟨fault, hnext, hnext'⟩ := hno
      refine .permit path hnamed ⟨f fault, ?_, ?_⟩ ih
      · simp only [hnext, Rendering.mapFault]
      · simp only [hnext', Rendering.mapFault]
  | write path text hnamed hno _ ih =>
      obtain ⟨fault, hnext, hnext'⟩ := hno
      refine .write path text hnamed ⟨f fault, ?_, ?_⟩ ih
      · simp only [hnext, Rendering.mapFault]
      · simp only [hnext', Rendering.mapFault]

theorem mono {wide : α → β → Prop} (h : Alike named rel r r') (hrel : ∀ a b, rel a b → wide a b) :
    Alike named wide r r' := by
  induction h with
  | done h => exact .done (hrel _ _ h)
  | fail fault => exact .fail fault
  | exhausted => exact .exhausted
  | load name _ ih => exact .load name ih
  | permit path hnamed hno _ ih => exact .permit path hnamed hno ih
  | write path text hnamed hno _ ih => exact .write path text hnamed hno ih

end Rendering.Alike

/-! ## The state of an evaluation -/

/-- Whether the body of a loop has names of a kind only. -/
structure LoopBody.Keeps (named : String → Prop) (loop : LoopBody) : Prop where
  target : loop.target.Keeps named
  body : ∀ s ∈ loop.body, s.Keeps named

/-- Whether what is kept of a loop has no function that may not be called. -/
structure LoopState.Keeps (named : String → Prop) (loop : LoopState) : Prop where
  items : ∀ d ∈ loop.items, d.Keeps named
  last : ∀ last ∈ loop.last?, ∀ d ∈ last, d.Keeps named

/-- Whether a macro has names of a kind only. -/
structure MacroBody.Keeps (named : String → Prop) (made : MacroBody) : Prop where
  defaults : ∀ e ∈ made.defaults, e.Keeps named
  body : ∀ s ∈ made.body, s.Keeps named

/-- Whether entries have no function that may not be called. -/
def EntriesKeep (named : String → Prop) (entries : Entries Datum) : Prop :=
  ∀ entry ∈ entries, entry.2.Keeps named

/-- Whether a store has names of a kind only, and no function that may not be called. -/
structure Store.Keeps (named : String → Prop) (store : Store) : Prop where
  loops : ∀ loop ∈ store.loops, loop.Keeps named
  spaces : ∀ entries ∈ store.spaces, EntriesKeep named entries
  captures : ∀ entries ∈ store.captures, EntriesKeep named entries
  macros : ∀ made ∈ store.macros, made.Keeps named

/-- Whether the layers of a block have names of a kind only. -/
def BlockLayers.Keeps (named : String → Prop) (block : BlockLayers) : Prop :=
  ∀ layer ∈ block.layers, ∀ s ∈ layer.2, s.Keeps named

/-- Whether two evaluations see the same by a name, or each its own writer by the name of the writer. -/
inductive Seen (named : String → Prop) (name : String) : Option Datum → Option Datum → Prop where
  | same {d? : Option Datum} (h : ∀ d ∈ d?, d.Keeps named) : Seen named name d? d?
  | writer (hname : name = writerName) (hnamed : ¬ named writerName) (label label' : String) :
      Seen named name (some (.writer label)) (some (.writer label'))

/-- Whether what lies behind two frames is the same but for the writers. -/
inductive Backdrop.Alike (named : String → Prop) : Backdrop → Backdrop → Prop where
  | nothing : Alike named .nothing .nothing
  | data {d d' : Datum} (h : ∀ name, Seen named name (d.attribute? name) (d'.attribute? name)) :
      Alike named (.data d) (.data d')
  | captured (place : Nat) : Alike named (.captured place) (.captured place)

/-- Whether two frames are the same but for what lies behind them, and that is alike. -/
inductive Frame.Alike (named : String → Prop) (frame : Frame) : Frame → Prop where
  | intro {backdrop' : Backdrop} (hlocals : EntriesKeep named frame.locals)
      (hloop : ∀ loop ∈ frame.loop?, ∀ again ∈ loop.again?, again.Keeps named)
      (hbackdrop : frame.backdrop.Alike named backdrop') :
      Alike named frame { frame with backdrop := backdrop' }

/-- **Whether two evaluations are at the same point**, but for the scopes that they have. -/
inductive Machine.Alike (named : String → Prop) (m : Machine) : Machine → Prop where
  | intro {frames' : List Frame} (hframes : List.Forall₂ (Frame.Alike named) m.frames frames')
      (hstore : m.store.Keeps named) (hblocks : ∀ entry ∈ m.blocks, entry.2.Keeps named)
      (hparent : ∀ document ∈ m.parent?, document.Keeps named) :
      Alike named m { m with frames := frames' }

/-! ## Steps -/

namespace Run

/-- Whether two steps lead from evaluations at the same point to such again. -/
def Alike (named : String → Prop) (rel : α → β → Prop) (step : Run α) (step' : Run β) : Prop :=
  ∀ m m', Machine.Alike named m m' → Rendering.Alike named
    (fun result result' => rel result.1 result'.1 ∧ Machine.Alike named result.2 result'.2)
    (step m) (step' m')

/-- Whether two results are the same, and as they should be. -/
def Both (good : α → Prop) (a a' : α) : Prop := a = a' ∧ good a

/-- Whether a step goes alike in evaluations at the same point, with the same result. -/
abbrev Steady (named : String → Prop) (good : α → Prop) (step : Run α) : Prop :=
  Alike named (Both good) step step

theorem Both.rfl {good : α → Prop} {a : α} (h : good a) : Both good a a := ⟨Eq.refl a, h⟩

/-- What is the case of any result. -/
abbrev Any {α : Type} (_ : α) : Prop := True

namespace Alike

variable {γ δ : Type} {rel : α → β → Prop} {rel' : γ → δ → Prop} {step : Run α} {step' : Run β}
  {good : α → Prop}

theorem pure {a : α} {b : β} (h : rel a b) : Alike named rel (Pure.pure a) (Pure.pure b) :=
  fun _ _ hm => .done ⟨h, hm⟩

theorem bind {next : α → Run γ} {next' : β → Run δ} (h : Alike named rel step step')
    (hnext : ∀ a b, rel a b → Alike named rel' (next a) (next' b)) :
    Alike named rel' (step >>= next) (step' >>= next') :=
  fun m m' hm => (h m m' hm).bind fun result result' hresult =>
    hnext result.1 result'.1 hresult.1 result.2 result'.2 hresult.2

/-- One step after another whose result is the same in both evaluations. -/
theorem andThen {step : Run α} {next : α → Run γ} {next' : α → Run δ} (h : Steady named good step)
    (hnext : ∀ a, good a → Alike named rel' (next a) (next' a)) :
    Alike named rel' (step >>= next) (step >>= next') := by
  refine h.bind fun a b hab => ?_
  obtain ⟨rfl, ha⟩ := hab
  exact hnext a ha

theorem mono {wide : α → β → Prop} (h : Alike named rel step step')
    (hrel : ∀ a b, rel a b → wide a b) : Alike named wide step step' :=
  fun m m' hm => (h m m' hm).mono fun _ _ hresult => ⟨hrel _ _ hresult.1, hresult.2⟩

/-- What is given is not looked at any more. -/
theorem any {step : Run α} (h : Steady named good step) : Steady named Any step :=
  h.mono fun _ _ hab => ⟨hab.1, trivial⟩

theorem map {f : α → γ} {good' : γ → Prop} {step : Run α} (h : Steady named good step)
    (hf : ∀ a, good a → good' (f a)) : Steady named good' (f <$> step) :=
  h.andThen fun a ha => pure (Both.rfl (hf a ha))

theorem raise (cause : Cause) : Alike named rel (raise cause) (raise cause) :=
  fun _ _ _ => .fail _

/-- What would come after a fault does not matter. -/
theorem raise_bind {cause : Cause} {next : α → Run γ} {next' : β → Run δ} :
    Alike named rel' (Run.raise cause >>= next) (Run.raise cause >>= next') :=
  fun _ _ _ => .fail _

theorem exhausted : Alike named rel exhausted exhausted := fun _ _ _ => .exhausted

theorem lift {result : Except Cause α} (h : Yields good result) : Steady named good (ofExcept result) := by
  cases result with
  | ok a => exact pure (Both.rfl h)
  | error cause => exact raise cause

/-- A result that is as it should be anyway. -/
theorem lift_any (result : Except Cause α) : Steady named Any (ofExcept result) :=
  lift (Yields.of_forall fun _ => trivial)

theorem get : Alike named (Machine.Alike named) (MonadState.get : Run Machine) MonadState.get :=
  fun _ _ hm => .done ⟨hm, hm⟩

theorem set {m m' : Machine} (hm : Machine.Alike named m m') :
    Alike named (Both Any) (MonadStateOf.set m : Run PUnit) (MonadStateOf.set m') :=
  fun _ _ _ => .done ⟨Both.rfl trivial, hm⟩

theorem changing {f f' : Machine → Machine}
    (h : ∀ m m', Machine.Alike named m m' → Machine.Alike named (f m) (f' m')) :
    Alike named (Both Any) (modify f : Run PUnit) (modify f') :=
  fun m m' hm => .done ⟨Both.rfl trivial, h m m' hm⟩

theorem mapFault (f : Fault → Fault) (h : Alike named rel step step') :
    Alike named rel (mapFault f step) (Run.mapFault f step') :=
  fun m m' hm => (h m m' hm).mapFault f

theorem load (name : String) : Steady named (AnswerKeeps named) (load name) :=
  fun _ _ hm => .load name fun _ hanswer => .done ⟨Both.rfl hanswer, hm⟩

/-- Leave to write a file is asked for, and without it the rendering fails. -/
theorem permit {next : Bool → Run γ} {next' : Bool → Run δ} (path : String) (hnamed : named "toFile")
    (h : Alike named rel' (next true) (next' true)) {cause : Cause} (hno : next false = Run.raise cause)
    (hno' : next' false = Run.raise cause) :
    Alike named rel' (permit path >>= next) (Run.permit path >>= next') := by
  intro m m' hm
  refine .permit path hnamed ⟨{ cause }, ?_, ?_⟩ (h m m' hm)
  · show next false m = _
    rw [hno]
    rfl
  · show next' false m' = _
    rw [hno']
    rfl

/-- A file is written, and if it cannot be the rendering fails. -/
theorem write {next : Bool → Run γ} {next' : Bool → Run δ} (path text : String)
    (hnamed : named "toFile") (h : Alike named rel' (next true) (next' true)) {cause : Cause}
    (hno : next false = Run.raise cause) (hno' : next' false = Run.raise cause) :
    Alike named rel' (write path text >>= next) (Run.write path text >>= next') := by
  intro m m' hm
  refine .write path text hnamed ⟨{ cause }, ?_, ?_⟩ (h m m' hm)
  · show next false m = _
    rw [hno]
    rfl
  · show next' false m' = _
    rw [hno']
    rfl

/-! ### Rows of steps -/

theorem mapM {step : α → Run β} {good : β → Prop} {items : List α}
    (h : ∀ a ∈ items, Steady named good (step a)) :
    Steady named (fun all => ∀ b ∈ all, good b) (items.mapM step) := by
  induction items with
  | nil =>
      rw [List.mapM_nil]
      exact pure (Both.rfl (by simp))
  | cons a rest ih =>
      rw [List.mapM_cons]
      refine (h a List.mem_cons_self).andThen fun b hb => ?_
      refine (ih fun a ha => h a (List.mem_cons_of_mem _ ha)).andThen fun all hall => ?_
      exact pure (Both.rfl (List.forall_mem_cons.mpr ⟨hb, hall⟩))

theorem forM {step step' : α → Run PUnit} {items : List α}
    (h : ∀ a ∈ items, Alike named (Both Any) (step a) (step' a)) :
    Alike named (Both Any) (items.forM step) (items.forM step') := by
  induction items with
  | nil => exact pure (Both.rfl trivial)
  | cons a rest ih =>
      show Alike named (Both Any) (step a >>= fun _ => rest.forM step)
        (step' a >>= fun _ => rest.forM step')
      refine (h a List.mem_cons_self).bind fun _ _ _ => ?_
      exact ih fun b hb => h b (List.mem_cons_of_mem _ hb)

theorem foldlM {step : γ → α → Run γ} {good : γ → Prop} {items : List α} {c : γ} (hc : good c)
    (h : ∀ c, good c → ∀ a ∈ items, Steady named good (step c a)) :
    Steady named good (items.foldlM step c) := by
  induction items generalizing c with
  | nil => exact pure (Both.rfl hc)
  | cons a rest ih =>
      rw [List.foldlM_cons]
      refine (h c hc a List.mem_cons_self).andThen fun c' hc' => ?_
      exact ih hc' fun c hc b hb => h c hc b (List.mem_cons_of_mem _ hb)

end Alike

end Run

end Stencil.Template
