import Mathlib
import Stencil.Proofs.Template.Levels

/-!
# Levels that are enough

Every function of an evaluation is, with some levels, what it is with more, up to where it is exhausted; and it
is not exhausted if it was given as many as the limits call for and the text that it follows. The functions
that it starts get one level less and follow a smaller text, or are inside of a frame or behind a load. So
all of them come out by induction on the levels (`Enough.all`).
-/

namespace Stencil.Template

namespace Run

variable {α β : Type} {full : Prop} {limits : Limits} {fuel fuel' : Nat}

/-! ## Steps at one point -/

section Here

variable {size loads : Nat} {post : Nat → β × Machine → Prop} {m : Machine}

theorem get_here {next next' : Machine → Run β}
    (h : Rendering.Upto full size post loads (next m m) (next' m m)) :
    Rendering.Upto full size post loads ((get >>= next) m) ((get >>= next') m) := h

theorem set_here {start : Machine} {next next' : PUnit → Run β}
    (h : Rendering.Upto full size post loads (next PUnit.unit start) (next' PUnit.unit start)) :
    Rendering.Upto full size post loads ((set start >>= next) m) ((set start >>= next') m) := h

theorem modify_here {f : Machine → Machine} {next next' : PUnit → Run β}
    (h : Rendering.Upto full size post loads (next PUnit.unit (f m)) (next' PUnit.unit (f m))) :
    Rendering.Upto full size post loads ((modify f >>= next) m) ((modify f >>= next') m) := h

theorem bind_here {mid : Nat → α × Machine → Prop} {step step' : Run α} {next next' : α → Run β}
    (h : Rendering.Upto full size mid loads (step m) (step' m))
    (hnext : ∀ left a m', mid left (a, m') →
      Rendering.Upto full size post left (next a m') (next' a m')) :
    Rendering.Upto full size post loads ((step >>= next) m) ((step' >>= next') m) :=
  h.bind fun left result hresult => hnext left result.1 result.2 hresult

theorem quiet_here {step : Run α} {next next' : α → Run β} (hstep : Quiet step)
    (hnext : ∀ a m', m.SameFooting m' → Rendering.Upto full size post loads (next a m') (next' a m')) :
    Rendering.Upto full size post loads ((step >>= next) m) ((step >>= next') m) := by
  have hbind : ∀ next : α → Run β, (step >>= next) m =
      (step m).bind fun result => next result.1 result.2 := fun _ => rfl
  rw [hbind, hbind]
  rcases hstep m with ⟨fault, hfail⟩ | ⟨a, m', hdone, hfooting⟩
  · rw [hfail]
    exact .fail fault
  · rw [hdone]
    exact hnext a m' hfooting

theorem ofExcept_here {result : Except Cause α} {next next' : α → Run β}
    (h : ∀ a, Rendering.Upto full size post loads (next a m) (next' a m)) :
    Rendering.Upto full size post loads ((ofExcept result >>= next) m) ((ofExcept result >>= next') m) := by
  cases result with
  | ok a => exact h a
  | error cause => exact .fail _

theorem checkDepth_here {next next' : PUnit → Run β} (h : m.outer + m.frames.length ≤ maxFrames →
      Rendering.Upto full size post loads (next PUnit.unit m) (next' PUnit.unit m)) :
    Rendering.Upto full size post loads ((checkDepth >>= next) m) ((checkDepth >>= next') m) := by
  have hbind : ∀ next : PUnit → Run β, (checkDepth >>= next) m =
      (checkDepth m).bind fun result => next result.1 result.2 := fun _ => rfl
  rw [hbind, hbind, Upto.checkDepth_apply]
  split
  · exact .fail _
  · exact h (by omega)

end Here

/-! ## Steps on other steps -/

/-- What would come after a fault does not matter. -/
theorem loadFault_bind {good : β → Prop} {next next' : α → Run β} (name : String) (fault : LoadFault) :
    Upto full limits good ((fun _ => Rendering.loadFault name fault : Run α) >>= next)
      ((fun _ => Rendering.loadFault name fault : Run α) >>= next') := by
  intro _ _ _ _
  cases fault <;> exact .fail _

theorem Upto.raise_bind {good : β → Prop} {cause : Cause} {next next' : α → Run β} :
    Upto full limits good (Run.raise cause >>= next) (Run.raise cause >>= next') :=
  fun _ _ _ _ => .fail _

theorem loaded_upto {good : β → Prop} {next next' : Document → Run β} (name : String)
    (h : ∀ left document, limits.loads = left + 1 → document.size ≤ limits.size →
      Upto full { limits with loads := left } good (next document) (next' document)) :
    Upto full limits good (loaded name >>= next) (loaded name >>= next') := by
  unfold loaded
  rw [bind_assoc, bind_assoc]
  exact Upto.load name (fun fault => loadFault_bind name fault) h

theorem firstLoaded_upto {good : β → Prop} {next next' : Option Document → Run β} (names : List Datum)
    (hnone : Upto full limits good (next none) (next' none))
    (h : ∀ left document, limits.loads = left + 1 → document.size ≤ limits.size →
      Upto full { limits with loads := left } good (next (some document)) (next' (some document))) :
    Upto full limits good (firstLoaded names >>= next) (firstLoaded names >>= next') := by
  induction names with
  | nil => exact hnone
  | cons d rest ih =>
      unfold firstLoaded
      split
      · rename_i name _
        rw [bind_assoc, bind_assoc]
        refine Upto.load name (fun fault => ?_) h
        split
        · contradiction
        · exact ih
        · exact loadFault_bind name _
      · exact .raise_bind

theorem layersOf_fits {document : Document} {size : Nat} (h : document.size ≤ size) :
    ∀ entry ∈ layersOf document, entry.2.Fits size := by
  intro entry hentry
  obtain ⟨block, hblock, rfl⟩ := List.mem_map.mp hentry
  exact List.forall_mem_singleton.mpr
    (Nat.le_trans (sizeOf_le_of_mem_blocksOf document.body block hblock) h)

theorem withLayers_fits {blocks : Entries BlockLayers} {parent : Document} {size : Nat}
    (h : ∀ entry ∈ blocks, entry.2.Fits size) (hparent : parent.size ≤ size) :
    ∀ entry ∈ withLayers blocks parent, entry.2.Fits size := by
  refine List.foldlRecOn parent.blocks _
    (motive := fun acc : Entries BlockLayers => ∀ entry ∈ acc, entry.2.Fits size) h
    fun acc hacc block hblock => ?_
  have hold : ((Entries.get? block.1 acc).getD { layers := [] }).Fits size := by
    cases hget : Entries.get? block.1 acc with
    | none => exact List.forall_mem_nil _
    | some old => exact forall_get? hacc hget
  have hnew : sizeOf block.2 ≤ size :=
    Nat.le_trans (sizeOf_le_of_mem_blocksOf parent.body block hblock) hparent
  exact forall_put hacc (List.forall_mem_append.mpr ⟨hold, List.forall_mem_singleton.mpr hnew⟩)

/-- There is a parent only after a template was loaded. -/
theorem extend_upto (d : Datum) : Upto full limits Any (extend d) (extend d) := by
  have hload : ∀ name, Upto full limits Any (do
      let document ← loaded name
      modify fun m => { m with
        extended := document.name :: m.extended
        blocks := withLayers m.blocks document
        parent? := some document
        muted := true }) (do
      let document ← loaded name
      modify fun m => { m with
        extended := document.name :: m.extended
        blocks := withLayers m.blocks document
        parent? := some document
        muted := true }) := by
    intro name loads hloads m hm
    refine .load name (fun fault => ?_) fun left document hleft hsize => ?_
    · cases fault <;> exact .fail _
    · have hfits : ∀ parent ∈ some document, parent.size ≤ limits.size :=
        fun _ h => Option.some.inj h ▸ hsize
      exact .done ⟨trivial, { hm with blocks := withLayers_fits hm.blocks hsize, parent := hfits },
        by omega, rfl, rfl, fun _ => Or.inr (by omega)⟩
  refine .get fun m _ => ?_
  dsimp only
  split
  · exact .raise_bind
  split
  · refine .get fun m _ => ?_
    split
    · exact .raise_bind
    · exact hload _
  · exact .raise _

theorem evaluateArguments_upto {step step' : Expr → Run Datum} {args : List Argument}
    (caller? : Option Datum)
    (hstep : ∀ e : Expr, sizeOf e < sizeOf args → Upto full limits Any (step e) (step' e)) :
    Upto full limits Any (evaluateArguments step args caller?) (evaluateArguments step' args caller?) := by
  unfold evaluateArguments
  refine Upto.bind (Upto.foldlM _ fun acc a ha => ?_) fun acc _ => .pure trivial
  have hsize := List.sizeOf_lt_of_mem ha
  obtain ⟨positional, named?⟩ := acc
  dsimp only
  cases a with
  | positional e =>
      have he : sizeOf e < sizeOf args := by
        simp only [Argument.positional.sizeOf_spec] at hsize
        omega
      exact (hstep e he).bind fun _ _ => .pure trivial
  | spread e =>
      have he : sizeOf e < sizeOf args := by
        simp only [Argument.spread.sizeOf_spec] at hsize
        omega
      exact (hstep e he).thenQuiet fun d => (itemsOf_quiet d).bind fun _ => .pure _
  | named name e =>
      have he : sizeOf e < sizeOf args := by
        simp only [Argument.named.sizeOf_spec] at hsize
        omega
      exact (hstep e he).bind fun _ _ => .pure trivial
  | spreadNamed e =>
      have he : sizeOf e < sizeOf args := by
        simp only [Argument.spreadNamed.sizeOf_spec] at hsize
        omega
      exact (hstep e he).thenQuiet fun d => (namedEntries_quiet d).bind fun _ => .pure _

theorem assignTo_upto {step step' : Expr → Run Datum} (hle : fuel ≤ fuel') {target : Target}
    (hstep : ∀ e : Expr, sizeOf e < sizeOf target → Upto full limits Any (step e) (step' e))
    (hfuel : full → sizeOf target ≤ fuel) (d : Datum) :
    Upto full limits Any (assignTo step fuel target d) (assignTo step' fuel' target d) := by
  induction fuel generalizing fuel' target d with
  | zero =>
      refine .exhausted fun hfull => ?_
      have := hfuel hfull
      cases target <;> simp at this
  | succ fuel ih =>
      obtain ⟨fuel', rfl⟩ : ∃ n, fuel' = n + 1 := ⟨fuel' - 1, by omega⟩
      cases target with
      | «variable» name => exact (assign_quiet name d).upto
      | «attribute» object name =>
          have hobject : sizeOf object < sizeOf (Target.attribute object name) := by
            simp only [Target.attribute.sizeOf_spec]
            omega
          refine (hstep object hobject).thenQuiet fun found => ?_
          split
          · exact modifyStore_quiet fun _ => rfl
          · exact .raise _
      | several targets =>
          refine .after (unpacked_quiet _ d) fun items => .forM fun entry hentry => ?_
          have hsize := List.sizeOf_lt_of_mem (List.of_mem_zip hentry).1
          simp only [Target.several.sizeOf_spec] at hstep hfuel
          refine ih (by omega) (fun e he => hstep e (by omega)) (fun hfull => ?_) entry.2
          have := hfuel hfull
          omega

theorem makeMacro_upto (name : String) (parameters : List String) {defaults : List Expr}
    {body : List Statement} (hdefaults : sizeOf defaults ≤ limits.size) (hbody : sizeOf body ≤ limits.size) :
    Upto full limits Any (makeMacro name parameters defaults body)
      (makeMacro name parameters defaults body) := by
  unfold makeMacro
  refine .after (Quiet.forM capture_quiet _) fun _ => .get fun m _ => .after frame_quiet fun frame => ?_
  refine Upto.bind (Upto.changing (fun m hm => ?_) (fun _ => rfl) (fun _ => rfl) fun _ => rfl) fun _ _ =>
    .pure trivial
  exact { hm with macros := forall_mem_push hm.macros ⟨hdefaults, hbody⟩ }

theorem setLayer_upto (name : String) (depth : Nat) :
    Upto full limits Any (setLayer name depth) (setLayer name depth) := by
  refine .changing (fun m hm => ?_) (fun m => ?_) (fun m => ?_) fun m => ?_
  · split
    · rename_i block hblock
      have hlayers : block.Fits limits.size := forall_get? hm.blocks hblock
      have hdeep : { block with depth }.Fits limits.size := hlayers
      exact { hm with blocks := forall_put hm.blocks hdeep }
    · exact hm
  all_goals split <;> rfl

theorem innermostLoop?_upto :
    Upto full limits (fun loop? => ∀ loop ∈ loop?, ∀ again ∈ loop.again?, sizeOf again ≤ limits.size)
      innermostLoop? innermostLoop? := by
  refine .get fun m hm => .pure fun loop hloop => ?_
  obtain ⟨frame, hframe, hsome⟩ := List.exists_of_findSome?_eq_some hloop
  exact hm.loops _ (List.mem_map_of_mem hframe) loop hsome

/-! ## Evaluation proper -/

/-- **Whether so many levels are as good as more**, up to where an evaluation is exhausted; and if it was
given enough (`full`), it is not. -/
structure Enough (full : Prop) (fuel fuel' : Nat) : Prop where
  le : fuel ≤ fuel'
  expression : ∀ {limits : Limits} (e : Expr), (full → limits.levels + 2 * sizeOf e + 8 ≤ fuel) →
    Upto full limits Any (expression fuel e) (expression fuel' e)
  call : ∀ {limits : Limits} (callee : Expr) (args : List Argument) (caller? : Option Datum),
    (full → limits.levels + 2 * (sizeOf callee + sizeOf args) + 9 ≤ fuel) →
    Upto full limits Any (call fuel callee args caller?) (call fuel' callee args caller?)
  callDatum : ∀ {limits : Limits} (f : Datum) (args : List Datum),
    (full → limits.levels + 2 * min args.length 2 + 2 ≤ fuel) →
    Upto full limits Any (callDatum fuel f args) (callDatum fuel' f args)
  callMethod : ∀ {limits : Limits} (d : Datum) (name : String) (args : List Datum),
    (full → limits.levels + 7 ≤ fuel) →
    Upto full limits Any (callMethod fuel d name args) (callMethod fuel' d name args)
  callMacro : ∀ {limits : Limits} (head : MacroHead) (args : List Datum), (full → limits.levels + 1 ≤ fuel) →
    Upto full limits Any (callMacro fuel head args) (callMacro fuel' head args)
  renderNamed : ∀ {limits : Limits} (name : String) (data? : Option Datum),
    (full → limits.levels + 2 * data?.toList.length + 3 ≤ fuel) →
    Upto full limits Any (renderNamed fuel name data?) (renderNamed fuel' name data?)
  renderLoaded : ∀ {limits : Limits} (name : String) (data? : Option Datum),
    (full → limits.levels + 1 ≤ fuel) →
    Upto full limits Any (renderLoaded fuel name data?) (renderLoaded fuel' name data?)
  renderDocument : ∀ {limits : Limits} (document : Document) (data : Datum), document.size ≤ limits.size →
    (full → limits.fresh.levels + 2 * limits.size + 10 ≤ fuel) →
    Upto full limits Any (renderDocument fuel document data) (renderDocument fuel' document data)
  segment : ∀ {limits : Limits} (name : String) (body : List Statement), sizeOf body ≤ limits.size →
    (full → limits.levels + 2 * limits.size + 9 ≤ fuel) →
    Upto full limits Any (segment fuel name body) (segment fuel' name body)
  callBlock : ∀ {limits : Limits} (name : String), (full → limits.levels + 1 ≤ fuel) →
    Upto full limits Any (callBlock fuel name) (callBlock fuel' name)
  parentBlock : ∀ {limits : Limits}, (full → limits.levels + 1 ≤ fuel) →
    Upto full limits Any (parentBlock fuel) (parentBlock fuel')
  loopAgain : ∀ {limits : Limits} (d : Datum), (full → limits.levels + 2 ≤ fuel) →
    Upto full limits Any (loopAgain fuel d) (loopAgain fuel' d)
  loopOver : ∀ {limits : Limits} (loop : LoopBody) (recursive : Bool) (items : List Datum) (counted : Bool),
    sizeOf loop ≤ limits.size → (full → limits.levels + 1 ≤ fuel) →
    Upto full limits Any (loopOver fuel loop recursive items counted)
      (loopOver fuel' loop recursive items counted)
  filtered : ∀ {limits : Limits} (target : Target) (test : Expr) (items : List Datum),
    sizeOf target + sizeOf test ≤ limits.size → (full → limits.levels + 1 ≤ fuel) →
    Upto full limits Any (filtered fuel target test items) (filtered fuel' target test items)
  splice : ∀ {limits : Limits} (d : Datum) (ignoreMissing : Bool), (full → limits.levels + 1 ≤ fuel) →
    Upto full limits Any (splice fuel d ignoreMissing) (splice fuel' d ignoreMissing)
  statement : ∀ {limits : Limits} (s : Statement), sizeOf s ≤ limits.size →
    (full → limits.levels + 2 * sizeOf s + 8 ≤ fuel) →
    Upto full limits Any (statement fuel s) (statement fuel' s)
  filterText : ∀ {limits : Limits} (filters : List FilterCall) (d : Datum),
    (full → limits.levels + 2 * sizeOf filters + 8 ≤ fuel) →
    Upto full limits Any (filterText fuel filters d) (filterText fuel' filters d)

namespace Enough

theorem zero (fuel' : Nat) : Enough full 0 fuel' where
  le := Nat.zero_le _
  expression _ h := .exhausted fun hfull => by have := h hfull; omega
  call _ _ _ h := .exhausted fun hfull => by have := h hfull; omega
  callDatum _ _ h := .exhausted fun hfull => by have := h hfull; omega
  callMethod _ _ _ h := .exhausted fun hfull => by have := h hfull; omega
  callMacro _ _ h := .exhausted fun hfull => by have := h hfull; omega
  renderNamed _ _ h := .exhausted fun hfull => by have := h hfull; omega
  renderLoaded _ _ h := .exhausted fun hfull => by have := h hfull; omega
  renderDocument _ _ _ h := .exhausted fun hfull => by have := h hfull; omega
  segment _ _ _ h := .exhausted fun hfull => by have := h hfull; omega
  callBlock _ h := .exhausted fun hfull => by have := h hfull; omega
  parentBlock h := .exhausted fun hfull => by have := h hfull; omega
  loopAgain _ h := .exhausted fun hfull => by have := h hfull; omega
  loopOver _ _ _ _ _ h := .exhausted fun hfull => by have := h hfull; omega
  filtered _ _ _ _ h := .exhausted fun hfull => by have := h hfull; omega
  splice _ _ h := .exhausted fun hfull => by have := h hfull; omega
  statement _ _ h := .exhausted fun hfull => by have := h hfull; omega
  filterText _ _ h := .exhausted fun hfull => by have := h hfull; omega

variable (h : Enough full fuel fuel')
include h

theorem arguments {args : List Argument} (caller? : Option Datum)
    (hfuel : full → limits.levels + 2 * sizeOf args + 6 ≤ fuel) :
    Upto full limits Any (evaluateArguments (Run.expression fuel) args caller?)
      (evaluateArguments (Run.expression fuel') args caller?) :=
  evaluateArguments_upto caller? fun e he => h.expression e fun hfull => by
    have := hfuel hfull
    omega

theorem assigning {target : Target} (hfuel : full → limits.levels + 2 * sizeOf target + 6 ≤ fuel)
    (d : Datum) :
    Upto full limits Any (assignTo (Run.expression fuel) fuel target d)
      (assignTo (Run.expression fuel') fuel' target d) := by
  refine assignTo_upto h.le (fun e he => h.expression e fun hfull => ?_) (fun hfull => ?_) d
  · have := hfuel hfull
    omega
  · have := hfuel hfull
    omega

theorem body {body : List Statement} (hbody : sizeOf body ≤ limits.size)
    (hfuel : full → limits.levels + 2 * sizeOf body + 6 ≤ fuel) :
    Upto full limits Any (runAll (Run.statement fuel) body) (runAll (Run.statement fuel') body) := by
  refine .runAll fun s hs => ?_
  have hsize := List.sizeOf_lt_of_mem hs
  refine h.statement s (by omega) fun hfull => ?_
  have := hfuel hfull
  omega

omit h in
theorem binary_succ (op : BinaryOp) {left right : Expr}
    (hleft : Upto full limits Any (Run.expression fuel left) (Run.expression fuel' left))
    (hright : Upto full limits Any (Run.expression fuel right) (Run.expression fuel' right)) :
    Upto full limits Any (Run.expression (fuel + 1) (.binary op left right))
      (Run.expression (fuel' + 1) (.binary op left right)) := by
  have hrest : ∀ op : BinaryOp, Upto full limits Any (do
      let a ← Run.expression fuel left
      let b ← Run.expression fuel right
      ofExcept (op.apply (← settled a) (← settled b))) (do
      let a ← Run.expression fuel' left
      let b ← Run.expression fuel' right
      ofExcept (op.apply (← settled a) (← settled b))) := by
    intro op
    refine hleft.bind fun a _ => hright.thenQuiet fun b => ?_
    exact (settled_quiet a).bind fun a => (settled_quiet b).bind fun b => .lift _
  cases op with
  | and =>
      refine hleft.bind fun a _ => .after (settled_quiet a) fun test => ?_
      split
      · exact hright
      · exact .pure trivial
  | or =>
      refine hleft.bind fun a _ => .after (settled_quiet a) fun test => ?_
      split
      · exact .pure trivial
      · exact hright
  | _ => exact hrest _

theorem expression_succ {e : Expr} (hfuel : full → limits.levels + 2 * sizeOf e + 8 ≤ fuel + 1) :
    Upto full limits Any (Run.expression (fuel + 1) e) (Run.expression (fuel' + 1) e) := by
  -- A part of the expression is smaller, which makes up for the level.
  have hpart : ∀ part : Expr, sizeOf part < sizeOf e →
      Upto full limits Any (Run.expression fuel part) (Run.expression fuel' part) := by
    intro part hsize
    refine h.expression part fun hfull => ?_
    have := hfuel hfull
    omega
  have harguments : ∀ args : List Argument, sizeOf args < sizeOf e →
      Upto full limits Any (evaluateArguments (Run.expression fuel) args none)
        (evaluateArguments (Run.expression fuel') args none) := by
    intro args hsize
    refine h.arguments none fun hfull => ?_
    have := hfuel hfull
    omega
  cases e with
  | literal value => exact .pure trivial
  | «variable» name => exact .after (lookup?_quiet name) fun _ => .pure trivial
  | list items =>
      refine Upto.bind (.mapM fun e he => hpart e ?_) fun _ _ => .pure trivial
      have := List.sizeOf_lt_of_mem he
      simp only [Expr.list.sizeOf_spec]
      omega
  | map entries =>
      refine Upto.bind (.mapM fun entry hentry => ?_) fun _ _ => .pure trivial
      obtain ⟨key, value⟩ := entry
      have hsize := List.sizeOf_lt_of_mem hentry
      simp only [Prod.mk.sizeOf_spec] at hsize
      have hkey := hpart key (by simp only [Expr.map.sizeOf_spec]; omega)
      have hvalue := hpart value (by simp only [Expr.map.sizeOf_spec]; omega)
      exact hkey.bind fun key _ => hvalue.thenQuiet fun value => (settled_quiet key).bind fun _ => .pure _
  | unary op operand =>
      have hoperand := hpart operand (by simp only [Expr.unary.sizeOf_spec]; omega)
      exact hoperand.thenQuiet fun d => (settled_quiet d).bind fun d => .lift _
  | binary op left right =>
      have hleft := hpart left (by simp only [Expr.binary.sizeOf_spec]; omega)
      have hright := hpart right (by simp only [Expr.binary.sizeOf_spec]; omega)
      exact binary_succ op hleft hright
  | choice test value otherwise =>
      have htest := hpart test (by simp only [Expr.choice.sizeOf_spec]; omega)
      refine htest.bind fun d _ => .after (settled_quiet d) fun d => ?_
      split
      · exact hpart value (by simp only [Expr.choice.sizeOf_spec]; omega)
      · cases otherwise with
        | some other =>
            exact hpart other (by simp only [Expr.choice.sizeOf_spec, Option.some.sizeOf_spec]; omega)
        | none => exact .pure trivial
  | «attribute» object name =>
      have hobject := hpart object (by simp only [Expr.attribute.sizeOf_spec]; omega)
      exact hobject.thenQuiet fun d => attributeOf_quiet d name
  | item object key =>
      have hobject := hpart object (by simp only [Expr.item.sizeOf_spec]; omega)
      have hkey := hpart key (by simp only [Expr.item.sizeOf_spec]; omega)
      refine hobject.bind fun d _ => hkey.thenQuiet fun key => ?_
      exact (settled_quiet key).bind fun key => itemAt_quiet d key
  | slice object start stop step =>
      have hobject := hpart object (by simp only [Expr.slice.sizeOf_spec]; omega)
      refine hobject.bind fun d _ => ?_
      refine Upto.bind (show Upto full limits Any _ _ from ?_) fun start _ =>
        Upto.bind (show Upto full limits Any _ _ from ?_) fun stop _ =>
          Upto.bind (show Upto full limits Any _ _ from ?_) fun step _ => (Quiet.lift _).upto
      all_goals
        dsimp only
        split
      · exact hpart _ (by simp only [Expr.slice.sizeOf_spec, Option.some.sizeOf_spec]; omega)
      · exact .pure trivial
      · exact hpart _ (by simp only [Expr.slice.sizeOf_spec, Option.some.sizeOf_spec]; omega)
      · exact .pure trivial
      · exact hpart _ (by simp only [Expr.slice.sizeOf_spec, Option.some.sizeOf_spec]; omega)
      · exact .pure trivial
  | call callee args =>
      refine h.call callee args none fun hfull => ?_
      have := hfuel hfull
      simp only [Expr.call.sizeOf_spec] at this
      omega
  | filter operand name args =>
      have hoperand := hpart operand (by simp only [Expr.filter.sizeOf_spec]; omega)
      have hargs := harguments args (by simp only [Expr.filter.sizeOf_spec]; omega)
      exact hoperand.bind fun d _ => hargs.thenQuiet fun args => applyFilter_quiet name (d :: args)
  | check operand name args =>
      have hoperand := hpart operand (by simp only [Expr.check.sizeOf_spec]; omega)
      have hargs := harguments args (by simp only [Expr.check.sizeOf_spec]; omega)
      exact hoperand.bind fun d _ => hargs.thenQuiet fun args => applyCheck_quiet name (d :: args)

theorem call_succ {callee : Expr} {args : List Argument} (caller? : Option Datum)
    (hfuel : full → limits.levels + 2 * (sizeOf callee + sizeOf args) + 9 ≤ fuel + 1) :
    Upto full limits Any (Run.call (fuel + 1) callee args caller?)
      (Run.call (fuel' + 1) callee args caller?) := by
  have harguments : Upto full limits Any (evaluateArguments (Run.expression fuel) args caller?)
      (evaluateArguments (Run.expression fuel') args caller?) := by
    refine h.arguments caller? fun hfull => ?_
    have := hfuel hfull
    omega
  have hpart : ∀ part : Expr, sizeOf part ≤ sizeOf callee →
      Upto full limits Any (Run.expression fuel part) (Run.expression fuel' part) := by
    intro part hsize
    refine h.expression part fun hfull => ?_
    have := hfuel hfull
    omega
  have hdatum : ∀ f args, Upto full limits Any (Run.callDatum fuel f args) (Run.callDatum fuel' f args) := by
    intro f args
    refine h.callDatum f args fun hfull => ?_
    have := hfuel hfull
    omega
  unfold Run.call
  split
  · refine harguments.bind fun args _ => ?_
    split
    · split
      · refine h.parentBlock fun hfull => ?_
        have := hfuel hfull
        omega
      · exact .raise _
    · split
      · refine h.loopAgain _ fun hfull => ?_
        have := hfuel hfull
        omega
      · exact .raise _
    · refine .after (lookup?_quiet _) fun d? => ?_
      split
      · exact hdatum _ _
      · exact .raise _
  · refine (Upto.captured (h.callBlock _ fun hfull => ?_)).thenQuiet fun result => capturedText_quiet _
    have := hfuel hfull
    omega
  · rename_i object name _
    refine (hpart object (by simp only [Expr.attribute.sizeOf_spec]; omega)).bind fun d _ => ?_
    refine harguments.bind fun args _ => h.callMethod d _ args fun hfull => ?_
    have := hfuel hfull
    omega
  · exact (hpart _ (Nat.le_refl _)).bind fun f _ => harguments.bind fun args _ => hdatum f args

omit h in
/-- A name and data are read from at least two arguments; from one, a name only. -/
theorem include_reads {args : List Datum} {name : String} {data? : Option Datum}
    (hread : Reading.run (do
      let name ← Reading.required Reading.asText
      let data? ← Reading.optional Reading.asAny
      pure (name, data?)) args = .ok (name, data?)) :
    data?.toList.length + 1 ≤ min args.length 2 := by
  match args with
  | [] => cases hread
  | [d] =>
      have hnone : data? = none := by
        cases d with
        | text s safe => cases hread; rfl
        | _ => cases hread
      simp [hnone]
  | _ :: _ :: _ =>
      have : data?.toList.length ≤ 1 := by cases data? <;> simp
      simp only [List.length_cons]
      omega

omit h in
/-- A path, a name and data are read from at least three arguments; from two, a path and a name only. -/
theorem toFile_reads {args : List Datum} {path name : String} {data? : Option Datum}
    (hread : Reading.run (do
      let path ← Reading.required Reading.asText
      let name ← Reading.required Reading.asText
      let data? ← Reading.optional Reading.asAny
      pure (path, name, data?)) args = .ok (path, name, data?)) :
    data?.toList.length + 1 ≤ min args.length 2 := by
  match args with
  | [] => cases hread
  | [d] => cases d <;> cases hread
  | _ :: _ :: _ =>
      have : data?.toList.length ≤ 1 := by cases data? <;> simp
      simp only [List.length_cons]
      omega

omit h in
theorem ofExcept_upto {good : β → Prop} {result : Except Cause α} {next next' : α → Run β}
    (h : ∀ a, result = .ok a → Upto full limits good (next a) (next' a)) :
    Upto full limits good (ofExcept result >>= next) (ofExcept result >>= next') := by
  cases result with
  | ok a => exact h a rfl
  | error cause => exact .raise_bind

theorem callDatum_succ {f : Datum} {args : List Datum}
    (hfuel : full → limits.levels + 2 * min args.length 2 + 2 ≤ fuel + 1) :
    Upto full limits Any (Run.callDatum (fuel + 1) f args) (Run.callDatum (fuel' + 1) f args) := by
  unfold Run.callDatum
  split
  · refine h.callMacro _ args fun hfull => ?_
    have := hfuel hfull
    omega
  · exact (makeSpace_quiet args).upto
  · refine ofExcept_upto fun result hread => ?_
    obtain ⟨name, data?⟩ := result
    have hdata := include_reads hread
    refine (h.renderNamed name data? fun hfull => ?_).bind fun _ _ => .pure trivial
    have := hfuel hfull
    omega
  · refine ofExcept_upto fun result hread => ?_
    obtain ⟨path, name, data?⟩ := result
    have hdata := toFile_reads hread
    refine .after (lookup?_quiet _) fun writer? => ?_
    split
    · refine (Upto.permit path).bind fun allowed _ => ?_
      split
      · refine (h.renderNamed name data? fun hfull => ?_).bind fun text _ => ?_
        · have := hfuel hfull
          omega
        · refine (Upto.write path text).bind fun written _ => ?_
          split
          · exact .pure trivial
          · exact .raise _
      · exact .raise _
    · exact .raise _
  · exact ((Quiet.mapM settled_quiet args).bind fun _ => .lift _).upto
  · exact .raise _
  · exact .raise _

theorem callMethod_succ {d : Datum} {name : String} {args : List Datum}
    (hfuel : full → limits.levels + 7 ≤ fuel + 1) :
    Upto full limits Any (Run.callMethod (fuel + 1) d name args)
      (Run.callMethod (fuel' + 1) d name args) := by
  unfold Run.callMethod
  split
  · rename_i place
    have hanswer : ∀ same : Bool, Quiet (if same then pure (.bool false) else do
        modifyLoop place fun loop => { loop with last? := some args }
        pure (.bool true) : Run Datum) := by
      intro same
      split
      · exact .pure _
      · exact (modifyLoop_quiet place _).bind fun _ => .pure _
    exact ((loopAt_quiet place).bind fun loop => hanswer _).upto
  · exact ((loopAt_quiet _).bind fun loop => .pure _).upto
  · exact .raise _
  · refine .after (opened_quiet _) fun d => ?_
    split
    · refine h.callDatum _ args fun hfull => ?_
      have := hfuel hfull
      omega
    · exact .raise _

theorem renderNamed_succ {name : String} {data? : Option Datum}
    (hfuel : full → limits.levels + 2 * data?.toList.length + 3 ≤ fuel + 1) :
    Upto full limits Any (Run.renderNamed (fuel + 1) name data?)
      (Run.renderNamed (fuel' + 1) name data?) := by
  have hload : Upto full limits Any (Run.renderLoaded fuel name data?)
      (Run.renderLoaded fuel' name data?) := by
    refine h.renderLoaded name data? fun hfull => ?_
    have := hfuel hfull
    omega
  refine .after (lookup?_quiet name) fun found => ?_
  split
  · exact hload
  · exact hload
  · refine (h.callDatum _ _ fun hfull => ?_).thenQuiet fun d => (settled_quiet d).bind fun _ => .pure _
    have := hfuel hfull
    omega

theorem renderLoaded_succ {name : String} {data? : Option Datum}
    (hfuel : full → limits.levels + 1 ≤ fuel + 1) :
    Upto full limits Any (Run.renderLoaded (fuel + 1) name data?)
      (Run.renderLoaded (fuel' + 1) name data?) := by
  unfold Run.renderLoaded
  refine loaded_upto name fun left document hleft hsize => .after (freshData_quiet data?) fun data => ?_
  refine h.renderDocument document data hsize fun hfull => ?_
  have hbelow := (Limits.below_fresh hleft).levels
  have := hfuel hfull
  simp only [Limits.fresh] at hbelow ⊢
  omega

theorem callMacro_succ {head : MacroHead} {args : List Datum} (hfuel : full → limits.levels + 1 ≤ fuel + 1) :
    Upto full limits Any (Run.callMacro (fuel + 1) head args) (Run.callMacro (fuel' + 1) head args) := by
  intro loads hloads m hm
  have hmade : sizeOf (m.store.macros[head.place]?.getD default).defaults ≤ limits.size ∧
      sizeOf (m.store.macros[head.place]?.getD default).body ≤ limits.size :=
    @forall_getD _ (fun made : MacroBody => sizeOf made.defaults ≤ limits.size ∧
      sizeOf made.body ≤ limits.size) _ head.place _ hm.macros ⟨hm.size, hm.size⟩
  unfold Run.callMacro
  refine get_here ?_
  dsimp only
  by_cases hhome : head.home ≠ m.home
  · rw [if_pos hhome, if_pos hhome]
    exact .fail _
  rw [if_neg hhome, if_neg hhome]
  refine ofExcept_here fun result => ?_
  obtain ⟨values, caller?⟩ := result
  generalize m.store.macros[head.place]?.getD default = made at hmade ⊢
  refine set_here ?_
  refine checkDepth_here fun hroom => ?_
  -- There is room for the frames of the macro, so there is one less to open inside of it.
  obtain ⟨frames, hframes⟩ : ∃ frames, limits.frames = frames + 1 := by
    have := hm.room
    simp only [List.length_cons, List.length_nil] at hroom
    exact ⟨limits.frames - 1, by omega⟩
  have hbelow := (Limits.below_frame hframes).levels
  have hlast : Returns full { limits with frames } limits m loads
      (do
        Run.segment fuel made.template made.body
        let after ← get
        set { m with store := after.store }
        capturedText after.out)
      (do
        Run.segment fuel' made.template made.body
        let after ← get
        set { m with store := after.store }
        capturedText after.out) := by
    refine Returns.bind rfl hloads (h.segment made.template made.body hmade.2 fun hfull => ?_) fun _ _ => ?_
    · have := hfuel hfull
      simp only at hbelow ⊢
      omega
    · exact .restore rfl hm fun after => capturedText_quiet _
  refine (show Returns full { limits with frames } limits m loads _ _ from ?_) loads (Nat.le_refl _) _ ?_
  · split
    on_goal 1 => refine Returns.bind rfl hloads (assign_quiet _ _).upto fun _ _ => ?_
    -- With a caller or without one, the parameters come next, each with its argument or its default.
    all_goals
      refine Returns.bind rfl hloads (.forM fun entry _ => ?_) fun _ _ => hlast
      split
      · rename_i e _ he
        have hsize := List.sizeOf_lt_of_mem (List.mem_reverse.mp (List.mem_of_getElem? he))
        refine (h.expression e fun hfull => ?_).thenQuiet fun d => assign_quiet _ d
        have := hfuel hfull
        have := hmade.1
        omega
      · exact (assign_quiet _ _).upto
  · exact
      { loops := by simp
        macros := hm.macros
        blocks := List.forall_mem_nil _
        parent := fun _ h => by cases h
        size := hm.size
        room := by
          have := hm.room
          simp only [List.length_cons, List.length_nil]
          omega }

theorem renderDocument_succ {document : Document} {data : Datum} (hsize : document.size ≤ limits.size)
    (hfuel : full → limits.fresh.levels + 2 * limits.size + 10 ≤ fuel + 1) :
    Upto full limits Any (Run.renderDocument (fuel + 1) document data)
      (Run.renderDocument (fuel' + 1) document data) := by
  intro loads hloads m hm
  unfold Run.renderDocument
  refine get_here (set_here ?_)
  have hlast : Returns full limits.fresh limits m loads
      (do
        Run.segment fuel document.name document.body
        let after ← get
        set { m with store := after.store }
        pure after.out)
      (do
        Run.segment fuel' document.name document.body
        let after ← get
        set { m with store := after.store }
        pure after.out) := by
    refine Returns.bind rfl hloads (h.segment document.name document.body hsize fun hfull => ?_) fun _ _ => ?_
    · have := hfuel hfull
      have : limits.fresh.size = limits.size := rfl
      omega
    · exact .restore rfl hm fun after => .pure _
  refine hlast loads (Nat.le_refl _) _ ?_
  exact
    { loops := by simp
      macros := hm.macros
      blocks := layersOf_fits hsize
      parent := fun _ h => by cases h
      size := hm.size
      room := by
        simp only [List.length_cons, List.length_nil, Limits.fresh]
        omega }

theorem segment_succ {name : String} {body : List Statement} (hbody : sizeOf body ≤ limits.size)
    (hfuel : full → limits.levels + 2 * limits.size + 9 ≤ fuel + 1) :
    Upto full limits Any (Run.segment (fuel + 1) name body) (Run.segment (fuel' + 1) name body) := by
  intro loads hloads m hm
  have hstart : Machine.Fits limits { m with template := name, parent? := none } :=
    { hm with parent := fun _ h => by cases h }
  have hrun : Upto full limits Any (runAll (Run.statement fuel) body) (runAll (Run.statement fuel') body) := by
    refine h.body hbody fun hfull => ?_
    have := hfuel hfull
    omega
  unfold Run.segment
  refine get_here (set_here (bind_here ((hrun loads hloads _ hstart).mapFault _) ?_))
  rintro left _ after ⟨-, hfits, hkept⟩
  refine get_here ?_
  cases hparent : after.parent? with
  | some parent =>
    -- There is a parent now, so a template was loaded.
    have hlt : left < loads := (hkept.parent (hparent ▸ rfl)).resolve_left (by simp)
    obtain ⟨rest, hrest⟩ : ∃ rest, limits.loads = rest + 1 := ⟨limits.loads - 1, by omega⟩
    have hbelow := (Limits.below_load hrest).levels
    have hnext : Upto full { limits with loads := rest } Any (Run.segment fuel parent.name parent.body)
        (Run.segment fuel' parent.name parent.body) := by
      refine h.segment parent.name parent.body (hfits.parent parent hparent) fun hfull => ?_
      have := hfuel hfull
      simp only
      omega
    have hinner : Machine.Fits { limits with loads := rest } { after with muted := m.muted } :=
      { hfits with }
    refine modify_here (bind_here (hnext left (by simp only; omega) _ hinner) ?_)
    rintro final _ last ⟨-, hfits', hkept'⟩
    refine .done ⟨trivial, { hfits' with parent := hm.parent }, Nat.le_trans hkept'.le hkept.le, ?_, ?_, Or.inl⟩
    · exact hkept'.outer.trans hkept.outer
    · exact hkept'.frames.trans hkept.frames
  | none =>
    exact .done ⟨trivial, { hfits with parent := hm.parent }, hkept.le, hkept.outer, hkept.frames, Or.inl⟩

/-- A segment in a frame of its own, where the frame makes up for the text. -/
theorem framed (template : String) {body : List Statement} (hbody : sizeOf body ≤ limits.size)
    (hfuel : full → limits.levels ≤ fuel) :
    Upto full limits Any (inFrame {} (Run.segment fuel template body))
      (inFrame {} (Run.segment fuel' template body)) := by
  refine Upto.inFrame (fun _ h => by cases h) fun inner hinner => ?_
  refine h.segment template body (hinner.size ▸ hbody) fun hfull => ?_
  have := hfuel hfull
  have := hinner.levels
  have := hinner.size
  omega

theorem callBlock_succ {name : String} (hfuel : full → limits.levels + 1 ≤ fuel + 1) :
    Upto full limits Any (Run.callBlock (fuel + 1) name) (Run.callBlock (fuel' + 1) name) := by
  unfold Run.callBlock
  have hblock : ∀ block? : Option String, Upto full limits Any
      (modify fun m : Machine => { m with block? }) (modify fun m : Machine => { m with block? }) :=
    fun block? => .changing (fun _ hm => { hm with }) (fun _ => rfl) (fun _ => rfl) fun _ => rfl
  refine .get fun m hm => ?_
  split
  · split
    · rename_i template body hlayer
      have hbody : sizeOf body ≤ limits.size := by
        obtain ⟨block, hblock, hlayer⟩ := Option.bind_eq_some_iff.mp hlayer
        exact forall_get? hm.blocks hblock _ (List.mem_of_getElem? hlayer)
      have hinner := h.framed template hbody fun hfull => Nat.le_of_succ_le_succ (hfuel hfull)
      exact (hblock _).bind fun _ _ => hinner.bind fun _ _ => hblock _
    · exact .raise _
  · exact .pure trivial

theorem parentBlock_succ (hfuel : full → limits.levels + 1 ≤ fuel + 1) :
    Upto full limits Any (Run.parentBlock (fuel + 1)) (Run.parentBlock (fuel' + 1)) := by
  unfold Run.parentBlock
  refine .get fun m _ => ?_
  split
  · exact .raise _
  rename_i name _
  refine .get fun m hm => ?_
  have hblock : ((Entries.get? name m.blocks).getD { layers := [] }).Fits limits.size := by
    cases hget : Entries.get? name m.blocks with
    | none => exact List.forall_mem_nil _
    | some block => exact forall_get? hm.blocks hget
  dsimp only
  split
  · exact .raise _
  · rename_i template body hlayer
    have hbody : sizeOf body ≤ limits.size := hblock _ (List.mem_of_getElem? hlayer)
    have hinner := h.framed template hbody fun hfull => Nat.le_of_succ_le_succ (hfuel hfull)
    refine (setLayer_upto name _).bind fun _ _ => (hinner.captured.mapFault _).bind fun _ _ => ?_
    exact (setLayer_upto name _).bind fun _ _ => (capturedText_quiet _).upto

theorem loopAgain_succ {d : Datum} (hfuel : full → limits.levels + 2 ≤ fuel + 1) :
    Upto full limits Any (Run.loopAgain (fuel + 1) d) (Run.loopAgain (fuel' + 1) d) := by
  unfold Run.loopAgain
  refine Upto.bind innermostLoop?_upto fun loop? hloop => ?_
  split
  · exact .raise _
  · rename_i again hagain
    obtain ⟨loop, hsome, hagain⟩ := Option.bind_eq_some_iff.mp hagain
    refine .after (itemsOf_quiet d) fun result => ?_
    have hover := h.loopOver again true result.1 result.2 (hloop loop hsome again hagain)
      fun hfull => Nat.le_of_succ_le_succ (hfuel hfull)
    exact hover.captured.thenQuiet fun _ => capturedText_quiet _

theorem loopOver_succ {loop : LoopBody} {recursive : Bool} {items : List Datum} {counted : Bool}
    (hloop : sizeOf loop ≤ limits.size) (hfuel : full → limits.levels + 1 ≤ fuel + 1) :
    Upto full limits Any (Run.loopOver (fuel + 1) loop recursive items counted)
      (Run.loopOver (fuel' + 1) loop recursive items counted) := by
  have hagain : ∀ place, ∀ own ∈ some (FrameLoop.mk place true (if recursive then some loop else none)),
      ∀ again ∈ own.again?, sizeOf again ≤ limits.size := by
    intro place own hown again hagain
    obtain rfl := Option.some.inj hown
    dsimp only at hagain
    split at hagain
    · exact Option.some.inj hagain ▸ hloop
    · cases hagain
  have hparts : sizeOf loop.target + sizeOf loop.body ≤ sizeOf loop := by
    cases loop
    simp only [LoopBody.mk.sizeOf_spec]
    omega
  have hitem : ∀ inner : Limits, inner.Below limits → ∀ place i d, Upto full inner Any
      (do
        modifyLoop place fun state => { state with index := i }
        assignTo (Run.expression fuel) fuel loop.target d
        runAll (Run.statement fuel) loop.body)
      (do
        modifyLoop place fun state => { state with index := i }
        assignTo (Run.expression fuel') fuel' loop.target d
        runAll (Run.statement fuel') loop.body) := by
    intro inner hinner place i d
    have hlevels := hinner.levels
    have hsize := hinner.size
    refine .after (modifyLoop_quiet place _) fun _ => ?_
    refine (h.assigning (fun hfull => ?_) d).bind fun _ _ => ?_
    · have := hfuel hfull
      omega
    · refine h.body (by omega) fun hfull => ?_
      have := hfuel hfull
      omega
  have hend : ∀ place, ∀ left : Bool, Quiet (do
      if !left then modifyLoop place fun state => { state with index := items.length }
      pure ((← loopAt place).index = 0 : Bool)) := by
    intro place left
    have hlast : Quiet (do pure ((← loopAt place).index = 0 : Bool)) :=
      (loopAt_quiet place).bind fun _ => .pure _
    dsimp only
    split
    · exact (modifyLoop_quiet place _).bind fun _ => hlast
    · exact hlast
  have hrun : ∀ place, Upto full limits Any
      (inFrame { loop? := some (FrameLoop.mk place true (if recursive then some loop else none)) } do
        let left ← forItems (fun i d => do
          modifyLoop place fun state => { state with index := i }
          assignTo (Run.expression fuel) fuel loop.target d
          runAll (Run.statement fuel) loop.body) 0 items
        if !left then modifyLoop place fun state => { state with index := items.length }
        pure ((← loopAt place).index = 0 : Bool))
      (inFrame { loop? := some (FrameLoop.mk place true (if recursive then some loop else none)) } do
        let left ← forItems (fun i d => do
          modifyLoop place fun state => { state with index := i }
          assignTo (Run.expression fuel') fuel' loop.target d
          runAll (Run.statement fuel') loop.body) 0 items
        if !left then modifyLoop place fun state => { state with index := items.length }
        pure ((← loopAt place).index = 0 : Bool)) := by
    intro place
    refine Upto.inFrame (hagain place) fun inner hinner => ?_
    exact (Upto.forItems (hitem inner hinner place) 0 items).thenQuiet fun left => hend place left
  unfold Run.loopOver
  refine .after innermostLoop?_quiet fun loop? => ?_
  dsimp only
  split
  · split
    · refine .after (loopAt_quiet _) fun outer => .after (.pure _) fun depth => ?_
      exact .after (newLoop_quiet _) hrun
    · exact .after (.pure _) fun depth => .after (newLoop_quiet _) hrun
  · exact .after (.pure _) fun depth => .after (newLoop_quiet _) hrun

theorem filtered_succ {target : Target} {test : Expr} {items : List Datum}
    (hsize : sizeOf target + sizeOf test ≤ limits.size) (hfuel : full → limits.levels + 1 ≤ fuel + 1) :
    Upto full limits Any (Run.filtered (fuel + 1) target test items)
      (Run.filtered (fuel' + 1) target test items) := by
  unfold Run.filtered
  refine .after (newLoop_quiet _) fun place => Upto.inFrame (fun _ h => by cases h; simp) ?_
  intro inner hinner
  have hlevels := hinner.levels
  have hinnerSize := hinner.size
  refine .keepItems (fun d => ?_) items
  refine (h.assigning (fun hfull => ?_) d).bind fun _ _ => ?_
  · have := hfuel hfull
    omega
  · refine (h.expression test fun hfull => ?_).thenQuiet fun d => (settled_quiet d).bind fun _ => .pure _
    have := hfuel hfull
    omega

theorem splice_succ {d : Datum} {ignoreMissing : Bool} (hfuel : full → limits.levels + 1 ≤ fuel + 1) :
    Upto full limits Any (Run.splice (fuel + 1) d ignoreMissing)
      (Run.splice (fuel' + 1) d ignoreMissing) := by
  unfold Run.splice
  extract_lets names
  refine firstLoaded_upto names ?_ fun rest document hrest hsize => ?_
  · dsimp only
    split
    · exact .pure trivial
    · exact .raise _
  have hbelow := (Limits.below_load hrest).levels
  intro loads hloads m hm
  refine get_here (quiet_here frame_quiet fun frame m₁ h₁ => ?_)
  refine quiet_here (modifyFrame_quiet fun _ => rfl) fun _ m₂ h₂ => modify_here (checkDepth_here fun _ => ?_)
  have hfooting := h₁.trans h₂
  have hfits₂ := hfooting.fits hm
  have hfits₃ : Machine.Fits { limits with loads := rest }
      { m₂ with escaping := .none, blocks := layersOf document, outer := m₂.outer + 10 } :=
    { hfits₂ with
      blocks := layersOf_fits hsize
      room := by
        have := hfits₂.room
        simp only at this ⊢
        omega }
  have hsegment : Upto full { limits with loads := rest } Any
      (Run.segment fuel document.name document.body) (Run.segment fuel' document.name document.body) := by
    refine h.segment document.name document.body hsize fun hfull => ?_
    have := hfuel hfull
    simp only
    omega
  refine bind_here ((hsegment loads hloads _ hfits₃).mapFault _) ?_
  rintro left _ m₄ ⟨-, hfits₄, hkept⟩
  refine quiet_here (modifyFrame_quiet fun _ => rfl) fun _ m₅ h₅ => ?_
  have hfits₅ := h₅.fits hfits₄
  have hframes : m₅.frames.length = m.frames.length :=
    h₅.length_frames.trans (hkept.frames.trans hfooting.length_frames)
  refine .done ⟨trivial, { hfits₅ with blocks := hm.blocks, room := ?_ }, hkept.le, rfl, hframes, ?_⟩
  · have := hm.room
    simp only [hframes] at this ⊢
    exact this
  · intro hsome
    have hparent := hkept.parent (h₅.parent ▸ hsome)
    exact hparent.imp_left fun hsome => hfooting.parent ▸ hsome

theorem filterText_succ {filters : List FilterCall} {d : Datum}
    (hfuel : full → limits.levels + 2 * sizeOf filters + 8 ≤ fuel + 1) :
    Upto full limits Any (Run.filterText (fuel + 1) filters d) (Run.filterText (fuel' + 1) filters d) := by
  unfold Run.filterText
  refine .foldlM d fun d filter hfilter => ?_
  have hsize := List.sizeOf_lt_of_mem hfilter
  have hparts : sizeOf filter.arguments < sizeOf filter := by
    cases filter
    simp only [FilterCall.mk.sizeOf_spec]
    omega
  refine (h.arguments none fun hfull => ?_).thenQuiet fun args => applyFilter_quiet _ _
  have := hfuel hfull
  omega

/-- What is read from a template that is spliced in where nothing is put out. -/
theorem imported {e : Expr} {next : Run α} (hsize : sizeOf e ≤ limits.size)
    (hfuel : full → limits.levels + 1 ≤ fuel) (hnext : Quiet next) :
    Upto full limits Any
      (silenced (inFrame {} do
        let d ← Run.expression fuel e
        Run.splice fuel d false
        next))
      (silenced (inFrame {} do
        let d ← Run.expression fuel' e
        Run.splice fuel' d false
        next)) := by
  refine (Upto.inFrame (fun _ h => by cases h) fun inner hinner => ?_).silenced
  have hlevels := hinner.levels
  refine (h.expression e fun hfull => ?_).bind fun d _ => (h.splice d false fun hfull => ?_).thenQuiet
    fun _ => hnext
  · have := hfuel hfull
    omega
  · have := hfuel hfull
    omega

/-- A loop, and what is done instead of it. -/
theorem looped {target : Target} {body otherwise : List Statement} (recursive : Bool)
    (hsize : sizeOf target + sizeOf body < limits.size) (hfuel : full → limits.levels + 1 ≤ fuel)
    (hotherwise : Upto full limits Any (runAll (Run.statement fuel) otherwise)
      (runAll (Run.statement fuel') otherwise)) (items : List Datum) (counted : Bool) :
    Upto full limits Any
      (do
        let without ← Run.loopOver fuel { target, body } recursive items counted
        if without then runAll (Run.statement fuel) otherwise else pure .normal)
      (do
        let without ← Run.loopOver fuel' { target, body } recursive items counted
        if without then runAll (Run.statement fuel') otherwise else pure .normal) := by
  have hloop : sizeOf (LoopBody.mk target body) ≤ limits.size := by
    simp only [LoopBody.mk.sizeOf_spec]
    omega
  refine (h.loopOver { target, body } recursive items counted hloop hfuel).bind fun without _ => ?_
  split
  · exact hotherwise
  · exact .pure trivial

theorem statement_succ {s : Statement} (hs : sizeOf s ≤ limits.size)
    (hfuel : full → limits.levels + 2 * sizeOf s + 8 ≤ fuel + 1) :
    Upto full limits Any (Run.statement (fuel + 1) s) (Run.statement (fuel' + 1) s) := by
  -- What a statement is made of is smaller than it, which makes up for the level.
  have hpart : ∀ e : Expr, sizeOf e < sizeOf s →
      Upto full limits Any (Run.expression fuel e) (Run.expression fuel' e) := by
    intro e hsize
    refine h.expression e fun hfull => ?_
    have := hfuel hfull
    omega
  have hbody : ∀ body : List Statement, sizeOf body < sizeOf s →
      Upto full limits Any (runAll (Run.statement fuel) body) (runAll (Run.statement fuel') body) := by
    intro body hsize
    refine h.body (by omega) fun hfull => ?_
    have := hfuel hfull
    omega
  have hassign : ∀ target : Target, sizeOf target < sizeOf s → ∀ d, Upto full limits Any
      (assignTo (Run.expression fuel) fuel target d) (assignTo (Run.expression fuel') fuel' target d) := by
    intro target hsize d
    refine h.assigning (fun hfull => ?_) d
    have := hfuel hfull
    omega
  have hfilters : ∀ filters : List FilterCall, sizeOf filters < sizeOf s → ∀ d,
      Upto full limits Any (Run.filterText fuel filters d) (Run.filterText fuel' filters d) := by
    intro filters hsize d
    refine h.filterText filters d fun hfull => ?_
    have := hfuel hfull
    omega
  have hcall : ∀ callee args caller?, sizeOf callee + sizeOf args < sizeOf s →
      Upto full limits Any (Run.call fuel callee args caller?) (Run.call fuel' callee args caller?) := by
    intro callee args caller? hsize
    refine h.call callee args caller? fun hfull => ?_
    have := hfuel hfull
    omega
  have hlevels : full → limits.levels + 1 ≤ fuel := fun hfull => by
    have := hfuel hfull
    omega
  cases s with
  | data text => exact .after (emit_quiet text) fun _ => .pure trivial
  | print e =>
      have he := hpart e (by simp only [Statement.print.sizeOf_spec]; omega)
      exact he.thenQuiet fun d => (print_quiet d).bind fun _ => .pure _
  | loop target items onlyIf recursive body otherwise =>
      simp only [Statement.loop.sizeOf_spec] at hs hpart hbody
      refine (hpart items (by omega)).bind fun d _ => .after (itemsOf_quiet d) fun result => ?_
      have hrun := h.looped recursive (show sizeOf target + sizeOf body < limits.size by omega) hlevels
        (hbody otherwise (by omega))
      obtain ⟨items, counted⟩ := result
      cases onlyIf with
      | none => exact hrun items counted
      | some test =>
          have hsizes : sizeOf target + sizeOf test ≤ limits.size := by
            simp only [Option.some.sizeOf_spec] at hs
            omega
          exact (h.filtered target test items hsizes hlevels).bind fun items _ => hrun items true
  | branch test body otherwise =>
      simp only [Statement.branch.sizeOf_spec] at hpart hbody
      refine (hpart test (by omega)).bind fun d _ => .after (settled_quiet d) fun d => ?_
      split
      · exact hbody body (by omega)
      · exact hbody otherwise (by omega)
  | scope assignments body =>
      refine Upto.inFrame (fun _ h => by cases h) fun inner hinner => ?_
      have hinnerLevels := hinner.levels
      have hinnerSize := hinner.size
      simp only [Statement.scope.sizeOf_spec] at hs
      refine Upto.bind (.forM fun entry hentry => ?_) fun _ _ => h.body (by omega) fun hfull => ?_
      · obtain ⟨target, e⟩ := entry
        have hsize := List.sizeOf_lt_of_mem hentry
        simp only [Prod.mk.sizeOf_spec] at hsize
        refine (h.expression e fun hfull => ?_).bind fun d _ => h.assigning (fun hfull => ?_) d
        · have := hlevels hfull
          omega
        · have := hlevels hfull
          omega
      · have := hlevels hfull
        omega
  | assign target e =>
      simp only [Statement.assign.sizeOf_spec] at hpart hassign
      refine (hpart e (by omega)).bind fun d _ => (hassign target (by omega) d).bind fun _ _ => ?_
      exact .pure trivial
  | assignText target filters body =>
      simp only [Statement.assignText.sizeOf_spec] at hbody hassign hfilters
      refine (hbody body (by omega)).captured.bind fun result _ => .after (capturedText_quiet _) fun d => ?_
      refine (hfilters filters (by omega) d).bind fun d _ => (hassign target (by omega) d).bind fun _ _ => ?_
      exact .pure trivial
  | escaping mode body =>
      simp only [Statement.escaping.sizeOf_spec] at hpart hbody
      have hset : ∀ escaping : Escaping, Quiet (modify fun m : Machine => { m with escaping }) :=
        fun escaping => .changing fun m => ⟨rfl, rfl, rfl, rfl, rfl⟩
      refine .get fun m _ => (hpart mode (by omega)).bind fun d _ => .after (escapingOf_quiet d) fun inside => ?_
      refine .after (hset inside) fun _ => (hbody body (by omega)).thenQuiet fun signal => ?_
      exact (hset _).bind fun _ => .pure _
  | filtered filters body =>
      simp only [Statement.filtered.sizeOf_spec] at hbody hfilters
      refine (hbody body (by omega)).captured.bind fun result _ => .after (capturedText_quiet _) fun d => ?_
      exact (hfilters filters (by omega) d).thenQuiet fun d => (print_quiet d).bind fun _ => .pure _
  | block name body => exact (h.callBlock name hlevels).bind fun _ _ => .pure trivial
  | parent e =>
      have he := hpart e (by simp only [Statement.parent.sizeOf_spec]; omega)
      exact he.bind fun d _ => (extend_upto d).bind fun _ _ => .pure trivial
  | splice e ignoreMissing =>
      have he := hpart e (by simp only [Statement.splice.sizeOf_spec]; omega)
      exact he.bind fun d _ => (h.splice d ignoreMissing hlevels).bind fun _ _ => .pure trivial
  | importAll e target =>
      simp only [Statement.importAll.sizeOf_spec] at hs hassign
      refine (h.imported (by omega) hlevels (frame_quiet.bind fun _ => .pure _)).bind fun d _ => ?_
      exact (hassign target (by omega) d).bind fun _ _ => .pure trivial
  | importNames e names =>
      simp only [Statement.importNames.sizeOf_spec] at hs
      have hlookup : Quiet (names.mapM fun entry => do
          pure (entry.2, (← lookup? entry.1).getD .undefined)) :=
        .mapM (fun entry => (lookup?_quiet entry.1).bind fun _ => .pure _) names
      refine (h.imported (by omega) hlevels hlookup).thenQuiet fun all => ?_
      refine Quiet.bind (Quiet.forM (fun entry => ?_) all) fun _ => .pure _
      exact assign_quiet entry.1 entry.2
  | define name parameters defaults body =>
      simp only [Statement.define.sizeOf_spec] at hs
      refine (makeMacro_upto name parameters (by omega) (by omega)).thenQuiet fun d => ?_
      exact (assign_quiet name d).bind fun _ => .pure _
  | callWith callee args parameters defaults body =>
      simp only [Statement.callWith.sizeOf_spec] at hs hcall
      refine (makeMacro_upto "caller" parameters (by omega) (by omega)).bind fun caller _ => ?_
      refine (hcall callee args (some caller) (by omega)).thenQuiet fun d => ?_
      exact (print_quiet d).bind fun _ => .pure _
  | run callee args =>
      have hrun := hcall callee args none (by simp only [Statement.run.sizeOf_spec]; omega)
      exact hrun.bind fun _ _ => .pure trivial
  | next | leave => exact .pure trivial

/-- **One level more on both sides.** -/
theorem succ : Enough full (fuel + 1) (fuel' + 1) where
  le := Nat.succ_le_succ h.le
  expression _ hfuel := h.expression_succ hfuel
  call _ _ caller? hfuel := h.call_succ caller? hfuel
  callDatum _ _ hfuel := h.callDatum_succ hfuel
  callMethod _ _ _ hfuel := h.callMethod_succ hfuel
  callMacro _ _ hfuel := h.callMacro_succ hfuel
  renderNamed _ _ hfuel := h.renderNamed_succ hfuel
  renderLoaded _ _ hfuel := h.renderLoaded_succ hfuel
  renderDocument _ _ hsize hfuel := h.renderDocument_succ hsize hfuel
  segment _ _ hbody hfuel := h.segment_succ hbody hfuel
  callBlock _ hfuel := h.callBlock_succ hfuel
  parentBlock hfuel := h.parentBlock_succ hfuel
  loopAgain _ hfuel := h.loopAgain_succ hfuel
  loopOver _ _ _ _ hloop hfuel := h.loopOver_succ hloop hfuel
  filtered _ _ _ hsize hfuel := h.filtered_succ hsize hfuel
  splice _ _ hfuel := h.splice_succ hfuel
  statement _ hs hfuel := h.statement_succ hs hfuel
  filterText _ _ hfuel := h.filterText_succ hfuel

omit h in
/-- **More levels never change what fewer came to.** -/
theorem all (hle : fuel ≤ fuel') : Enough full fuel fuel' := by
  induction fuel generalizing fuel' with
  | zero => exact zero fuel'
  | succ fuel ih =>
      obtain ⟨more, rfl⟩ : ∃ more, fuel' = more + 1 := ⟨fuel' - 1, by omega⟩
      exact (ih (by omega)).succ

end Enough

end Run

/-- **A rendering with some levels is the one with more, up to where it is exhausted**, and it is not if it was
given enough for the templates that may be loaded. -/
theorem Document.rendering_upto {document : Document} {limits : Limits} {depth depth' : Nat} (data : Datum)
    (hsize : document.size ≤ limits.size) (hpositive : 0 < limits.size) (hle : depth ≤ depth')
    (hfull : full → limits.fresh.levels + 2 * limits.size + 10 ≤ depth) :
    Rendering.Upto full limits.size (fun _ _ => True) limits.loads (document.rendering depth data)
      (document.rendering depth' data) := by
  have hstart : Machine.Fits { limits with frames := maxFrames + 1 } {} :=
    { loops := by simp
      macros := by simp
      blocks := List.forall_mem_nil _
      parent := fun _ h => by cases h
      size := hpositive
      room := by simp only; omega }
  have hrun : Run.Upto full { limits with frames := maxFrames + 1 } Run.Any
      (Run.renderDocument depth document data) (Run.renderDocument depth' document data) :=
    (Run.Enough.all hle).renderDocument document data hsize hfull
  exact (hrun limits.loads (Nat.le_refl _) _ hstart).bind fun _ _ _ => .done trivial

end Stencil.Template
