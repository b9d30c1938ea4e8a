import Stencil.Proofs.Template.Steps
import Stencil.Template.Scope

/-!
# Evaluations that go alike

An evaluation in one scope goes as it does in another, as long as the name of the writer is never looked
up: every function of the evaluation goes alike if those do that it starts one level deeper, and so all of
them do by induction on the number of levels that are left. What is proved of all of them at one level is
put together in `Steadily`.
-/

namespace Stencil.Template

variable {named : String → Prop} {fuel : Nat}

namespace Run

/-- Whether everything that is evaluated with so many levels left goes alike at the same point. -/
structure Steadily (named : String → Prop) (fuel : Nat) : Prop where
  expression : ∀ e : Expr, e.Keeps named → Steady named (Datum.Keeps named) (expression fuel e)
  call : ∀ (callee : Expr) (args : List Argument) (caller? : Option Datum), callee.Keeps named →
    (∀ a ∈ args, a.Keeps named) → (∀ d ∈ caller?, d.Keeps named) →
    Steady named (Datum.Keeps named) (call fuel callee args caller?)
  callDatum : ∀ (f : Datum) (args : List Datum), f.Keeps named → (∀ d ∈ args, d.Keeps named) →
    Steady named (Datum.Keeps named) (callDatum fuel f args)
  callMethod : ∀ (d : Datum) (name : String) (args : List Datum), d.Keeps named →
    (∀ d ∈ args, d.Keeps named) → Steady named (Datum.Keeps named) (callMethod fuel d name args)
  callMacro : ∀ (head : MacroHead) (args : List Datum), (∀ d ∈ args, d.Keeps named) →
    Steady named (Datum.Keeps named) (callMacro fuel head args)
  renderNamed : ∀ (name : String) (data? : Option Datum), (∀ d ∈ data?, d.Keeps named) →
    Steady named Any (renderNamed fuel name data?)
  renderLoaded : ∀ (name : String) (data? : Option Datum), (∀ d ∈ data?, d.Keeps named) →
    Steady named Any (renderLoaded fuel name data?)
  renderDocument : ∀ (document : Document) (data data' : Datum), document.Keeps named →
    Backdrop.Alike named (.data data) (.data data') →
    Alike named (Both Any) (renderDocument fuel document data) (renderDocument fuel document data')
  segment : ∀ (name : String) (body : List Statement), (∀ s ∈ body, s.Keeps named) →
    Steady named Any (segment fuel name body)
  callBlock : ∀ name, Steady named Any (callBlock fuel name)
  parentBlock : Steady named (Datum.Keeps named) (parentBlock fuel)
  loopAgain : ∀ d : Datum, d.Keeps named → Steady named (Datum.Keeps named) (loopAgain fuel d)
  loopOver : ∀ (loop : LoopBody) (recursive : Bool) (items : List Datum) (counted : Bool),
    loop.Keeps named → (∀ d ∈ items, d.Keeps named) →
    Steady named Any (loopOver fuel loop recursive items counted)
  filtered : ∀ (target : Target) (test : Expr) (items : List Datum), target.Keeps named →
    test.Keeps named → (∀ d ∈ items, d.Keeps named) →
    Steady named (fun items => ∀ d ∈ items, d.Keeps named) (filtered fuel target test items)
  splice : ∀ (d : Datum) (ignoreMissing : Bool), Steady named Any (splice fuel d ignoreMissing)
  statement : ∀ s : Statement, s.Keeps named → Steady named Any (statement fuel s)
  filterText : ∀ (filters : List FilterCall) (d : Datum), (∀ f ∈ filters, f.Keeps named) →
    d.Keeps named → Steady named (Datum.Keeps named) (filterText fuel filters d)

/-- Behind the outermost frames lies the same but for the writers. -/
theorem backdrop_last {frames frames' : List Frame} (h : List.Forall₂ (Frame.Alike named) frames frames') :
    ((frames.getLast?.map Frame.backdrop).getD .nothing).Alike named
      ((frames'.getLast?.map Frame.backdrop).getD .nothing) := by
  induction h with
  | nil => exact .nothing
  | cons hframe hrest ih =>
      cases hrest with
      | nil =>
          obtain ⟨_, _, hbackdrop⟩ := hframe
          exact hbackdrop
      | cons => exact ih

/-- `toFile` asks for a path and a name; with one argument at most it does nothing. -/
theorem toFile_alone {rel : Datum → Datum → Prop} (fuel : Nat) (data? : Option Datum) :
    Alike named rel (Run.callDatum fuel (.function .toFile) data?.toList)
      (Run.callDatum fuel (.function .toFile) data?.toList) := by
  have hread : ∃ cause, Reading.run (do
      let path ← Reading.required Reading.asText
      let name ← Reading.required Reading.asText
      let data? ← Reading.optional Reading.asAny
      pure (path, name, data?)) data?.toList = .error cause := by
    cases data? with
    | none => exact ⟨_, rfl⟩
    | some d => cases d <;> exact ⟨_, rfl⟩
  obtain ⟨cause, hread⟩ := hread
  cases fuel with
  | zero => exact .exhausted
  | succ fuel =>
      unfold Run.callDatum
      simp only [hread]
      exact .raise_bind

namespace Steadily

theorem zero : Steadily named 0 where
  expression _ _ := .exhausted
  call _ _ _ _ _ _ := .exhausted
  callDatum _ _ _ _ := .exhausted
  callMethod _ _ _ _ _ := .exhausted
  callMacro _ _ _ := .exhausted
  renderNamed _ _ _ := .exhausted
  renderLoaded _ _ _ := .exhausted
  renderDocument _ _ _ _ _ := .exhausted
  segment _ _ _ := .exhausted
  callBlock _ := .exhausted
  parentBlock := .exhausted
  loopAgain _ _ := .exhausted
  loopOver _ _ _ _ _ _ := .exhausted
  filtered _ _ _ _ _ _ := .exhausted
  splice _ _ := .exhausted
  statement _ _ := .exhausted
  filterText _ _ _ _ := .exhausted

variable (h : Steadily named fuel)
include h

theorem arguments {args : List Argument} {caller? : Option Datum} (hargs : ∀ a ∈ args, a.Keeps named)
    (hcaller : ∀ d ∈ caller?, d.Keeps named) :
    Steady named (fun all => ∀ d ∈ all, d.Keeps named)
      (evaluateArguments (Run.expression fuel) args caller?) :=
  evaluateArguments_steady h.expression hargs hcaller

theorem assigning {target : Target} (htarget : target.Keeps named) {d : Datum} (hd : d.Keeps named) :
    Steady named Any (assignTo (Run.expression fuel) fuel target d) :=
  assignTo_steady h.expression fuel htarget hd

theorem body {body : List Statement} (hbody : ∀ s ∈ body, s.Keeps named) :
    Steady named Any (runAll (Run.statement fuel) body) :=
  runAll_steady fun s hs => h.statement s (hbody s hs)

theorem binary_succ (op : BinaryOp) {left right : Expr} (hleft : left.Keeps named)
    (hright : right.Keeps named) :
    Steady named (Datum.Keeps named) (Run.expression (fuel + 1) (.binary op left right)) := by
  have hrest : ∀ op : BinaryOp, Steady named (Datum.Keeps named) (do
      let a ← Run.expression fuel left
      let b ← Run.expression fuel right
      ofExcept (op.apply (← settled a) (← settled b))) := by
    intro op
    refine (h.expression left hleft).andThen fun a ha => ?_
    refine (h.expression right hright).andThen fun b hb => ?_
    refine (settled_steady ha).andThen fun a ha => ?_
    exact (settled_steady hb).andThen fun b hb => .lift (op.apply_only ha hb)
  cases op with
  | and =>
      refine (h.expression left hleft).andThen fun a ha => ?_
      refine (settled_steady ha).andThen fun test _ => ?_
      split
      · exact h.expression right hright
      · exact .pure (.rfl ha)
  | or =>
      refine (h.expression left hleft).andThen fun a ha => ?_
      refine (settled_steady ha).andThen fun test _ => ?_
      split
      · exact .pure (.rfl ha)
      · exact h.expression right hright
  | _ => exact hrest _

theorem expression_succ {e : Expr} (he : e.Keeps named) :
    Steady named (Datum.Keeps named) (Run.expression (fuel + 1) e) := by
  cases he with
  | literal value =>
      refine .pure (.rfl ?_)
      cases value with
      | none => exact Datum.only_none
      | bool b => exact Datum.only_bool b
      | integer n => exact Datum.only_integer n
      | decimal x => exact Datum.only_decimal x
      | text s => exact Datum.only_ofString s
  | «variable» hname =>
      exact (lookup?_steady hname).andThen fun d? hd => .pure (.rfl (getD_keeps hd))
  | list hitems =>
      refine Alike.andThen (.mapM fun e he => h.expression e (hitems e he)) fun items hall => ?_
      exact .pure (.rfl (Datum.only_list.mpr hall))
  | @map entries hkeys hvalues =>
      have hpair : ∀ entry ∈ entries, Steady named
          (fun pair : Datum × Datum => pair.1.Keeps named ∧ pair.2.Keeps named) (do
            let key ← Run.expression fuel entry.1
            let value ← Run.expression fuel entry.2
            pure (← settled key, value)) := by
        intro entry hentry
        refine (h.expression _ (hkeys entry hentry)).andThen fun key hkey => ?_
        refine (h.expression _ (hvalues entry hentry)).andThen fun value hvalue => ?_
        exact (settled_steady hkey).andThen fun key hkey => .pure (.rfl ⟨hkey, hvalue⟩)
      exact (Alike.mapM hpair).andThen fun pairs hpairs => .pure (.rfl (Datum.ofPairs_only hpairs))
  | @unary op e he =>
      refine (h.expression e he).andThen fun d hd => ?_
      exact (settled_steady hd).andThen fun d _ => .lift (op.apply_only d)
  | binary hleft hright => exact h.binary_succ _ hleft hright
  | @choice test value otherwise htest hvalue hotherwise =>
      refine (h.expression test htest).andThen fun d hd => ?_
      refine (settled_steady hd).andThen fun d _ => ?_
      split
      · exact h.expression value hvalue
      · cases otherwise with
        | some other => exact h.expression other (hotherwise other rfl)
        | none => exact .pure (.rfl Datum.only_undefined)
  | «attribute» hobject =>
      exact (h.expression _ hobject).andThen fun d hd => attributeOf_steady hd _
  | item hobject hkey =>
      refine (h.expression _ hobject).andThen fun d hd => ?_
      refine (h.expression _ hkey).andThen fun key hkey => ?_
      exact (settled_steady hkey).andThen fun key _ => itemAt_steady hd key
  | slice hobject hstart hstop hstep =>
      refine (h.expression _ hobject).andThen fun d hd => ?_
      have hnone : Steady named Any (pure Datum.none) := .pure (.rfl trivial)
      refine Alike.andThen (show Steady named Any _ from ?_) fun start _ =>
        Alike.andThen (show Steady named Any _ from ?_) fun stop _ =>
          Alike.andThen (show Steady named Any _ from ?_) fun step _ => .lift (Datum.slice_only hd)
      all_goals
        dsimp only
        split
      · exact (h.expression _ (hstart _ rfl)).any
      · exact hnone
      · exact (h.expression _ (hstop _ rfl)).any
      · exact hnone
      · exact (h.expression _ (hstep _ rfl)).any
      · exact hnone
  | call hcallee hargs => exact h.call _ _ none hcallee hargs fun _ hd => by cases hd
  | filter he hargs =>
      refine (h.expression _ he).andThen fun d hd => ?_
      refine (h.arguments hargs fun _ hd => by cases hd).andThen fun args hall => ?_
      exact applyFilter_steady _ (List.forall_mem_cons.mpr ⟨hd, hall⟩)
  | check he hargs =>
      refine (h.expression _ he).andThen fun d hd => ?_
      refine (h.arguments hargs fun _ hd => by cases hd).andThen fun args hall => ?_
      exact applyCheck_steady _ (List.forall_mem_cons.mpr ⟨hd, hall⟩)

theorem call_succ {callee : Expr} {args : List Argument} {caller? : Option Datum}
    (hcallee : callee.Keeps named) (hargs : ∀ a ∈ args, a.Keeps named)
    (hcaller : ∀ d ∈ caller?, d.Keeps named) :
    Steady named (Datum.Keeps named) (Run.call (fuel + 1) callee args caller?) := by
  unfold Run.call
  split
  · cases hcallee with
    | «variable» hname =>
        refine (h.arguments hargs hcaller).andThen fun args hall => ?_
        split
        · split
          · exact h.parentBlock
          · exact .raise _
        · split
          · exact h.loopAgain _ (hall _ List.mem_cons_self)
          · exact .raise _
        · refine (lookup?_steady hname).andThen fun d? hd => ?_
          split
          · exact h.callDatum _ args (hd _ rfl) hall
          · exact .raise _
  · refine (captured_steady (h.callBlock _)).andThen fun result _ => ?_
    exact capturedText_steady _
  · cases hcallee with
    | «attribute» hobject =>
        refine (h.expression _ hobject).andThen fun d hd => ?_
        exact (h.arguments hargs hcaller).andThen fun args hall => h.callMethod d _ args hd hall
  · refine (h.expression _ hcallee).andThen fun f hf => ?_
    exact (h.arguments hargs hcaller).andThen fun args hall => h.callDatum f args hf hall

/-- A file is written only where `toFile` may be called, and if it cannot be, the rendering fails. -/
theorem toFile_succ {args : List Datum} (hnamed : named "toFile") (hargs : ∀ d ∈ args, d.Keeps named) :
    Steady named (Datum.Keeps named) (Run.callDatum (fuel + 1) (.function .toFile) args) := by
  have hread : Yields (fun result : String × String × Option Datum => ∀ d ∈ result.2.2, d.Keeps named)
      (Reading.run (do
        let path ← Reading.required Reading.asText
        let name ← Reading.required Reading.asText
        let data? ← Reading.optional Reading.asAny
        pure (path, name, data?)) args) := by
    refine Reading.Gives.run ?_ hargs
    refine (Reading.Gives.required Reading.Gives.plain).bind fun path _ => ?_
    refine (Reading.Gives.required Reading.Gives.plain).bind fun name _ => ?_
    exact (Reading.Gives.optional Reading.Gives.asAny).bind fun data? hdata => .pure hdata
  refine (Alike.lift hread).andThen fun result hdata => ?_
  obtain ⟨path, name, data?⟩ := result
  refine (lookup?_alike writerName).bind fun d? d?' hfound => ?_
  have hwrite : Steady named (Datum.Keeps named) (do
      if ← permit path then
        let text ← Run.renderNamed fuel name data?
        if ← write path text then pure (.ofString "") else raise (.fileNotWritten path)
      else raise .filesUnsupported) := by
    refine Alike.permit path hnamed ?_ rfl rfl
    refine (h.renderNamed name data? hdata).andThen fun text _ => ?_
    exact Alike.write path text hnamed (.pure (.rfl (Datum.only_ofString _))) rfl rfl
  cases hfound with
  | seen hseen =>
      cases hseen with
      | same =>
          split
          · exact hwrite
          · exact .raise _
      | writer => exact hwrite
  | builtin => exact .raise _

theorem callDatum_succ {f : Datum} {args : List Datum} (hf : f.Keeps named)
    (hargs : ∀ d ∈ args, d.Keeps named) :
    Steady named (Datum.Keeps named) (Run.callDatum (fuel + 1) f args) := by
  by_cases hfile : f = .function .toFile
  · subst hfile
    exact h.toFile_succ (Datum.only_function.mp hf rfl) hargs
  unfold Run.callDatum
  split
  · exact h.callMacro _ args hargs
  · exact makeSpace_steady hargs
  · have hread : Yields (fun result : String × Option Datum => ∀ d ∈ result.2, d.Keeps named)
        (Reading.run (do
          let name ← Reading.required Reading.asText
          let data? ← Reading.optional Reading.asAny
          pure (name, data?)) args) := by
      refine Reading.Gives.run ?_ hargs
      refine (Reading.Gives.required Reading.Gives.plain).bind fun name _ => ?_
      exact (Reading.Gives.optional Reading.Gives.asAny).bind fun data? hdata => .pure hdata
    refine (Alike.lift hread).andThen fun result hdata => ?_
    exact (h.renderNamed result.1 result.2 hdata).map fun text _ => Datum.only_ofString text
  · exact absurd rfl hfile
  · exact (settledAll_steady hargs).andThen fun args hall => .lift (computed_keeps _ hall)
  · exact .raise _
  · exact .raise _

theorem callMethod_succ {d : Datum} {name : String} {args : List Datum} (hd : d.Keeps named)
    (hargs : ∀ d ∈ args, d.Keeps named) :
    Steady named (Datum.Keeps named) (Run.callMethod (fuel + 1) d name args) := by
  unfold Run.callMethod
  split
  · rename_i place
    have hchange : ∀ loop : LoopState, loop.Keeps named →
        ({ loop with last? := some args } : LoopState).Keeps named := fun loop hloop =>
      { hloop with last := fun _ h => Option.some.inj h ▸ hargs }
    have hanswer : ∀ same : Bool, Steady named (Datum.Keeps named) (if same then pure (.bool false)
        else do
          modifyLoop place fun loop => { loop with last? := some args }
          pure (.bool true)) := by
      intro same
      split
      · exact .pure (.rfl (Datum.only_bool _))
      · exact (modifyLoop_steady place hchange).andThen fun _ _ => .pure (.rfl (Datum.only_bool _))
    exact (loopAt_steady place).andThen fun loop _ => hanswer _
  · rename_i place
    refine (loopAt_steady place).andThen fun loop _ => .pure (.rfl ?_)
    exact getD_keeps fun d hd => hargs d (List.mem_of_getElem? hd)
  · exact .raise _
  · refine (opened_steady hd).andThen fun d hd => ?_
    split
    · rename_i f hf
      exact h.callDatum f args (Datum.attribute?_only hd hf) hargs
    · exact .raise _

theorem callMacro_succ {head : MacroHead} {args : List Datum} (hargs : ∀ d ∈ args, d.Keeps named) :
    Steady named (Datum.Keeps named) (Run.callMacro (fuel + 1) head args) := by
  unfold Run.callMacro
  refine Alike.get.bind ?_
  rintro m _ @⟨frames', hframes, hstore, hblocks, hparent⟩
  dsimp only
  split
  · exact .raise_bind
  refine (Alike.lift (matchArguments_keeps head hargs)).andThen fun result hresult => ?_
  obtain ⟨values, caller?⟩ := result
  obtain ⟨hvalues, hcaller⟩ := hresult
  have hmade : MacroBody.Keeps named (m.store.macros[head.place]?.getD default) :=
    hstore.macroBody head.place
  generalize m.store.macros[head.place]?.getD default = made at hmade ⊢
  have hbase := backdrop_last hframes
  rw [← hframes.length_eq]
  dsimp only
  refine Alike.bind (Alike.set ?_) fun _ _ _ => ?_
  · refine ⟨.cons ?_ (.cons ?_ .nil), hstore, List.forall_mem_nil _, fun _ hd => by cases hd⟩
    · refine .same (List.forall_mem_nil _) (fun _ hd => by cases hd) ?_
      dsimp only
      split
      · exact .captured _
      · exact .nothing
    · exact .intro (List.forall_mem_nil _) (fun _ hd => by cases hd) hbase
  refine checkDepth_steady.andThen fun _ _ => ?_
  -- What the macro puts out is its text, and the frames of its caller are there again.
  have hbody : Alike named (Both (Datum.Keeps named))
      (do
        Run.segment fuel made.template made.body
        let after ← get
        set { m with store := after.store }
        capturedText after.out)
      (do
        Run.segment fuel made.template made.body
        let after ← get
        set { m with frames := frames', store := after.store }
        capturedText after.out) := by
    refine (h.segment made.template made.body hmade.body).andThen fun _ _ => ?_
    refine Alike.get.bind ?_
    rintro after _ ⟨_, hafter, _, _⟩
    refine Alike.bind (Alike.set ?_) fun _ _ _ => capturedText_steady _
    exact ⟨hframes, hafter, hblocks, hparent⟩
  split
  on_goal 1 => refine (assign_steady "caller" (hcaller _ rfl)).andThen fun _ _ => ?_
  -- With or without a caller, the parameters are given their values then.
  all_goals
    refine Alike.andThen (show Steady named Any _ from .forM fun entry hentry => ?_) fun _ _ => hbody
    have hvalue : entry.1.2 ∈ values :=
      (List.of_mem_zip (List.mem_reverse.mp (List.fst_mem_of_mem_zipIdx hentry))).2
    split
    · rename_i e _ he
      have he : e.Keeps named := hmade.defaults e (List.mem_reverse.mp (List.mem_of_getElem? he))
      exact (h.expression e he).andThen fun d hd => assign_steady _ hd
    · exact assign_steady _ (hvalues _ hvalue)

theorem renderNamed_succ {name : String} {data? : Option Datum} (hdata : ∀ d ∈ data?, d.Keeps named) :
    Steady named Any (Run.renderNamed (fuel + 1) name data?) := by
  have hargs : ∀ d ∈ data?.toList, d.Keeps named := fun d hd => hdata d (Option.mem_toList.mp hd)
  have hcall : ∀ {f f' : Datum}, Alike named (Both (Datum.Keeps named))
      (Run.callDatum fuel f data?.toList) (Run.callDatum fuel f' data?.toList) →
      Alike named (Both Any)
        (do pure (← settled (← Run.callDatum fuel f data?.toList)).display)
        (do pure (← settled (← Run.callDatum fuel f' data?.toList)).display) := by
    intro f f' hf
    refine hf.bind fun d d' hd => ?_
    obtain ⟨rfl, hd⟩ := hd
    exact (settled_steady hd).map fun _ _ => trivial
  refine (lookup?_alike name).bind fun d? d?' hfound => ?_
  cases hfound with
  | seen hseen =>
      cases hseen with
      | same hd =>
          split
          · exact h.renderLoaded name data? hdata
          · exact h.renderLoaded name data? hdata
          · exact hcall (h.callDatum _ _ (hd _ rfl) hargs)
      | writer _ _ label label' =>
          -- What lets a template write files cannot be called.
          refine hcall ?_
          cases fuel with
          | zero => exact .exhausted
          | succ fuel => exact .raise _
  | @builtin f hf =>
      refine hcall ?_
      by_cases hfile : f = .toFile
      · exact hfile ▸ toFile_alone fuel data?
      · exact h.callDatum _ _ (Datum.only_function.mpr fun hf => absurd hf hfile) hargs

theorem renderLoaded_succ {name : String} {data? : Option Datum} (hdata : ∀ d ∈ data?, d.Keeps named) :
    Steady named Any (Run.renderLoaded (fuel + 1) name data?) := by
  refine (loaded_steady name).andThen fun document hdocument => ?_
  exact (freshData_alike hdata).bind fun d d' hd => h.renderDocument document d d' hdocument hd

theorem renderDocument_succ {document : Document} {data data' : Datum} (hdocument : document.Keeps named)
    (hdata : Backdrop.Alike named (.data data) (.data data')) :
    Alike named (Both Any) (Run.renderDocument (fuel + 1) document data)
      (Run.renderDocument (fuel + 1) document data') := by
  unfold Run.renderDocument
  refine Alike.get.bind ?_
  rintro m _ ⟨hframes, hstore, hblocks, hparent⟩
  refine Alike.bind (Alike.set ?_) fun _ _ _ => ?_
  · refine ⟨.cons ?_ .nil, { hstore with }, layersOf_keeps hdocument, fun _ hd => by cases hd⟩
    exact .intro (List.forall_mem_nil _) (fun _ hd => by cases hd) hdata
  refine (h.segment document.name document.body hdocument).andThen fun _ _ => ?_
  refine Alike.get.bind ?_
  rintro after _ ⟨_, hafter, _, _⟩
  refine Alike.bind (Alike.set ?_) fun _ _ _ => .pure (.rfl trivial)
  exact ⟨hframes, hafter, hblocks, hparent⟩

theorem segment_succ {name : String} {body : List Statement} (hbody : ∀ s ∈ body, s.Keeps named) :
    Steady named Any (Run.segment (fuel + 1) name body) := by
  unfold Run.segment
  refine Alike.get.bind ?_
  rintro before _ ⟨hframes, hstore, hblocks, hparent⟩
  refine Alike.bind (Alike.set ?_) fun _ _ _ => ?_
  · exact ⟨hframes, hstore, hblocks, fun _ hd => by cases hd⟩
  refine Alike.andThen ((h.body hbody).mapFault _) fun _ _ => ?_
  refine Alike.get.bind ?_
  rintro after _ ⟨_, _, _, hafter⟩
  have hlast : Steady named Any
      (modify fun m : Machine => { m with template := before.template, parent? := before.parent? }) := by
    refine .changing ?_
    rintro m _ ⟨hframes, hstore, hblocks, _⟩
    exact ⟨hframes, hstore, hblocks, hparent⟩
  dsimp only
  split
  · rename_i parent hsome
    refine Alike.andThen (Alike.changing ?_) fun _ _ => ?_
    · rintro m _ ⟨hframes, hstore, hblocks, hparent⟩
      exact ⟨hframes, hstore, hblocks, hparent⟩
    exact (h.segment parent.name parent.body (hafter parent hsome)).andThen fun _ _ => hlast
  · exact hlast

theorem callBlock_succ (name : String) : Steady named Any (Run.callBlock (fuel + 1) name) := by
  unfold Run.callBlock
  refine Alike.get.bind ?_
  rintro m _ ⟨hframes, hstore, hblocks, hparent⟩
  dsimp only
  split
  · split
    · rename_i template body hlayer
      have hbody : ∀ s ∈ body, s.Keeps named := by
        obtain ⟨block, hblock, hlayer⟩ := Option.bind_eq_some_iff.mp hlayer
        exact forall_get? hblocks hblock _ (List.mem_of_getElem? hlayer)
      refine Alike.andThen (Alike.changing ?_) fun _ _ => ?_
      · rintro m _ ⟨hframes, hstore, hblocks, hparent⟩
        exact ⟨hframes, hstore, hblocks, hparent⟩
      refine (inFrame_steady .empty (h.segment template body hbody)).andThen fun _ _ => .changing ?_
      rintro m _ ⟨hframes, hstore, hblocks, hparent⟩
      exact ⟨hframes, hstore, hblocks, hparent⟩
    · exact .raise _
  · exact .pure (.rfl trivial)

theorem parentBlock_succ : Steady named (Datum.Keeps named) (Run.parentBlock (fuel + 1)) := by
  unfold Run.parentBlock
  refine Alike.get.bind ?_
  rintro m _ ⟨_, _, _, _⟩
  dsimp only
  split
  · exact .raise _
  rename_i name _
  refine Alike.get.bind ?_
  rintro m _ ⟨_, _, hblocks, _⟩
  have hblock : ((Entries.get? name m.blocks).getD { layers := [] }).Keeps named := by
    cases hget : Entries.get? name m.blocks with
    | none => exact List.forall_mem_nil _
    | some block => exact forall_get? hblocks hget
  dsimp only
  split
  · exact .raise _
  · rename_i template body hlayer
    have hbody : ∀ s ∈ body, s.Keeps named := hblock _ (List.mem_of_getElem? hlayer)
    refine (setLayer_steady name _).andThen fun _ _ => ?_
    have hinner := captured_steady (inFrame_steady .empty (h.segment template body hbody))
    refine Alike.andThen (hinner.mapFault _) fun result _ => ?_
    exact (setLayer_steady name _).andThen fun _ _ => capturedText_steady _

theorem loopAgain_succ {d : Datum} (hd : d.Keeps named) :
    Steady named (Datum.Keeps named) (Run.loopAgain (fuel + 1) d) := by
  unfold Run.loopAgain
  refine innermostLoop?_steady.andThen fun loop? hloop => ?_
  split
  · exact .raise _
  · rename_i again hagain
    obtain ⟨loop, hsome, hagain⟩ := Option.bind_eq_some_iff.mp hagain
    refine (itemsOf_steady hd).andThen fun result hitems => ?_
    refine (captured_steady (h.loopOver again true result.1 result.2 (hloop loop hsome again hagain)
      hitems)).andThen fun result _ => ?_
    exact capturedText_steady _

theorem loopOver_succ {loop : LoopBody} {recursive : Bool} {items : List Datum} {counted : Bool}
    (hloop : loop.Keeps named) (hitems : ∀ d ∈ items, d.Keeps named) :
    Steady named Any (Run.loopOver (fuel + 1) loop recursive items counted) := by
  have hstart : ∀ depth : Nat, ({ items, counted, index := 0, depth, last? := none } : LoopState).Keeps
      named := fun depth => ⟨hitems, fun _ hlast => by cases hlast⟩
  have hindex : ∀ place i, Steady named Any (modifyLoop place fun state => { state with index := i }) :=
    fun place i => modifyLoop_steady place fun state hstate => { hstate with }
  have hitem : ∀ place i, ∀ d ∈ items, Steady named Any (do
      modifyLoop place fun state => { state with index := i }
      assignTo (Run.expression fuel) fuel loop.target d
      runAll (Run.statement fuel) loop.body) := by
    intro place i d hd
    refine (hindex place i).andThen fun _ _ => ?_
    exact (h.assigning hloop.target (hitems d hd)).andThen fun _ _ => h.body hloop.body
  have hrun : ∀ depth : Nat, Steady named Any (do
      let place ← newLoop { items, counted, index := 0, depth, last? := none }
      let own : FrameLoop := { place, visible := true, again? := if recursive then some loop else none }
      inFrame { loop? := some own } do
        let left ← forItems (fun i d => do
          modifyLoop place fun state => { state with index := i }
          assignTo (Run.expression fuel) fuel loop.target d
          runAll (Run.statement fuel) loop.body) 0 items
        if !left then modifyLoop place fun state => { state with index := items.length }
        pure ((← loopAt place).index = 0 : Bool)) := by
    intro depth
    refine (newLoop_steady (hstart depth)).andThen fun place _ => ?_
    refine inFrame_steady (.ofLoop ?_) ?_
    · intro again hagain
      dsimp only at hagain
      split at hagain
      · exact Option.some.inj hagain ▸ hloop
      · cases hagain
    · refine (forItems_steady (hitem place) 0).andThen fun left _ => ?_
      have hlast : Steady named Any (do pure ((← loopAt place).index = 0 : Bool)) :=
        (loopAt_steady place).andThen fun _ _ => .pure (.rfl trivial)
      dsimp only
      split
      · exact (hindex place _).andThen fun _ _ => hlast
      · exact hlast
  unfold Run.loopOver
  refine innermostLoop?_steady.andThen fun loop? _ => ?_
  dsimp only
  split
  · split
    · exact (loopAt_steady _).andThen fun outer _ => hrun _
    · exact hrun 0
  · exact hrun 0

theorem filtered_succ {target : Target} {test : Expr} {items : List Datum} (htarget : target.Keeps named)
    (htest : test.Keeps named) (hitems : ∀ d ∈ items, d.Keeps named) :
    Steady named (fun items => ∀ d ∈ items, d.Keeps named)
      (Run.filtered (fuel + 1) target test items) := by
  have hstart : ({ items, counted := true, index := 0, depth := 0, last? := none } : LoopState).Keeps
      named := ⟨hitems, fun _ hlast => by cases hlast⟩
  refine (newLoop_steady hstart).andThen fun place _ => ?_
  refine inFrame_steady (.ofLoop fun _ hagain => by cases hagain) ?_
  refine keepItems_steady hitems fun d hd => ?_
  refine (h.assigning htarget (hitems d hd)).andThen fun _ _ => ?_
  refine (h.expression test htest).andThen fun d hd => ?_
  exact (settled_steady hd).andThen fun d _ => .pure (.rfl trivial)

theorem splice_succ (d : Datum) (ignoreMissing : Bool) :
    Steady named Any (Run.splice (fuel + 1) d ignoreMissing) := by
  unfold Run.splice
  extract_lets names
  refine (firstLoaded_steady names).andThen fun document? hdocument => ?_
  split
  · split
    · exact .pure (.rfl trivial)
    · exact .raise _
  · rename_i document
    have hdocument := hdocument document rfl
    refine Alike.get.bind ?_
    rintro m _ ⟨_, _, hblocks, _⟩
    refine frame_alike.bind ?_
    rintro frame _ ⟨_, _, _⟩
    have hframe : ∀ captured? : Option Nat, Steady named Any
        (modifyFrame fun frame => { frame with captured? }) := by
      intro captured?
      refine modifyFrame_steady ?_
      rintro frame _ ⟨hlocals, hloop, hbackdrop⟩
      exact ⟨hlocals, hloop, hbackdrop⟩
    refine (hframe none).andThen fun _ _ => ?_
    refine Alike.andThen (Alike.changing ?_) fun _ _ => ?_
    · rintro m _ ⟨hframes, hstore, _, hparent⟩
      exact ⟨hframes, hstore, layersOf_keeps hdocument, hparent⟩
    refine checkDepth_steady.andThen fun _ _ => ?_
    refine Alike.andThen ((h.segment document.name document.body hdocument).mapFault _) fun _ _ => ?_
    refine (hframe _).andThen fun _ _ => .changing ?_
    rintro m _ ⟨hframes, hstore, _, hparent⟩
    exact ⟨hframes, hstore, hblocks, hparent⟩

theorem filterText_succ {filters : List FilterCall} {d : Datum} (hfilters : ∀ f ∈ filters, f.Keeps named)
    (hd : d.Keeps named) :
    Steady named (Datum.Keeps named) (Run.filterText (fuel + 1) filters d) := by
  unfold Run.filterText
  refine .foldlM hd fun d hd filter hfilter => ?_
  refine (h.arguments (hfilters filter hfilter) fun _ hd => by cases hd).andThen fun args hall => ?_
  exact applyFilter_steady _ (List.forall_mem_cons.mpr ⟨hd, hall⟩)

theorem statement_succ {s : Statement} (hs : s.Keeps named) :
    Steady named Any (Run.statement (fuel + 1) s) := by
  cases hs with
  | data text => exact (emit_steady text).andThen fun _ _ => .pure (.rfl trivial)
  | print he =>
      refine (h.expression _ he).andThen fun d hd => ?_
      exact (print_steady hd).andThen fun _ _ => .pure (.rfl trivial)
  | @loop target items onlyIf recursive body otherwise htarget hitems honlyIf hbody hotherwise =>
      refine (h.expression items hitems).andThen fun d hd => ?_
      refine (itemsOf_steady hd).andThen fun result hresult => ?_
      obtain ⟨items, counted⟩ := result
      have hrun : ∀ (items : List Datum) (counted : Bool), (∀ d ∈ items, d.Keeps named) →
          Steady named Any (do
            let without ← Run.loopOver fuel { target, body } recursive items counted
            if without then runAll (Run.statement fuel) otherwise else pure .normal) := by
        intro items counted hitems
        refine (h.loopOver { target, body } recursive items counted ⟨htarget, hbody⟩ hitems).andThen
          fun without _ => ?_
        split
        · exact h.body hotherwise
        · exact .pure (.rfl trivial)
      cases onlyIf with
      | none => exact hrun items counted hresult
      | some test =>
          refine (h.filtered target test items htarget (honlyIf test rfl) hresult).andThen
            fun items hitems => ?_
          exact hrun items true hitems
  | branch htest hbody hotherwise =>
      refine (h.expression _ htest).andThen fun d hd => ?_
      refine (settled_steady hd).andThen fun d _ => ?_
      split
      · exact h.body hbody
      · exact h.body hotherwise
  | scope htargets hvalues hbody =>
      refine inFrame_steady .empty ?_
      refine Alike.bind (.forM fun entry hentry => ?_) fun _ _ _ => h.body hbody
      refine (h.expression _ (hvalues entry hentry)).andThen fun d hd => ?_
      exact h.assigning (htargets entry hentry) hd
  | assign htarget he =>
      refine (h.expression _ he).andThen fun d hd => ?_
      exact (h.assigning htarget hd).andThen fun _ _ => .pure (.rfl trivial)
  | assignText htarget hfilters hbody =>
      refine (captured_steady (h.body hbody)).andThen fun result _ => ?_
      refine (capturedText_steady _).andThen fun d hd => ?_
      refine (h.filterText _ d hfilters hd).andThen fun d hd => ?_
      exact (h.assigning htarget hd).andThen fun _ _ => .pure (.rfl trivial)
  | escaping hmode hbody =>
      have hset : ∀ escaping : Escaping, Steady named Any
          (modify fun m : Machine => { m with escaping }) := by
        intro escaping
        refine .changing ?_
        rintro m _ ⟨hframes, hstore, hblocks, hparent⟩
        exact ⟨hframes, hstore, hblocks, hparent⟩
      refine Alike.get.bind ?_
      rintro m _ ⟨_, _, _, _⟩
      refine (h.expression _ hmode).andThen fun d _ => ?_
      refine (escapingOf_steady d).andThen fun inside _ => ?_
      refine (hset inside).andThen fun _ _ => ?_
      refine (h.body hbody).andThen fun signal _ => ?_
      exact (hset _).andThen fun _ _ => .pure (.rfl trivial)
  | filtered hfilters hbody =>
      refine (captured_steady (h.body hbody)).andThen fun result _ => ?_
      refine (capturedText_steady _).andThen fun d hd => ?_
      refine (h.filterText _ d hfilters hd).andThen fun d hd => ?_
      exact (print_steady hd).andThen fun _ _ => .pure (.rfl trivial)
  | block => exact (h.callBlock _).andThen fun _ _ => .pure (.rfl trivial)
  | parent he =>
      refine (h.expression _ he).andThen fun d _ => ?_
      exact (extend_steady d).andThen fun _ _ => .pure (.rfl trivial)
  | splice he =>
      refine (h.expression _ he).andThen fun d _ => ?_
      exact (h.splice d _).andThen fun _ _ => .pure (.rfl trivial)
  | @importAll e target he htarget =>
      have hexported : Steady named (Datum.Keeps named) (do
          let d ← Run.expression fuel e
          Run.splice fuel d false
          pure (mapOf (← Run.frame).locals)) := by
        refine (h.expression _ he).andThen fun d _ => ?_
        refine (h.splice d false).andThen fun _ _ => ?_
        refine frame_alike.bind ?_
        rintro frame _ ⟨hlocals, _, _⟩
        exact .pure (.rfl (mapOf_keeps hlocals))
      refine (silenced_steady (inFrame_steady .empty hexported)).andThen fun d hd => ?_
      exact (h.assigning htarget hd).andThen fun _ _ => .pure (.rfl trivial)
  | @importNames e names he hnames =>
      have hvalues : Steady named (fun all : List (String × Datum) => ∀ entry ∈ all, entry.2.Keeps named)
          (do
            let d ← Run.expression fuel e
            Run.splice fuel d false
            names.mapM fun entry => do pure (entry.2, (← lookup? entry.1).getD .undefined)) := by
        refine (h.expression e he).andThen fun d _ => ?_
        refine (h.splice d false).andThen fun _ _ => .mapM fun entry hentry => ?_
        exact (lookup?_steady (hnames entry hentry)).andThen fun d? hd => .pure (.rfl (getD_keeps hd))
      refine (silenced_steady (inFrame_steady .empty hvalues)).andThen fun all hall => ?_
      refine Alike.bind (.forM fun entry hentry => ?_) fun _ _ _ => .pure (.rfl trivial)
      exact assign_steady entry.1 (hall entry hentry)
  | define hdefaults hbody =>
      refine (makeMacro_steady _ _ hdefaults hbody).andThen fun d hd => ?_
      exact (assign_steady _ hd).andThen fun _ _ => .pure (.rfl trivial)
  | callWith hcallee hargs hdefaults hbody =>
      refine (makeMacro_steady _ _ hdefaults hbody).andThen fun caller hmade => ?_
      refine (h.call _ _ (some caller) hcallee hargs fun _ hd => Option.some.inj hd ▸ hmade).andThen
        fun d hd => ?_
      exact (print_steady hd).andThen fun _ _ => .pure (.rfl trivial)
  | run hcallee hargs =>
      refine (h.call _ _ none hcallee hargs fun _ hd => by cases hd).andThen fun _ _ => ?_
      exact .pure (.rfl trivial)
  | next | leave => exact .pure (.rfl trivial)

/-- **One level deeper goes alike, too.** -/
theorem succ : Steadily named (fuel + 1) where
  expression _ he := h.expression_succ he
  call _ _ _ hcallee hargs hcaller := h.call_succ hcallee hargs hcaller
  callDatum _ _ hf hargs := h.callDatum_succ hf hargs
  callMethod _ _ _ hd hargs := h.callMethod_succ hd hargs
  callMacro _ _ hargs := h.callMacro_succ hargs
  renderNamed _ _ hdata := h.renderNamed_succ hdata
  renderLoaded _ _ hdata := h.renderLoaded_succ hdata
  renderDocument _ _ _ hdocument hdata := h.renderDocument_succ hdocument hdata
  segment _ _ hbody := h.segment_succ hbody
  callBlock name := h.callBlock_succ name
  parentBlock := h.parentBlock_succ
  loopAgain _ hd := h.loopAgain_succ hd
  loopOver _ _ _ _ hloop hitems := h.loopOver_succ hloop hitems
  filtered _ _ _ htarget htest hitems := h.filtered_succ htarget htest hitems
  splice d ignoreMissing := h.splice_succ d ignoreMissing
  statement _ hs := h.statement_succ hs
  filterText _ _ hfilters hd := h.filterText_succ hfilters hd

omit h in
/-- **All of an evaluation goes alike**, however many levels it is allowed. -/
theorem all (fuel : Nat) : Steadily named fuel := by
  induction fuel with
  | zero => exact zero
  | succ fuel ih => exact ih.succ

end Steadily

end Run

/-! ## Whole templates -/

/-- The data of a template are the same in two scopes but for the writers. -/
theorem Datum.ofContext_alike {scope scope' : Scope} (context : Value)
    (h : scope = scope' ∨ ¬ named writerName) :
    Backdrop.Alike named (.data (.ofContext scope context)) (.data (.ofContext scope' context)) := by
  have hfound : Run.Found named writerName (some (.writer scope.label)) (some (.writer scope'.label)) := by
    refine .seen ?_
    rcases h with rfl | hnamed
    · exact .same fun d hd => Option.some.inj hd ▸ Datum.only_writer _
    · exact .writer rfl hnamed _ _
  refine Run.ofPairs_alike ?_ hfound
  cases context with
  | map entries => exact Datum.ofEntries_only entries
  | _ => exact List.forall_mem_nil _

theorem Document.rendering_alike (depth : Nat) {document : Document} {data data' : Datum}
    (hdocument : document.Keeps named) (hdata : Backdrop.Alike named (.data data) (.data data')) :
    Rendering.Alike named Eq (document.rendering depth data) (document.rendering depth data') := by
  have hstart : Machine.Alike named {} {} := by
    refine .intro .nil ⟨?_, ?_, ?_, ?_⟩ (List.forall_mem_nil _) fun _ hd => by cases hd
    all_goals simp
  refine ((Run.Steadily.all depth).renderDocument document data data' hdocument hdata _ _ hstart).bind ?_
  rintro result result' ⟨⟨heq, _⟩, _⟩
  exact .done heq

/-- **The scope of a template shows only by the name of its writer**: where no such name is looked up,
neither in the template nor in one that is loaded, the rendering asks for the same and ends alike. -/
theorem rendering_alike {name text : String} {scope scope' : Scope} (context : Value)
    (h : scope = scope' ∨ ¬ named writerName)
    (htext : ∀ document, Document.ofString name text = .ok document → document.Keeps named) :
    Rendering.Alike named Eq (rendering name text context scope) (rendering name text context scope') := by
  unfold rendering
  cases hdocument : Document.ofString name text with
  | error fault => exact .fail fault
  | ok document =>
      exact Document.rendering_alike maxDepth (htext document hdocument) (Datum.ofContext_alike context h)

end Stencil.Template
