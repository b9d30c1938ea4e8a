import Stencil.Proofs.Template.Functions
import Stencil.Proofs.Template.Names
import Stencil.Template.Grammar.Statement

/-!
# The names that a template is read with

A template has no names but those among its tokens: every reader of the grammar, started where all names
among the tokens are of a kind, gives a part of a template with names of this kind only, and leaves tokens
that are such again. The readers that call each other are taken together, by induction on their fuel.
-/

namespace Stencil.Template

variable {named : String → Prop} {α : Type}

/-- Whether a token, if it is a name, is of a kind. -/
def Token.Keeps (named : String → Prop) (token : Token) : Prop := ∀ text, token = .name text → named text

/-- Whether all names that are left to read are of a kind. -/
def Cursor.Keeps (named : String → Prop) (cursor : Cursor) : Prop := ∀ token ∈ cursor.rest, token.Keeps named

namespace Grammar

/-- Whether a reader gives what is good where all names are of a kind. -/
abbrev Reads (named : String → Prop) (good : α → Prop) (reader : Grammar α) : Prop :=
  Keeping (Cursor.Keeps named) good reader

/-- What is the case of anything that is read. -/
abbrev Any (_ : α) : Prop := True

/-! ## Tokens -/

theorem refuse_reads {good : α → Prop} {why : String} : Reads named good (refuse why) := Keeping.throw

theorem peek_reads : Reads named (fun token? => ∀ token ∈ token?, token.Keeps named) peek := by
  refine Keeping.get_bind fun cursor h => ?_
  split
  · rename_i hrest
    refine ⟨fun t ht => ?_, h⟩
    obtain rfl := Option.some.inj ht
    exact h _ (hrest ▸ List.mem_cons_self)
  · trivial
  · exact ⟨fun _ ht => absurd ht (by simp), h⟩

theorem next_reads : Reads named (fun token? => ∀ token ∈ token?, token.Keeps named) next := by
  refine peek_reads.bind fun token? htoken => ?_
  have hdrop : Reads named (Any (α := PUnit))
      (modify fun cursor : Cursor => { cursor with rest := cursor.rest.drop 1 }) :=
    fun cursor h => ⟨trivial, fun token ht => h token (List.mem_of_mem_drop ht)⟩
  exact hdrop.bind fun _ _ => .pure htoken

theorem sees_reads (kind : Token → Bool) : Reads named Any (sees kind) := by
  refine peek_reads.bind fun token? _ => ?_
  split <;> exact .pure trivial

theorem skip_reads (kind : Token → Bool) : Reads named Any (skip kind) := by
  refine (sees_reads kind).bind fun seen _ => ?_
  split
  · exact next_reads.bind fun _ _ => .pure trivial
  · exact .pure trivial

theorem mark_reads (text : String) : Reads named Any (mark text) := by
  refine (skip_reads _).bind fun skipped _ => ?_
  split
  · exact refuse_reads
  · exact .pure trivial

theorem word_reads (text : String) : Reads named Any (word text) := by
  refine (skip_reads _).bind fun skipped _ => ?_
  split
  · exact refuse_reads
  · exact .pure trivial

theorem name_reads : Reads named named name := by
  refine next_reads.bind fun token? htoken => ?_
  split
  · exact .pure (htoken _ rfl _ rfl)
  · exact refuse_reads

theorem close_reads : Reads named Any close := by
  refine (skip_reads _).bind fun skipped _ => ?_
  split
  · exact refuse_reads
  · exact .pure trivial

theorem bound_reads : Reads named Any bound := fun _ h => ⟨trivial, h⟩

theorem itemsUntil_reads {stop : String} {good : α → Prop} {item : Grammar α} (h : Reads named good item)
    (fuel : Nat) (first : Bool) :
    Reads named (fun items => ∀ a ∈ items, good a) (itemsUntil stop item fuel first) := by
  induction fuel generalizing first with
  | zero => exact refuse_reads
  | succ fuel ih =>
      have hnil : Reads named (fun items => ∀ a ∈ items, good a) (pure []) :=
        .pure (List.forall_mem_nil _)
      have hitem : Reads named (fun items => ∀ a ∈ items, good a) (do
          let x ← item
          let rest ← itemsUntil stop item fuel false
          pure (x :: rest)) :=
        h.bind fun a ha => (ih false).bind fun rest hrest => .pure (List.forall_mem_cons.mpr ⟨ha, hrest⟩)
      unfold itemsUntil
      refine (skip_reads _).bind fun stopped _ => ?_
      split
      · exact hnil
      have hrest : Reads named (fun items => ∀ a ∈ items, good a) (do
          if !first && (← skipMark stop) then pure []
          else
            let x ← item
            let rest ← itemsUntil stop item fuel false
            pure (x :: rest)) := by
        refine (skip_reads _).bind fun stopped _ => ?_
        split
        · exact hnil
        · exact hitem
      dsimp only
      split
      · exact (mark_reads ",").bind fun _ _ => hrest
      · exact hrest

/-- What may be left out, and is there. -/
theorem given_reads {good : α → Prop} {reader : Grammar α} (h : Reads named good reader) :
    Reads named (fun a? => ∀ a ∈ a?, good a) (some <$> reader) :=
  h.map fun _ ha _ hsome => Option.some.inj hsome ▸ ha

/-- What may be left out, and is not there. -/
theorem missing_reads {good : α → Prop} : Reads named (fun a? => ∀ a ∈ a?, good a) (pure none) :=
  .pure fun _ h => absurd h (by simp)

/-! ## Operators -/

variable {operand : Grammar Expr}

theorem nested_reads {good : α → Prop} {depth : Nat} {reader : Nat → Grammar α}
    (h : ∀ depth, Reads named good (reader depth)) : Reads named good (nested depth reader) := by
  unfold nested
  split
  · exact refuse_reads
  · exact h _

theorem chainFrom_reads {operators : List (Token × BinaryOp)}
    (h : Reads named (Expr.Keeps named) operand) (fuel : Nat) {left : Expr} (hleft : left.Keeps named) :
    Reads named (Expr.Keeps named) (chainFrom operators operand fuel left) := by
  induction fuel generalizing left with
  | zero => exact .pure hleft
  | succ fuel ih =>
      refine peek_reads.bind fun token? _ => ?_
      dsimp only
      split
      · refine next_reads.bind fun _ _ => ?_
        exact h.bind fun right hright => ih (.binary hleft hright)
      · exact .pure hleft

theorem chain_reads {operators : List (Token × BinaryOp)} (h : Reads named (Expr.Keeps named) operand) :
    Reads named (Expr.Keeps named) (chain operators operand) :=
  h.bind fun _ hleft => bound_reads.bind fun fuel _ => chainFrom_reads h fuel hleft

theorem sums_reads (h : Reads named (Expr.Keeps named) operand) :
    Reads named (Expr.Keeps named) (sums operand) :=
  chain_reads (chain_reads (chain_reads (chain_reads h)))

theorem compareFrom_reads (h : Reads named (Expr.Keeps named) operand) (fuel : Nat) {left : Expr}
    (hleft : left.Keeps named) : Reads named (Expr.Keeps named) (compareFrom operand fuel left) := by
  induction fuel generalizing left with
  | zero => exact .pure hleft
  | succ fuel ih =>
      refine peek_reads.bind fun token? _ => ?_
      split
      · split
        · refine next_reads.bind fun _ _ => ?_
          exact h.bind fun right hright => ih (.binary hleft hright)
        · exact .pure hleft
      · refine next_reads.bind fun _ _ => ?_
        exact h.bind fun right hright => ih (.binary hleft hright)
      · refine next_reads.bind fun _ _ => (word_reads "in").bind fun _ _ => ?_
        exact h.bind fun right hright => ih (.unary (.binary hleft hright))
      · exact .pure hleft

theorem compared_reads (h : Reads named (Expr.Keeps named) operand) :
    Reads named (Expr.Keeps named) (compared operand) :=
  (sums_reads h).bind fun _ hleft => bound_reads.bind fun fuel _ =>
    compareFrom_reads (sums_reads h) fuel hleft

theorem negations_reads (h : Reads named (Expr.Keeps named) operand) (fuel depth : Nat) :
    Reads named (Expr.Keeps named) (negations operand fuel depth) := by
  induction fuel generalizing depth with
  | zero => exact refuse_reads
  | succ fuel ih =>
      refine (skip_reads _).bind fun negated _ => ?_
      split
      · exact (nested_reads ih).bind fun e he => .pure (.unary he)
      · exact compared_reads h

theorem disjunctions_reads (h : Reads named (Expr.Keeps named) operand) (depth : Nat) :
    Reads named (Expr.Keeps named) (disjunctions operand depth) :=
  bound_reads.bind fun fuel _ => chain_reads (chain_reads (negations_reads h fuel depth))

/-! ## Expressions -/

/-- Whether all readers of expressions give expressions with names of a kind only. -/
structure ExpressionsRead (named : String → Prop) (fuel : Nat) : Prop where
  expression : ∀ depth, Reads named (Expr.Keeps named) (expression fuel depth)
  choices : ∀ depth, Reads named (Expr.Keeps named) (choices fuel depth)
  choicesFrom : ∀ (depth : Nat) (e : Expr), e.Keeps named →
    Reads named (Expr.Keeps named) (choicesFrom fuel depth e)
  signed : ∀ depth, Reads named (Expr.Keeps named) (signed fuel depth)
  sign : ∀ depth, Reads named (Expr.Keeps named) (sign fuel depth)
  primary : ∀ depth, Reads named (Expr.Keeps named) (primary fuel depth)
  entry : ∀ depth, Reads named (fun entry => entry.1.Keeps named ∧ entry.2.Keeps named)
    (entry fuel depth)
  parenthesised : ∀ depth, Reads named (Expr.Keeps named) (parenthesised fuel depth)
  postfixesFrom : ∀ (depth : Nat) (e : Expr), e.Keeps named →
    Reads named (Expr.Keeps named) (postfixesFrom fuel depth e)
  subscript : ∀ (depth : Nat) (e : Expr), e.Keeps named →
    Reads named (Expr.Keeps named) (subscript fuel depth e)
  filtersFrom : ∀ (depth : Nat) (e : Expr), e.Keeps named →
    Reads named (Expr.Keeps named) (filtersFrom fuel depth e)
  arguments : ∀ depth, Reads named (fun args => ∀ a ∈ args, a.Keeps named) (arguments fuel depth)
  argument : ∀ depth, Reads named (Argument.Keeps named) (argument fuel depth)

namespace ExpressionsRead

theorem zero : ExpressionsRead named 0 := by
  constructor
  case choicesFrom =>
    intro depth e he
    unfold Grammar.choicesFrom
    exact .pure he
  all_goals
    intros
    first
      | unfold Grammar.expression | unfold Grammar.choices | unfold Grammar.signed | unfold Grammar.sign
      | unfold Grammar.primary | unfold Grammar.entry | unfold Grammar.parenthesised
      | unfold Grammar.postfixesFrom | unfold Grammar.subscript | unfold Grammar.filtersFrom
      | unfold Grammar.arguments | unfold Grammar.argument
    exact refuse_reads

variable {fuel : Nat} (h : ExpressionsRead named fuel)
include h

theorem expression_succ (depth : Nat) :
    Reads named (Expr.Keeps named) (Grammar.expression (fuel + 1) depth) := by
  unfold Grammar.expression
  exact nested_reads h.choices

theorem choices_succ (depth : Nat) :
    Reads named (Expr.Keeps named) (Grammar.choices (fuel + 1) depth) := by
  unfold Grammar.choices
  exact (disjunctions_reads (h.signed depth) depth).bind fun value hvalue =>
    h.choicesFrom depth value hvalue

theorem choicesFrom_succ (depth : Nat) {e : Expr} (he : e.Keeps named) :
    Reads named (Expr.Keeps named) (Grammar.choicesFrom (fuel + 1) depth e) := by
  unfold Grammar.choicesFrom
  refine (skip_reads _).bind fun chosen _ => ?_
  split
  · refine (disjunctions_reads (h.signed depth) depth).bind fun test htest => ?_
    refine (skip_reads _).bind fun more _ => ?_
    have hotherwise : ∀ otherwise : Option Expr, (∀ e ∈ otherwise, e.Keeps named) →
        Reads named (Expr.Keeps named) (Grammar.choicesFrom fuel depth (.choice test e otherwise)) :=
      fun otherwise hotherwise => h.choicesFrom depth _ (.choice htest he hotherwise)
    dsimp only
    split
    · exact (given_reads (h.choices depth)).bind hotherwise
    · exact missing_reads.bind hotherwise
  · exact .pure he

theorem signed_succ (depth : Nat) : Reads named (Expr.Keeps named) (Grammar.signed (fuel + 1) depth) := by
  unfold Grammar.signed
  exact (h.sign depth).bind fun e he => h.filtersFrom depth e he

theorem sign_succ (depth : Nat) : Reads named (Expr.Keeps named) (Grammar.sign (fuel + 1) depth) := by
  unfold Grammar.sign
  refine (skip_reads _).bind fun negated _ => ?_
  split
  · exact (nested_reads h.sign).bind fun e he => .pure (.unary he)
  · exact (nested_reads h.primary).bind fun e he => h.postfixesFrom depth e he

theorem primary_succ (depth : Nat) :
    Reads named (Expr.Keeps named) (Grammar.primary (fuel + 1) depth) := by
  unfold Grammar.primary
  refine next_reads.bind fun token? htoken => ?_
  split
  · refine .pure ?_
    repeat' split
    · exact .literal _
    · exact .literal _
    · exact .literal _
    · exact .variable (htoken _ rfl _ rfl)
  · exact .pure (.literal _)
  · exact .pure (.literal _)
  · exact .pure (.literal _)
  · exact h.parenthesised depth
  · refine bound_reads.bind fun fuel _ => ?_
    exact (itemsUntil_reads (h.expression depth) fuel true).bind fun items hitems => .pure (.list hitems)
  · refine bound_reads.bind fun fuel _ => ?_
    refine (itemsUntil_reads (h.entry depth) fuel true).bind fun entries hentries => .pure ?_
    exact .map (fun entry hentry => (hentries entry hentry).1) fun entry hentry =>
      (hentries entry hentry).2
  · exact refuse_reads
  · exact refuse_reads

theorem entry_succ (depth : Nat) :
    Reads named (fun entry => entry.1.Keeps named ∧ entry.2.Keeps named)
      (Grammar.entry (fuel + 1) depth) := by
  unfold Grammar.entry
  refine (h.expression depth).bind fun key hkey => ?_
  refine (mark_reads ":").bind fun _ _ => ?_
  exact (h.expression depth).bind fun value hvalue => .pure ⟨hkey, hvalue⟩

theorem parenthesised_succ (depth : Nat) :
    Reads named (Expr.Keeps named) (Grammar.parenthesised (fuel + 1) depth) := by
  unfold Grammar.parenthesised
  refine (skip_reads _).bind fun closed _ => ?_
  split
  · exact .pure (.list (List.forall_mem_nil _))
  refine (h.expression depth).bind fun first hfirst => ?_
  refine (skip_reads _).bind fun more _ => ?_
  split
  · refine bound_reads.bind fun fuel _ => ?_
    refine (itemsUntil_reads (h.expression depth) fuel true).bind fun rest hrest => .pure ?_
    exact .list (List.forall_mem_cons.mpr ⟨hfirst, hrest⟩)
  · exact (mark_reads ")").bind fun _ _ => .pure hfirst

theorem postfixesFrom_succ (depth : Nat) {e : Expr} (he : e.Keeps named) :
    Reads named (Expr.Keeps named) (Grammar.postfixesFrom (fuel + 1) depth e) := by
  unfold Grammar.postfixesFrom
  refine peek_reads.bind fun token? _ => ?_
  split
  · refine next_reads.bind fun _ _ => next_reads.bind fun token? _ => ?_
    split
    · exact h.postfixesFrom depth _ (.attribute he)
    · exact h.postfixesFrom depth _ (.item he (.literal _))
    · exact refuse_reads
  · refine next_reads.bind fun _ _ => ?_
    exact (h.subscript depth e he).bind fun e he => h.postfixesFrom depth e he
  · exact (h.arguments depth).bind fun args hargs => h.postfixesFrom depth _ (.call he hargs)
  · exact .pure he

theorem subscript_succ (depth : Nat) {e : Expr} (he : e.Keeps named) :
    Reads named (Expr.Keeps named) (Grammar.subscript (fuel + 1) depth e) := by
  have hgiven : Reads named (fun e? => ∀ e ∈ e?, e.Keeps named)
      (some <$> Grammar.expression fuel depth) := given_reads (h.expression depth)
  have hslice : ∀ start : Option Expr, (∀ e ∈ start, e.Keeps named) →
      ∀ stop : Option Expr, (∀ e ∈ stop, e.Keeps named) → Reads named (Expr.Keeps named) (do
        let step ←
          if ← skipMark ":" then
            if ← sees (Token.isMark "]") then pure none else some <$> Grammar.expression fuel depth
          else pure none
        mark "]"
        pure (.slice e start stop step)) := by
    intro start hstart stop hstop
    have hend : ∀ step : Option Expr, (∀ e ∈ step, e.Keeps named) → Reads named (Expr.Keeps named) (do
        mark "]"
        pure (.slice e start stop step)) := fun step hstep =>
      (mark_reads "]").bind fun _ _ => .pure (.slice he hstart hstop hstep)
    refine (skip_reads _).bind fun more _ => ?_
    dsimp only
    split
    · refine (sees_reads _).bind fun closed _ => ?_
      split
      · exact missing_reads.bind hend
      · exact hgiven.bind hend
    · exact missing_reads.bind hend
  unfold Grammar.subscript
  refine (sees_reads _).bind fun open' _ => ?_
  extract_lets rest
  have hstart : ∀ start : Option Expr, (∀ e ∈ start, e.Keeps named) →
      Reads named (Expr.Keeps named) (rest start) := by
    intro start hstart
    refine (skip_reads _).bind fun sliced _ => ?_
    split
    · refine (sees_reads _).bind fun closed _ => ?_
      split
      · exact missing_reads.bind (hslice start hstart)
      · exact hgiven.bind (hslice start hstart)
    · refine (mark_reads "]").bind fun _ _ => ?_
      split
      · exact .pure (.item he (hstart _ rfl))
      · exact refuse_reads
  split
  · exact missing_reads.bind hstart
  · exact hgiven.bind hstart

theorem filtersFrom_succ (depth : Nat) {e : Expr} (he : e.Keeps named) :
    Reads named (Expr.Keeps named) (Grammar.filtersFrom (fuel + 1) depth e) := by
  have hnone : Reads named (fun args : List Argument => ∀ a ∈ args, a.Keeps named) (pure []) :=
    .pure (List.forall_mem_nil _)
  unfold Grammar.filtersFrom
  refine (skip_reads _).bind fun filtered _ => ?_
  split
  · refine name_reads.bind fun filter _ => ?_
    have hrest : ∀ args : List Argument, (∀ a ∈ args, a.Keeps named) →
        Reads named (Expr.Keeps named) (Grammar.filtersFrom fuel depth (.filter e filter args)) :=
      fun args hargs => h.filtersFrom depth _ (.filter he hargs)
    refine (sees_reads _).bind fun called _ => ?_
    dsimp only
    split
    · exact (h.arguments depth).bind hrest
    · exact hnone.bind hrest
  refine (skip_reads _).bind fun checked _ => ?_
  split
  · refine (skip_reads _).bind fun negated _ => ?_
    refine name_reads.bind fun check _ => ?_
    have hrest : ∀ args : List Argument, (∀ a ∈ args, a.Keeps named) → Reads named (Expr.Keeps named)
        (Grammar.filtersFrom fuel depth
          (if negated then .unary .not (.check e check args) else .check e check args)) := by
      intro args hargs
      refine h.filtersFrom depth _ ?_
      split
      · exact .unary (.check he hargs)
      · exact .check he hargs
    refine (sees_reads _).bind fun called _ => ?_
    dsimp only
    split
    · exact (sees_reads _).bind fun _ _ => (h.arguments depth).bind hrest
    refine (sees_reads _).bind fun argument _ => ?_
    split
    · refine (h.sign depth).bind fun a ha => ?_
      exact Keeping.bind (.pure (List.forall_mem_singleton.mpr (.positional ha))) hrest
    · exact hnone.bind hrest
  · exact .pure he

theorem arguments_succ (depth : Nat) :
    Reads named (fun args => ∀ a ∈ args, a.Keeps named) (Grammar.arguments (fuel + 1) depth) := by
  unfold Grammar.arguments
  refine (mark_reads "(").bind fun _ _ => bound_reads.bind fun fuel _ => ?_
  refine (itemsUntil_reads (h.argument depth) fuel true).bind fun args hargs => ?_
  split
  · split
    · exact refuse_reads
    · exact .pure hargs
  · exact refuse_reads

theorem argument_succ (depth : Nat) :
    Reads named (Argument.Keeps named) (Grammar.argument (fuel + 1) depth) := by
  unfold Grammar.argument
  refine (skip_reads _).bind fun spreadNamed _ => ?_
  split
  · exact (h.expression depth).map fun e he => .spreadNamed he
  refine (skip_reads _).bind fun spread _ => ?_
  split
  · exact (h.expression depth).map fun e he => .spread he
  refine (h.expression depth).bind fun value hvalue => ?_
  split
  · refine (skip_reads _).bind fun named _ => ?_
    split
    · exact (disjunctions_reads (h.signed depth) depth).bind fun value hvalue => .pure (.named hvalue)
    · exact .pure (.positional hvalue)
  · exact .pure (.positional hvalue)

theorem succ : ExpressionsRead named (fuel + 1) where
  expression := h.expression_succ
  choices := h.choices_succ
  choicesFrom depth _ he := h.choicesFrom_succ depth he
  signed := h.signed_succ
  sign := h.sign_succ
  primary := h.primary_succ
  entry := h.entry_succ
  parenthesised := h.parenthesised_succ
  postfixesFrom depth _ he := h.postfixesFrom_succ depth he
  subscript depth _ he := h.subscript_succ depth he
  filtersFrom depth _ he := h.filtersFrom_succ depth he
  arguments := h.arguments_succ
  argument := h.argument_succ

omit h in
theorem all (fuel : Nat) : ExpressionsRead named fuel := by
  induction fuel with
  | zero => exact zero
  | succ fuel ih => exact ih.succ

end ExpressionsRead

/-! ## Targets -/

theorem freeName_reads : Reads named named freeName := by
  refine name_reads.bind fun text htext => ?_
  split
  · exact refuse_reads
  · exact .pure htext

theorem attributesFrom_reads (fuel : Nat) {object : Expr} (h : object.Keeps named) (last : String) :
    Reads named (Target.Keeps named) (attributesFrom fuel object last) := by
  induction fuel generalizing object last with
  | zero => exact .pure (.attribute h)
  | succ fuel ih =>
      refine (skip_reads _).bind fun more _ => ?_
      split
      · exact name_reads.bind fun text _ => ih (.attribute h) text
      · exact .pure (.attribute h)

theorem dottedName_reads : Reads named (Target.Keeps named) dottedName := by
  refine freeName_reads.bind fun text htext => ?_
  refine (skip_reads _).bind fun dotted _ => ?_
  split
  · refine name_reads.bind fun last _ => bound_reads.bind fun fuel _ => ?_
    exact attributesFrom_reads fuel (.variable htext) last
  · exact .pure (.variable text)

theorem targetItem_reads {inner : Grammar Target} (h : Reads named (Target.Keeps named) inner)
    (dotted : Bool) : Reads named (Target.Keeps named) (targetItem dotted inner) := by
  refine (skip_reads _).bind fun bracketed _ => ?_
  split
  · exact h.bind fun target htarget => (mark_reads ")").bind fun _ _ => .pure htarget
  · split
    · exact dottedName_reads
    · exact freeName_reads.map fun text _ => .variable text

theorem more_reads {inner : Grammar Target} (h : Reads named (Target.Keeps named) inner) (dotted : Bool)
    (fuel : Nat) :
    Reads named (fun targets => ∀ t ∈ targets, t.Keeps named) (targets.more dotted inner fuel) := by
  induction fuel with
  | zero => exact .pure (List.forall_mem_nil _)
  | succ fuel ih =>
      refine (skip_reads _).bind fun more _ => ?_
      split
      · refine (sees_reads _).bind fun ended _ => ?_
        split
        · exact .pure (List.forall_mem_nil _)
        · refine (targetItem_reads h dotted).bind fun target htarget => ?_
          exact ih.bind fun rest hrest => .pure (List.forall_mem_cons.mpr ⟨htarget, hrest⟩)
      · exact .pure (List.forall_mem_nil _)

theorem targets_reads (dotted : Bool) (fuel : Nat) :
    Reads named (Target.Keeps named) (targets dotted fuel) := by
  induction fuel generalizing dotted with
  | zero => exact refuse_reads
  | succ fuel ih =>
      refine (targetItem_reads (ih false) dotted).bind fun first hfirst => ?_
      refine (sees_reads _).bind fun several _ => ?_
      split
      · refine bound_reads.bind fun bound _ => ?_
        refine (more_reads (ih false) dotted bound).bind fun rest hrest => .pure ?_
        exact .several (List.forall_mem_cons.mpr ⟨hfirst, hrest⟩)
      · exact .pure hfirst

/-! ## Parts of statements -/

theorem effort_reads : Reads named Any effort := fun _ h => ⟨trivial, h⟩

theorem value_reads (s : Surroundings) : Reads named (Expr.Keeps named) (value s) :=
  effort_reads.bind fun fuel _ => (ExpressionsRead.all fuel).expression s.depth

theorem plainValue_reads (s : Surroundings) : Reads named (Expr.Keeps named) (plainValue s) :=
  effort_reads.bind fun fuel _ => disjunctions_reads ((ExpressionsRead.all fuel).signed s.depth) s.depth

theorem filterChain_reads (s : Surroundings) (fuel : Nat) (first : Bool) :
    Reads named (fun filters => ∀ f ∈ filters, f.Keeps named) (filterChain s fuel first) := by
  induction fuel generalizing first with
  | zero => exact refuse_reads
  | succ fuel ih =>
      have hrest : ∀ (filter : String) (args : List Argument), (∀ a ∈ args, a.Keeps named) →
          Reads named (fun filters => ∀ f ∈ filters, f.Keeps named) (do
            let rest ← filterChain s fuel false
            pure ({ name := filter, arguments := args } :: rest)) := fun filter args hargs =>
        (ih false).bind fun rest hrest => .pure (List.forall_mem_cons.mpr ⟨hargs, hrest⟩)
      have hfilter : Reads named (fun filters => ∀ f ∈ filters, f.Keeps named) (do
          let filter ← name
          let args ← if ← sees (Token.isMark "(") then do arguments (← effort) s.depth else pure []
          let rest ← filterChain s fuel false
          pure ({ name := filter, arguments := args } :: rest)) := by
        refine name_reads.bind fun filter _ => ?_
        refine (sees_reads _).bind fun called _ => ?_
        dsimp only
        split
        · refine effort_reads.bind fun effort _ => ?_
          exact ((ExpressionsRead.all effort).arguments s.depth).bind (hrest filter)
        · exact Keeping.bind (.pure (List.forall_mem_nil _)) (hrest filter)
      unfold filterChain
      refine (sees_reads _).bind fun closed _ => ?_
      split
      · split
        · exact refuse_reads
        · exact .pure (List.forall_mem_nil _)
      · dsimp only
        split
        · exact (mark_reads "|").bind fun _ _ => hfilter
        · exact hfilter

theorem parameters_reads (s : Surroundings) (fuel : Nat) (first defaulted : Bool) :
    Reads named (fun result => ∀ e ∈ result.2, e.Keeps named) (parameters s fuel first defaulted) := by
  induction fuel generalizing first defaulted with
  | zero => exact refuse_reads
  | succ fuel ih =>
      have hnone : Reads named (fun result : List String × List Expr => ∀ e ∈ result.2, e.Keeps named)
          (pure ([], [])) := .pure (List.forall_mem_nil _)
      have hrest : ∀ (parameter : String) (hasDefault : Bool) (default? : Option Expr),
          (∀ e ∈ default?, e.Keeps named) →
          Reads named (fun result : List String × List Expr => ∀ e ∈ result.2, e.Keeps named) (do
            let rest ← parameters s fuel false hasDefault
            pure (parameter :: rest.1, default?.toList ++ rest.2)) := by
        intro parameter hasDefault default? hdefault
        refine (ih false hasDefault).bind fun result hresult => .pure ?_
        exact List.forall_mem_append.mpr ⟨fun e he => hdefault e (Option.mem_toList.mp he), hresult⟩
      have hdefault : ∀ (parameter : String) (hasDefault : Bool),
          Reads named (fun result : List String × List Expr => ∀ e ∈ result.2, e.Keeps named) (do
            let default? ← if hasDefault then some <$> value s else pure none
            let rest ← parameters s fuel false hasDefault
            pure (parameter :: rest.1, default?.toList ++ rest.2)) := by
        intro parameter hasDefault
        dsimp only
        split
        · exact (given_reads (value_reads s)).bind (hrest parameter _)
        · exact missing_reads.bind (hrest parameter _)
      have hparameter : Reads named
          (fun result : List String × List Expr => ∀ e ∈ result.2, e.Keeps named) (do
            let parameter ← freeName
            if defaulted then mark "="
            let hasDefault ← if defaulted then pure true else skipMark "="
            let default? ← if hasDefault then some <$> value s else pure none
            let rest ← parameters s fuel false hasDefault
            pure (parameter :: rest.1, default?.toList ++ rest.2)) := by
        refine freeName_reads.bind fun parameter _ => ?_
        dsimp only
        split
        · exact (mark_reads "=").bind fun _ _ => Keeping.bind (.pure trivial) fun hasDefault (_ : True) =>
            hdefault parameter hasDefault
        · exact (skip_reads _).bind fun hasDefault _ => hdefault parameter hasDefault
      have hmore : Reads named
          (fun result : List String × List Expr => ∀ e ∈ result.2, e.Keeps named) (do
            if !first && (← skipMark ")") then pure ([], [])
            else
              let parameter ← freeName
              if defaulted then mark "="
              let hasDefault ← if defaulted then pure true else skipMark "="
              let default? ← if hasDefault then some <$> value s else pure none
              let rest ← parameters s fuel false hasDefault
              pure (parameter :: rest.1, default?.toList ++ rest.2)) := by
        refine (skip_reads _).bind fun closed _ => ?_
        split
        · exact hnone
        · exact hparameter
      unfold parameters
      refine (skip_reads _).bind fun closed _ => ?_
      split
      · exact hnone
      · dsimp only
        split
        · exact (mark_reads ",").bind fun _ _ => hmore
        · exact hmore

theorem assignments_reads (s : Surroundings) (fuel : Nat) (first : Bool) :
    Reads named (fun all => ∀ entry ∈ all, entry.1.Keeps named ∧ entry.2.Keeps named)
      (assignments s fuel first) := by
  induction fuel generalizing first with
  | zero => exact refuse_reads
  | succ fuel ih =>
      have hentry : Reads named (fun all => ∀ entry ∈ all, entry.1.Keeps named ∧ entry.2.Keeps named) (do
          let target ← targetItem false (targets false fuel)
          mark "="
          let e ← value s
          let rest ← assignments s fuel false
          pure ((target, e) :: rest)) := by
        refine (targetItem_reads (targets_reads false fuel) false).bind fun target htarget => ?_
        refine (mark_reads "=").bind fun _ _ => (value_reads s).bind fun e he => ?_
        exact (ih false).bind fun rest hrest =>
          .pure (List.forall_mem_cons.mpr ⟨⟨htarget, he⟩, hrest⟩)
      unfold assignments
      refine (sees_reads _).bind fun closed _ => ?_
      split
      · exact .pure (List.forall_mem_nil _)
      · dsimp only
        split
        · exact (mark_reads ",").bind fun _ _ => hentry
        · exact hentry

theorem importedNames_reads (fuel : Nat) (first : Bool) :
    Reads named (fun all => ∀ entry ∈ all, named entry.1) (importedNames fuel first) := by
  induction fuel generalizing first with
  | zero => exact refuse_reads
  | succ fuel ih =>
      have hrest : ∀ exported, named exported → ∀ renamed : String,
          Reads named (fun all => ∀ entry ∈ all, named entry.1) (do
            let rest ← importedNames fuel false
            pure ((exported, renamed) :: rest)) := fun exported hexported renamed =>
        (ih false).bind fun rest hrest => .pure (List.forall_mem_cons.mpr ⟨hexported, hrest⟩)
      have hname : Reads named (fun all => ∀ entry ∈ all, named entry.1) (do
          if ← sees isClose then pure []
          else
            let exported ← freeName
            let renamed ← if ← skipName "as" then freeName else pure exported
            let rest ← importedNames fuel false
            pure ((exported, renamed) :: rest)) := by
        refine (sees_reads _).bind fun closed _ => ?_
        split
        · exact .pure (List.forall_mem_nil _)
        refine freeName_reads.bind fun exported hexported => ?_
        refine (skip_reads _).bind fun renamed _ => ?_
        dsimp only
        split
        · exact freeName_reads.bind fun renamed _ => hrest exported hexported renamed
        · exact hrest exported hexported exported
      unfold importedNames
      refine (sees_reads _).bind fun closed _ => ?_
      split
      · exact .pure (List.forall_mem_nil _)
      · dsimp only
        split
        · exact (mark_reads ",").bind fun _ _ => hname
        · exact hname

theorem contextRemark_reads : Reads named Any contextRemark := by
  refine (skip_reads _).bind fun remark _ => ?_
  split
  · exact word_reads "context"
  · exact .pure trivial

theorem callOf_reads {e : Expr} (h : e.Keeps named) :
    Reads named (fun result => result.1.Keeps named ∧ ∀ a ∈ result.2, a.Keeps named) (callOf e) := by
  unfold callOf
  split
  · cases h with
    | call hcallee hargs => exact .pure ⟨hcallee, hargs⟩
  · exact refuse_reads

/-! ## Statements -/

/-- Whether all readers of statements give statements with names of a kind only. -/
structure StatementsRead (named : String → Prop) (fuel : Nat) : Prop where
  statements : ∀ s stops, Reads named (fun all => ∀ s ∈ all, s.Keeps named) (statements fuel s stops)
  body : ∀ s stop, Reads named (fun all => ∀ s ∈ all, s.Keeps named) (body fuel s stop)
  statement : ∀ s, Reads named (Statement.Keeps named) (statement fuel s)
  condition : ∀ s, Reads named (Statement.Keeps named) (condition fuel s)

namespace StatementsRead

theorem zero : StatementsRead named 0 := by
  constructor
  all_goals
    intros
    first
      | unfold Grammar.statements | unfold Grammar.body | unfold Grammar.statement
      | unfold Grammar.condition
    exact refuse_reads

variable {fuel : Nat} (h : StatementsRead named fuel)
include h

theorem statements_succ (s : Surroundings) (stops : List String) :
    Reads named (fun all => ∀ s ∈ all, s.Keeps named) (Grammar.statements (fuel + 1) s stops) := by
  have hmore : ∀ first : Statement, first.Keeps named →
      Reads named (fun all => ∀ s ∈ all, s.Keeps named) (do
        let rest ← Grammar.statements fuel s stops
        pure (first :: rest)) := fun first hfirst =>
    (h.statements s stops).bind fun rest hrest => .pure (List.forall_mem_cons.mpr ⟨hfirst, hrest⟩)
  unfold Grammar.statements
  refine next_reads.bind fun token? _ => ?_
  split
  · exact .pure (List.forall_mem_nil _)
  · exact hmore _ (.data _)
  · refine (value_reads s).bind fun e he => next_reads.bind fun token? _ => ?_
    split
    · exact hmore _ (.print he)
    · exact refuse_reads
  · refine peek_reads.bind fun token? _ => ?_
    split
    · exact refuse_reads
    · split
      · exact .pure (List.forall_mem_nil _)
      · refine (nested_reads fun depth => h.statement _).bind fun first hfirst => ?_
        exact close_reads.bind fun _ _ => hmore first hfirst
  · exact refuse_reads

theorem body_succ (s : Surroundings) (stop : String) :
    Reads named (fun all => ∀ s ∈ all, s.Keeps named) (Grammar.body (fuel + 1) s stop) := by
  unfold Grammar.body
  refine close_reads.bind fun _ _ => (h.statements s [stop]).bind fun all hall => ?_
  exact next_reads.bind fun _ _ => .pure hall

theorem condition_succ (s : Surroundings) :
    Reads named (Statement.Keeps named) (Grammar.condition (fuel + 1) s) := by
  unfold Grammar.condition
  refine (value_reads s).bind fun test htest => close_reads.bind fun _ _ => ?_
  refine (h.statements s _).bind fun main hmain => ?_
  refine (skip_reads _).bind fun otherwise _ => ?_
  split
  · refine close_reads.bind fun _ _ => (h.statements s _).bind fun otherwise hotherwise => ?_
    exact next_reads.bind fun _ _ => .pure (.branch htest hmain hotherwise)
  refine (skip_reads _).bind fun more _ => ?_
  split
  · refine (h.condition s).bind fun otherwise hotherwise => .pure ?_
    exact .branch htest hmain (List.forall_mem_singleton.mpr hotherwise)
  · exact next_reads.bind fun _ _ => .pure (.branch htest hmain (List.forall_mem_nil _))

/-- A loop, its first word read. -/
theorem loop_reads (s : Surroundings) : Reads named (Statement.Keeps named) (do
    let target ← targets false (← bound)
    word "in"
    let items ← plainValue s
    let onlyIf ← if ← skipName "if" then some <$> value s else pure none
    let recursive ← skipName "recursive"
    close
    let inside := { s with inLoop := true }
    let main ← Grammar.statements fuel inside ["endfor", "else"]
    let otherwise ← if ← skipName "else" then do
        close
        Grammar.statements fuel inside ["endfor"]
      else pure []
    let _ ← next
    pure (.loop target items onlyIf recursive main otherwise)) := by
  refine bound_reads.bind fun bound _ => (targets_reads false bound).bind fun target htarget => ?_
  refine (word_reads "in").bind fun _ _ => (plainValue_reads s).bind fun items hitems => ?_
  have hrest : ∀ onlyIf : Option Expr, (∀ e ∈ onlyIf, e.Keeps named) →
      Reads named (Statement.Keeps named) (do
        let recursive ← skipName "recursive"
        close
        let inside := { s with inLoop := true }
        let main ← Grammar.statements fuel inside ["endfor", "else"]
        let otherwise ← if ← skipName "else" then do
            close
            Grammar.statements fuel inside ["endfor"]
          else pure []
        let _ ← next
        pure (.loop target items onlyIf recursive main otherwise)) := by
    intro onlyIf honlyIf
    refine (skip_reads _).bind fun recursive _ => close_reads.bind fun _ _ => ?_
    refine (h.statements _ _).bind fun main hmain => ?_
    have hend : ∀ otherwise : List Statement, (∀ s ∈ otherwise, s.Keeps named) →
        Reads named (Statement.Keeps named) (do
          let _ ← next
          pure (.loop target items onlyIf recursive main otherwise)) := fun otherwise hotherwise =>
      next_reads.bind fun _ _ => .pure (.loop htarget hitems honlyIf hmain hotherwise)
    refine (skip_reads _).bind fun otherwise _ => ?_
    dsimp only
    split
    · exact close_reads.bind fun _ _ => (h.statements _ _).bind hend
    · exact Keeping.bind (.pure (List.forall_mem_nil _)) hend
  refine (skip_reads _).bind fun condition _ => ?_
  dsimp only
  split
  · exact (given_reads (value_reads s)).bind hrest
  · exact missing_reads.bind hrest

/-- An assignment, its first word read. -/
theorem assignment_reads (s : Surroundings) : Reads named (Statement.Keeps named) (do
    let bracketed ← sees (Token.isMark "(")
    let target ← targets true (← bound)
    if !bracketed && (← sees fun t => isClose t || t.isMark "|") then
      let filters ← if ← skipMark "|" then filterChain s (← bound) true else pure []
      let main ← Grammar.body fuel s "endset"
      pure (.assignText target filters main)
    else
      mark "="
      let e ← value s
      pure (.assign target e)) := by
  refine (sees_reads _).bind fun bracketed _ => bound_reads.bind fun bound _ => ?_
  refine (targets_reads true bound).bind fun target htarget => ?_
  have htext : ∀ filters : List FilterCall, (∀ f ∈ filters, f.Keeps named) →
      Reads named (Statement.Keeps named) (do
        let main ← Grammar.body fuel s "endset"
        pure (.assignText target filters main)) := fun filters hfilters =>
    (h.body s _).bind fun main hmain => .pure (.assignText htarget hfilters hmain)
  refine (sees_reads _).bind fun text _ => ?_
  split
  · refine (skip_reads _).bind fun filtered _ => ?_
    dsimp only
    split
    · exact bound_reads.bind fun bound _ => (filterChain_reads s bound true).bind htext
    · exact Keeping.bind (.pure (List.forall_mem_nil _)) htext
  · refine (mark_reads "=").bind fun _ _ => (value_reads s).bind fun e he => ?_
    exact .pure (.assign htarget he)

/-- A block, its first word read. -/
theorem block_reads (s : Surroundings) : Reads named (Statement.Keeps named) (do
    let blockName ← name
    if (← get).blocks.contains blockName then refuse ("block '" ++ blockName ++ "' defined twice")
    else
      modify fun cursor => { cursor with blocks := blockName :: cursor.blocks }
      let main ← Grammar.body fuel { s with inLoop := false } "endblock"
      match ← peek with
      | some (.name trailing) =>
        if trailing == blockName then
          let _ ← next
          pure (.block blockName main)
        else refuse "mismatching name on block"
      | _ => pure (.block blockName main)) := by
  refine name_reads.bind fun blockName _ => ?_
  have hget : Reads named (fun cursor : Cursor => cursor.Keeps named) get := fun _ h => ⟨h, h⟩
  have hmodify : Reads named (Any (α := PUnit))
      (modify fun cursor : Cursor => { cursor with blocks := blockName :: cursor.blocks }) :=
    fun _ h => ⟨trivial, h⟩
  refine hget.bind fun cursor _ => ?_
  split
  · exact refuse_reads
  refine hmodify.bind fun _ _ => (h.body _ _).bind fun main hmain => ?_
  refine peek_reads.bind fun token? _ => ?_
  split
  · split
    · exact next_reads.bind fun _ _ => .pure (.block hmain)
    · exact refuse_reads
  · exact .pure (.block hmain)

theorem statement_succ (s : Surroundings) :
    Reads named (Statement.Keeps named) (Grammar.statement (fuel + 1) s) := by
  unfold Grammar.statement
  refine next_reads.bind fun token? _ => ?_
  split
  case h_1 => exact h.loop_reads s
  case h_2 => exact h.condition s
  case h_3 => -- with
    refine bound_reads.bind fun bound _ => (assignments_reads s bound true).bind fun all hall => ?_
    refine (h.body s _).bind fun main hmain => .pure ?_
    exact .scope (fun entry hentry => (hall entry hentry).1) (fun entry hentry => (hall entry hentry).2)
      hmain
  case h_4 => exact h.assignment_reads s
  case h_5 => -- autoescape
    refine (value_reads s).bind fun mode hmode => ?_
    exact (h.body s _).bind fun main hmain => .pure (.escaping hmode hmain)
  case h_6 => -- filter
    refine bound_reads.bind fun bound _ => (filterChain_reads s bound true).bind fun filters hfilters => ?_
    exact (h.body s _).bind fun main hmain => .pure (.filtered hfilters hmain)
  case h_7 =>
    split
    · exact refuse_reads
    · exact h.block_reads s
  case h_8 => exact (value_reads s).map fun _ he => .parent he
  case h_9 => -- include
    refine (value_reads s).bind fun template htemplate => ?_
    refine (skip_reads _).bind fun ignoreMissing _ => ?_
    have hend : Reads named (Statement.Keeps named) (do
        contextRemark
        pure (.splice template ignoreMissing)) :=
      contextRemark_reads.bind fun _ _ => .pure (.splice htemplate)
    dsimp only
    split
    · exact (word_reads "missing").bind fun _ _ => hend
    · exact hend
  case h_10 => -- import
    refine (value_reads s).bind fun template htemplate => (word_reads "as").bind fun _ _ => ?_
    refine freeName_reads.bind fun target _ => contextRemark_reads.bind fun _ _ => ?_
    exact .pure (.importAll htemplate (.variable target))
  case h_11 => -- from
    refine (value_reads s).bind fun template htemplate => (word_reads "import").bind fun _ _ => ?_
    refine bound_reads.bind fun bound _ => (importedNames_reads bound true).bind fun names hnames => ?_
    exact .pure (.importNames htemplate hnames)
  case h_12 => -- macro
    refine name_reads.bind fun macroName _ => (mark_reads "(").bind fun _ _ => ?_
    refine bound_reads.bind fun bound _ => ?_
    refine (parameters_reads s bound true false).bind fun result hdefaults => ?_
    exact (h.body _ _).bind fun main hmain => .pure (.define hdefaults hmain)
  case h_13 => -- call
    have hrest : ∀ result : List String × List Expr, (∀ e ∈ result.2, e.Keeps named) →
        Reads named (Statement.Keeps named) (do
          let called ← callOf (← value s)
          let main ← Grammar.body fuel { s with inLoop := false, inMacro := true } "endcall"
          pure (.callWith called.1 called.2 result.1 result.2 main)) := by
      intro result hdefaults
      refine (value_reads s).bind fun e he => (callOf_reads he).bind fun called hcalled => ?_
      exact (h.body _ _).bind fun main hmain => .pure (.callWith hcalled.1 hcalled.2 hdefaults hmain)
    refine (skip_reads _).bind fun bracketed _ => ?_
    dsimp only
    split
    · exact bound_reads.bind fun bound _ => (parameters_reads s bound true false).bind hrest
    · exact Keeping.bind (.pure (List.forall_mem_nil _)) hrest
  case h_14 => -- do
    refine (value_reads s).bind fun e he => (callOf_reads he).bind fun called hcalled => ?_
    exact .pure (.run hcalled.1 hcalled.2)
  case h_15 =>
    split
    · exact .pure .next
    · exact refuse_reads
  case h_16 =>
    split
    · exact .pure .leave
    · exact refuse_reads
  case h_17 => exact refuse_reads
  case h_18 => exact refuse_reads

theorem succ : StatementsRead named (fuel + 1) where
  statements := h.statements_succ
  body := h.body_succ
  statement := h.statement_succ
  condition := h.condition_succ

omit h in
theorem all (fuel : Nat) : StatementsRead named fuel := by
  induction fuel with
  | zero => exact zero
  | succ fuel ih => exact ih.succ

end StatementsRead

end Grammar

end Stencil.Template
