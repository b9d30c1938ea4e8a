import Stencil.Template.Capture

/-!
# The names in a template

A template asks for what a name stands for where the name stands in an expression, where it is imported
and where a macro captures it. `Keeps named` says that all such names are of a kind. Names that something
is assigned to, and those of attributes, filters, blocks and macros, do not count, because nothing is
looked up by them.

What a macro captures are names of its text (`capturedNames_named`), and the blocks of a template are parts
of it (`Document.Keeps.blocks`). If names may be of any kind, every template keeps to that
(`Document.keeps_of_forall`).
-/

namespace Stencil.Template

mutual

/-- Whether all names in an expression are of a kind. -/
inductive Expr.Keeps (named : String → Prop) : Expr → Prop where
  | literal (value : Literal) : Expr.Keeps named (.literal value)
  | variable {name : String} (h : named name) : Expr.Keeps named (.variable name)
  | list {items : List Expr} (h : ∀ e ∈ items, Expr.Keeps named e) : Expr.Keeps named (.list items)
  | map {entries : List (Expr × Expr)} (hkeys : ∀ entry ∈ entries, Expr.Keeps named entry.1)
      (hvalues : ∀ entry ∈ entries, Expr.Keeps named entry.2) : Expr.Keeps named (.map entries)
  | unary {op : UnaryOp} {e : Expr} (h : Expr.Keeps named e) : Expr.Keeps named (.unary op e)
  | binary {op : BinaryOp} {left right : Expr} (hleft : Expr.Keeps named left)
      (hright : Expr.Keeps named right) : Expr.Keeps named (.binary op left right)
  | choice {test value : Expr} {otherwise : Option Expr} (htest : Expr.Keeps named test)
      (hvalue : Expr.Keeps named value) (hotherwise : ∀ e ∈ otherwise, Expr.Keeps named e) :
      Expr.Keeps named (.choice test value otherwise)
  | attribute {object : Expr} {name : String} (h : Expr.Keeps named object) :
      Expr.Keeps named (.attribute object name)
  | item {object key : Expr} (hobject : Expr.Keeps named object) (hkey : Expr.Keeps named key) :
      Expr.Keeps named (.item object key)
  | slice {object : Expr} {start stop step : Option Expr} (hobject : Expr.Keeps named object)
      (hstart : ∀ e ∈ start, Expr.Keeps named e) (hstop : ∀ e ∈ stop, Expr.Keeps named e)
      (hstep : ∀ e ∈ step, Expr.Keeps named e) : Expr.Keeps named (.slice object start stop step)
  | call {callee : Expr} {args : List Argument} (hcallee : Expr.Keeps named callee)
      (hargs : ∀ a ∈ args, Argument.Keeps named a) : Expr.Keeps named (.call callee args)
  | filter {operand : Expr} {name : String} {args : List Argument} (h : Expr.Keeps named operand)
      (hargs : ∀ a ∈ args, Argument.Keeps named a) : Expr.Keeps named (.filter operand name args)
  | check {operand : Expr} {name : String} {args : List Argument} (h : Expr.Keeps named operand)
      (hargs : ∀ a ∈ args, Argument.Keeps named a) : Expr.Keeps named (.check operand name args)

/-- Whether all names in an argument are of a kind. -/
inductive Argument.Keeps (named : String → Prop) : Argument → Prop where
  | positional {e : Expr} (h : Expr.Keeps named e) : Argument.Keeps named (.positional e)
  | named {name : String} {e : Expr} (h : Expr.Keeps named e) : Argument.Keeps named (.named name e)
  | spread {e : Expr} (h : Expr.Keeps named e) : Argument.Keeps named (.spread e)
  | spreadNamed {e : Expr} (h : Expr.Keeps named e) : Argument.Keeps named (.spreadNamed e)

end

/-- Whether all names in the arguments of a filter are of a kind. -/
def FilterCall.Keeps (named : String → Prop) (filter : FilterCall) : Prop :=
  ∀ a ∈ filter.arguments, a.Keeps named

/-- Whether all names that are looked up for a target are of a kind. -/
inductive Target.Keeps (named : String → Prop) : Target → Prop where
  | variable (name : String) : Target.Keeps named (.variable name)
  | attribute {object : Expr} {name : String} (h : object.Keeps named) :
      Target.Keeps named (.attribute object name)
  | several {targets : List Target} (h : ∀ t ∈ targets, Target.Keeps named t) :
      Target.Keeps named (.several targets)

/-- Whether all names in a statement are of a kind. -/
inductive Statement.Keeps (named : String → Prop) : Statement → Prop where
  | data (text : String) : Statement.Keeps named (.data text)
  | print {e : Expr} (h : e.Keeps named) : Statement.Keeps named (.print e)
  | loop {target : Target} {items : Expr} {onlyIf : Option Expr} {recursive : Bool}
      {body otherwise : List Statement} (htarget : target.Keeps named) (hitems : items.Keeps named)
      (honlyIf : ∀ e ∈ onlyIf, e.Keeps named) (hbody : ∀ s ∈ body, Statement.Keeps named s)
      (hotherwise : ∀ s ∈ otherwise, Statement.Keeps named s) :
      Statement.Keeps named (.loop target items onlyIf recursive body otherwise)
  | branch {test : Expr} {body otherwise : List Statement} (htest : test.Keeps named)
      (hbody : ∀ s ∈ body, Statement.Keeps named s)
      (hotherwise : ∀ s ∈ otherwise, Statement.Keeps named s) :
      Statement.Keeps named (.branch test body otherwise)
  | scope {assignments : List (Target × Expr)} {body : List Statement}
      (htargets : ∀ entry ∈ assignments, entry.1.Keeps named)
      (hvalues : ∀ entry ∈ assignments, entry.2.Keeps named)
      (hbody : ∀ s ∈ body, Statement.Keeps named s) : Statement.Keeps named (.scope assignments body)
  | assign {target : Target} {e : Expr} (htarget : target.Keeps named) (h : e.Keeps named) :
      Statement.Keeps named (.assign target e)
  | assignText {target : Target} {filters : List FilterCall} {body : List Statement}
      (htarget : target.Keeps named) (hfilters : ∀ f ∈ filters, f.Keeps named)
      (hbody : ∀ s ∈ body, Statement.Keeps named s) :
      Statement.Keeps named (.assignText target filters body)
  | escaping {mode : Expr} {body : List Statement} (hmode : mode.Keeps named)
      (hbody : ∀ s ∈ body, Statement.Keeps named s) : Statement.Keeps named (.escaping mode body)
  | filtered {filters : List FilterCall} {body : List Statement}
      (hfilters : ∀ f ∈ filters, f.Keeps named) (hbody : ∀ s ∈ body, Statement.Keeps named s) :
      Statement.Keeps named (.filtered filters body)
  | block {name : String} {body : List Statement} (hbody : ∀ s ∈ body, Statement.Keeps named s) :
      Statement.Keeps named (.block name body)
  | parent {template : Expr} (h : template.Keeps named) : Statement.Keeps named (.parent template)
  | splice {template : Expr} {ignoreMissing : Bool} (h : template.Keeps named) :
      Statement.Keeps named (.splice template ignoreMissing)
  | importAll {template : Expr} {target : Target} (h : template.Keeps named)
      (htarget : target.Keeps named) : Statement.Keeps named (.importAll template target)
  | importNames {template : Expr} {names : List (String × String)} (h : template.Keeps named)
      (hnames : ∀ entry ∈ names, named entry.1) : Statement.Keeps named (.importNames template names)
  | define {name : String} {parameters : List String} {defaults : List Expr} {body : List Statement}
      (hdefaults : ∀ e ∈ defaults, e.Keeps named) (hbody : ∀ s ∈ body, Statement.Keeps named s) :
      Statement.Keeps named (.define name parameters defaults body)
  | callWith {callee : Expr} {args : List Argument} {parameters : List String} {defaults : List Expr}
      {body : List Statement} (hcallee : callee.Keeps named) (hargs : ∀ a ∈ args, a.Keeps named)
      (hdefaults : ∀ e ∈ defaults, e.Keeps named) (hbody : ∀ s ∈ body, Statement.Keeps named s) :
      Statement.Keeps named (.callWith callee args parameters defaults body)
  | run {callee : Expr} {args : List Argument} (hcallee : callee.Keeps named)
      (hargs : ∀ a ∈ args, a.Keeps named) : Statement.Keeps named (.run callee args)
  | next : Statement.Keeps named .next
  | leave : Statement.Keeps named .leave

/-- Whether all names in a template are of a kind. -/
def Document.Keeps (named : String → Prop) (document : Document) : Prop :=
  ∀ s ∈ document.body, s.Keeps named

variable {named : String → Prop}

/-! ## Blocks -/

mutual

theorem Statement.Keeps.blocks {s : Statement} (h : s.Keeps named) :
    ∀ entry ∈ s.blocks, ∀ s ∈ entry.2, s.Keeps named := by
  cases h with
  | @block name body hbody =>
      intro entry hentry
      rw [Statement.blocks, List.mem_append, List.mem_singleton] at hentry
      rcases hentry with hentry | rfl
      · exact blocksOf_keeps hbody entry hentry
      · exact hbody
  | loop _ _ _ hbody hotherwise | branch _ hbody hotherwise =>
      intro entry hentry
      rw [Statement.blocks, List.mem_append] at hentry
      exact hentry.elim (blocksOf_keeps hbody entry) (blocksOf_keeps hotherwise entry)
  | scope _ _ hbody | assignText _ _ hbody | escaping _ hbody | filtered _ hbody =>
      intro entry hentry
      rw [Statement.blocks] at hentry
      exact blocksOf_keeps hbody entry hentry
  | _ => simp [Statement.blocks]

theorem blocksOf_keeps {body : List Statement} (h : ∀ s ∈ body, s.Keeps named) :
    ∀ entry ∈ blocksOf body, ∀ s ∈ entry.2, s.Keeps named := by
  cases body with
  | nil => simp [blocksOf]
  | cons first rest =>
      intro entry hentry
      rw [blocksOf, List.mem_append] at hentry
      rcases hentry with hentry | hentry
      · exact (h first List.mem_cons_self).blocks entry hentry
      · exact blocksOf_keeps (fun s hs => h s (List.mem_cons_of_mem _ hs)) entry hentry

end

/-- The blocks of a template have no other names than it has. -/
theorem Document.Keeps.blocks {document : Document} (h : document.Keeps named) :
    ∀ entry ∈ document.blocks, ∀ s ∈ entry.2, s.Keeps named :=
  blocksOf_keeps h

/-! ## What a macro captures -/

namespace Capture

/-- Whether all names that were found are of a kind. -/
def Found (named : String → Prop) (c : Capture) : Prop := ∀ name ∈ c.found, named name

theorem found_assign (c : Capture) (name : String) : (c.assign name).found = c.found := by
  unfold assign
  split <;> rfl

theorem found_names (c : Capture) (all : List String) : (c.names all).found = c.found := by
  induction all generalizing c with
  | nil => rfl
  | cons name rest ih => exact (ih (c.assign name)).trans (c.found_assign name)

mutual

theorem found_target (c : Capture) (t : Target) : (c.target t).found = c.found := by
  cases t with
  | «variable» name => exact c.found_assign name
  | «attribute» => rfl
  | several all => exact found_targets c all

theorem found_targets (c : Capture) (all : List Target) : (c.targets all).found = c.found := by
  cases all with
  | nil => rfl
  | cons t rest => exact (found_targets (c.target t) rest).trans (found_target c t)

end

theorem Found.of_eq {c c' : Capture} (h : c.Found named) (heq : c'.found = c.found) : c'.Found named := by
  intro name hname
  exact h name (heq ▸ hname)

theorem Found.push {c : Capture} (h : c.Found named) : c.push.Found named := h

theorem Found.pop {c : Capture} (h : c.Found named) : c.pop.Found named := h

theorem Found.assign {c : Capture} (h : c.Found named) (name : String) : (c.assign name).Found named :=
  h.of_eq (found_assign c name)

theorem Found.names {c : Capture} (h : c.Found named) (all : List String) : (c.names all).Found named :=
  h.of_eq (found_names c all)

theorem Found.target {c : Capture} (h : c.Found named) (t : Target) : (c.target t).Found named :=
  h.of_eq (found_target c t)

theorem Found.use {c : Capture} (h : c.Found named) {name : String} (hname : named name) : (c.use name).Found named := by
  unfold Capture.use
  split
  · exact h
  · refine Found.of_eq (c := { c with found := name :: c.found }) ?_ (found_assign _ _)
    exact fun other hother => (List.mem_cons.mp hother).elim (fun heq => heq ▸ hname) (h other)

mutual

theorem Found.expression {c : Capture} (h : c.Found named) :
    {e : Expr} → e.Keeps named → (c.expression e).Found named
  | .literal _, _ => h
  | .variable _, .variable hname => h.use hname
  | .list _, .list hitems => h.expressions hitems
  | .map _, .map hkeys hvalues => h.entriesOf hkeys hvalues
  | .unary _ _, .unary he =>
    have hinner := h.expression he
    hinner
  | .binary _ _ _, .binary hleft hright => (h.expression hleft).expression hright
  | .choice _ _ none, .choice htest hvalue _ => (h.expression htest).expression hvalue
  | .choice _ _ (some other), .choice htest hvalue hother =>
    ((h.expression htest).expression hvalue).expression (hother other rfl)
  | .attribute _ _, .attribute he =>
    have hinner := h.expression he
    hinner
  | .item _ _, .item hobject hkey => (h.expression hobject).expression hkey
  | .slice _ start stop step, .slice hobject hstart hstop hstep => by
    have hinner := (((h.expression hobject).optional hstart).optional hstop).optional hstep
    cases start <;> cases stop <;> cases step <;> exact hinner
  | .call _ _, .call hcallee hargs => (h.expression hcallee).argumentsOf hargs
  | .filter _ _ _, .filter he hargs => (h.expression he).argumentsOf hargs
  | .check _ _ _, .check he hargs => (h.expression he).argumentsOf hargs

theorem Found.optional {c : Capture} (h : c.Found named) :
    {e? : Option Expr} → (∀ e ∈ e?, e.Keeps named) →
    Found named (match e? with
      | some e => c.expression e
      | none => c)
  | none, _ => h
  | some e, he => h.expression (he e rfl)

theorem Found.expressions {c : Capture} (h : c.Found named) :
    {items : List Expr} → (∀ e ∈ items, e.Keeps named) → (c.expressions items).Found named
  | [], _ => h
  | e :: _, he => (h.expression (he e List.mem_cons_self)).expressions
    fun other hother => he other (List.mem_cons_of_mem _ hother)

theorem Found.entriesOf {c : Capture} (h : c.Found named) :
    {entries : List (Expr × Expr)} → (∀ entry ∈ entries, entry.1.Keeps named) →
      (∀ entry ∈ entries, entry.2.Keeps named) → (c.entriesOf entries).Found named
  | [], _, _ => h
  | (key, value) :: _, hkeys, hvalues =>
    have hkey : key.Keeps named := hkeys _ List.mem_cons_self
    have hvalue : value.Keeps named := hvalues _ List.mem_cons_self
    ((h.expression hkey).expression hvalue).entriesOf
      (fun e he => hkeys e (List.mem_cons_of_mem _ he))
      fun e he => hvalues e (List.mem_cons_of_mem _ he)

theorem Found.argumentOf {c : Capture} (h : c.Found named) :
    {a : Argument} → a.Keeps named → (c.argumentOf a).Found named
  | .positional _, .positional he => h.expression he
  | .named _ _, .named he => h.expression he
  | .spread _, .spread he => h.expression he
  | .spreadNamed _, .spreadNamed he => h.expression he

theorem Found.argumentsOf {c : Capture} (h : c.Found named) :
    {args : List Argument} → (∀ a ∈ args, a.Keeps named) → (c.argumentsOf args).Found named
  | [], _ => h
  | a :: _, hargs => (h.argumentOf (hargs a List.mem_cons_self)).argumentsOf
    fun other hother => hargs other (List.mem_cons_of_mem _ hother)

end

theorem Found.assignmentsOf {c : Capture} (h : c.Found named) {all : List (Target × Expr)}
    (hall : ∀ entry ∈ all, entry.2.Keeps named) : (c.assignmentsOf all).Found named := by
  refine List.foldlRecOn (motive := Found named) all _ h fun c hc entry hentry => ?_
  exact (hc.target entry.1).expression (hall entry hentry)

mutual

theorem Found.statement {c : Capture} (h : c.Found named) {s : Statement} (hs : s.Keeps named) :
    (c.statement s).Found named := by
  cases hs with
  | data | parent | next | leave => exact h
  | print he | splice he => exact h.expression he
  | @loop t items onlyIf recursive body otherwise _ hitems honlyIf hbody hotherwise =>
      have hhead := ((h.push.assign "loop").expression hitems).target t
      unfold Capture.statement
      exact (((hhead.optional honlyIf).statements hbody).pop.push.statements hotherwise).pop
  | branch htest hbody hotherwise =>
      rw [Capture.statement]
      exact (((h.expression htest).push.statements hbody).pop.push.statements hotherwise).pop
  | scope _ hvalues hbody =>
      rw [Capture.statement]
      exact ((h.push.assignmentsOf hvalues).statements hbody).pop
  | @assign t e _ he => exact (h.target t).expression he
  | @assignText t _ _ _ _ hbody =>
      rw [Capture.statement]
      exact ((h.target t).push.statements hbody).pop
  | escaping _ hbody | filtered _ hbody =>
      rw [Capture.statement]
      exact (h.push.statements hbody).pop
  | block hbody =>
      rw [Capture.statement]
      exact ((h.push.assign "super").statements hbody).pop
  | @importAll _ t => exact h.target t
  | @importNames _ all => exact h.names _
  | @define name parameters defaults body hdefaults hbody =>
      rw [Capture.statement]
      exact (((h.assign name).names parameters).expressions hdefaults).statements hbody
  | @callWith callee args parameters defaults body hcallee hargs hdefaults hbody =>
      have hhead := (h.expression hcallee).argumentsOf hargs
      exact ((hhead.names parameters).expressions hdefaults).statements hbody
  | run hcallee hargs => exact (h.expression hcallee).argumentsOf hargs

theorem Found.statements {c : Capture} (h : c.Found named) {body : List Statement}
    (hbody : ∀ s ∈ body, s.Keeps named) : (c.statements body).Found named := by
  cases body with
  | nil => exact h
  | cons s rest =>
      exact (h.statement (hbody s List.mem_cons_self)).statements
        fun s hs => hbody s (List.mem_cons_of_mem _ hs)

end

end Capture

/-- **What a macro captures are names of its text.** -/
theorem capturedNames_named {parameters : List String} {defaults : List Expr} {body : List Statement}
    (hdefaults : ∀ e ∈ defaults, e.Keeps named) (hbody : ∀ s ∈ body, s.Keeps named) :
    ∀ name ∈ capturedNames parameters defaults body, named name := by
  have hstart : ({} : Capture).Found named := fun name hname => absurd hname (by simp)
  exact ((hstart.names parameters).expressions hdefaults).statements hbody

/-! ## Names of any kind -/

mutual

theorem Expr.keeps_of_forall (h : ∀ name, named name) (e : Expr) : e.Keeps named := by
  cases e with
  | literal value => exact .literal value
  | «variable» name => exact .variable (h name)
  | list items => exact .list fun e he => Expr.keeps_of_forall h e
  | map entries =>
      refine .map (fun entry hentry => ?_) fun entry hentry => ?_
      · have hlt := List.sizeOf_lt_of_mem hentry
        have hfst : sizeOf entry.1 < sizeOf entry := by cases entry; simp only [Prod.mk.sizeOf_spec]; omega
        exact Expr.keeps_of_forall h entry.1
      · have hlt := List.sizeOf_lt_of_mem hentry
        have hsnd : sizeOf entry.2 < sizeOf entry := by cases entry; simp only [Prod.mk.sizeOf_spec]; omega
        exact Expr.keeps_of_forall h entry.2
  | unary op e => exact .unary (Expr.keeps_of_forall h e)
  | binary op left right => exact .binary (Expr.keeps_of_forall h left) (Expr.keeps_of_forall h right)
  | choice test value otherwise =>
      exact .choice (Expr.keeps_of_forall h test) (Expr.keeps_of_forall h value)
        fun e he => by cases he; exact Expr.keeps_of_forall h e
  | «attribute» object name => exact .attribute (Expr.keeps_of_forall h object)
  | item object key => exact .item (Expr.keeps_of_forall h object) (Expr.keeps_of_forall h key)
  | slice object start stop step =>
      exact .slice (Expr.keeps_of_forall h object) (fun e he => by cases he; exact Expr.keeps_of_forall h e)
        (fun e he => by cases he; exact Expr.keeps_of_forall h e)
        fun e he => by cases he; exact Expr.keeps_of_forall h e
  | call callee args =>
      exact .call (Expr.keeps_of_forall h callee) fun a ha => Argument.keeps_of_forall h a
  | filter operand name args =>
      exact .filter (Expr.keeps_of_forall h operand) fun a ha => Argument.keeps_of_forall h a
  | check operand name args =>
      exact .check (Expr.keeps_of_forall h operand) fun a ha => Argument.keeps_of_forall h a
termination_by sizeOf e

theorem Argument.keeps_of_forall (h : ∀ name, named name) (a : Argument) : a.Keeps named := by
  cases a with
  | positional e => exact .positional (Expr.keeps_of_forall h e)
  | named name e => exact .named (Expr.keeps_of_forall h e)
  | spread e => exact .spread (Expr.keeps_of_forall h e)
  | spreadNamed e => exact .spreadNamed (Expr.keeps_of_forall h e)
termination_by sizeOf a

end

theorem Target.keeps_of_forall (h : ∀ name, named name) (t : Target) : t.Keeps named := by
  cases t with
  | «variable» name => exact .variable name
  | «attribute» object name => exact .attribute (Expr.keeps_of_forall h object)
  | several targets => exact .several fun t ht => Target.keeps_of_forall h t
termination_by sizeOf t

theorem Statement.keeps_of_forall (h : ∀ name, named name) (s : Statement) : s.Keeps named := by
  have hexpr : ∀ e : Expr, e.Keeps named := Expr.keeps_of_forall h
  have harg : ∀ a : Argument, a.Keeps named := Argument.keeps_of_forall h
  have htarget : ∀ t : Target, t.Keeps named := Target.keeps_of_forall h
  cases s with
  | data text => exact .data text
  | print e => exact .print (hexpr e)
  | loop target items onlyIf recursive body otherwise =>
      exact .loop (htarget _) (hexpr _) (fun _ _ => hexpr _) (fun s hs => Statement.keeps_of_forall h s)
        fun s hs => Statement.keeps_of_forall h s
  | branch test body otherwise =>
      exact .branch (hexpr _) (fun s hs => Statement.keeps_of_forall h s)
        fun s hs => Statement.keeps_of_forall h s
  | scope assignments body =>
      exact .scope (fun _ _ => htarget _) (fun _ _ => hexpr _) fun s hs => Statement.keeps_of_forall h s
  | assign target e => exact .assign (htarget _) (hexpr _)
  | assignText target filters body =>
      exact .assignText (htarget _) (fun _ _ _ _ => harg _) fun s hs => Statement.keeps_of_forall h s
  | escaping mode body => exact .escaping (hexpr _) fun s hs => Statement.keeps_of_forall h s
  | filtered filters body =>
      exact .filtered (fun _ _ _ _ => harg _) fun s hs => Statement.keeps_of_forall h s
  | block name body => exact .block fun s hs => Statement.keeps_of_forall h s
  | parent e => exact .parent (hexpr _)
  | splice e ignoreMissing => exact .splice (hexpr _)
  | importAll e target => exact .importAll (hexpr _) (htarget _)
  | importNames e names => exact .importNames (hexpr _) fun _ _ => h _
  | define name parameters defaults body =>
      exact .define (fun _ _ => hexpr _) fun s hs => Statement.keeps_of_forall h s
  | callWith callee args parameters defaults body =>
      exact .callWith (hexpr _) (fun _ _ => harg _) (fun _ _ => hexpr _)
        fun s hs => Statement.keeps_of_forall h s
  | run callee args => exact .run (hexpr _) fun _ _ => harg _
  | next => exact .next
  | leave => exact .leave
termination_by sizeOf s

theorem Document.keeps_of_forall (h : ∀ name, named name) (document : Document) : document.Keeps named :=
  fun s _ => s.keeps_of_forall h

end Stencil.Template
