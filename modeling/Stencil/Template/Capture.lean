import Stencil.Template.Tree

/-!
# The names that a macro captures

A macro sees the variables around it that it uses: their names are read off its text, and their values
are kept when it is made. A name is captured if it is used before anything is assigned to it; parameters
count as assigned, and so does what a statement assigns, even where its value uses the name.
-/

namespace Stencil.Template

/-- The names that were found, and those that are assigned, scope by scope. -/
structure Capture where
  found : List String := []
  scopes : List (List String) := [[]]
  deriving Inhabited

namespace Capture

/-- Whether a name is assigned. -/
def isAssigned (c : Capture) (name : String) : Bool := c.scopes.any fun names => names.contains name

/-- Assigns a name in the innermost scope. -/
def assign (c : Capture) (name : String) : Capture :=
  match c.scopes with
  | names :: rest => { c with scopes := (name :: names) :: rest }
  | [] => { c with scopes := [[name]] }

/-- Uses a name; after the first use it counts as assigned. -/
def use (c : Capture) (name : String) : Capture :=
  if c.isAssigned name then c else { c with found := name :: c.found }.assign name

/-- Opens a scope. -/
def push (c : Capture) : Capture := { c with scopes := [] :: c.scopes }

/-- Closes the innermost scope. -/
def pop (c : Capture) : Capture := { c with scopes := c.scopes.drop 1 }

mutual

/-- Uses the names of an expression. -/
def expression (c : Capture) : Expr → Capture
  | .literal _ => c
  | .variable name => c.use name
  | .list items => expressions c items
  | .map entries => entriesOf c entries
  | .unary _ operand => expression c operand
  | .binary _ left right => expression (expression c left) right
  | .choice test value otherwise =>
    match otherwise with
    | some other => expression (expression (expression c test) value) other
    | none => expression (expression c test) value
  | .attribute object _ => expression c object
  | .item object key => expression (expression c object) key
  | .slice object start stop step =>
    let c := expression c object
    let c := match start with
      | some e => expression c e
      | none => c
    let c := match stop with
      | some e => expression c e
      | none => c
    match step with
    | some e => expression c e
    | none => c
  | .call callee args => argumentsOf (expression c callee) args
  | .filter operand _ args => argumentsOf (expression c operand) args
  | .check operand _ args => argumentsOf (expression c operand) args

/-- Uses the names of expressions. -/
def expressions (c : Capture) : List Expr → Capture
  | [] => c
  | e :: rest => expressions (expression c e) rest

/-- Uses the names of the entries of a map. -/
def entriesOf (c : Capture) : List (Expr × Expr) → Capture
  | [] => c
  | (key, value) :: rest => entriesOf (expression (expression c key) value) rest

/-- Uses the names of an argument. -/
def argumentOf (c : Capture) : Argument → Capture
  | .positional e => expression c e
  | .named _ e => expression c e
  | .spread e => expression c e
  | .spreadNamed e => expression c e

/-- Uses the names of arguments. -/
def argumentsOf (c : Capture) : List Argument → Capture
  | [] => c
  | a :: rest => argumentsOf (argumentOf c a) rest

end

mutual

/-- Assigns the names of a target. -/
def target (c : Capture) : Target → Capture
  | .variable name => c.assign name
  | .attribute _ _ => c
  | .several all => targets c all

/-- Assigns the names of targets. -/
def targets (c : Capture) : List Target → Capture
  | [] => c
  | t :: rest => targets (target c t) rest

end

/-- Assigns names. -/
def names (c : Capture) (all : List String) : Capture := all.foldl assign c

/-- Goes through the assignments of a scope. -/
def assignmentsOf (c : Capture) (all : List (Target × Expr)) : Capture :=
  all.foldl (fun c entry => (c.target entry.1).expression entry.2) c

mutual

/-- Goes through a statement. -/
def statement (c : Capture) : Statement → Capture
  | .data _ => c
  | .print e => c.expression e
  | .loop t items onlyIf _ body otherwise =>
    let c := ((c.push.assign "loop").expression items).target t
    let c := match onlyIf with
      | some e => c.expression e
      | none => c
    (statements ((statements c body).pop.push) otherwise).pop
  | .branch test body otherwise =>
    let c := c.expression test
    (statements ((statements c.push body).pop.push) otherwise).pop
  | .scope all body => (statements (c.push.assignmentsOf all) body).pop
  | .assign t e => (c.target t).expression e
  | .assignText t _ body => (statements (c.target t).push body).pop
  | .escaping _ body => (statements c.push body).pop
  | .filtered _ body => (statements c.push body).pop
  | .block _ body => (statements (c.push.assign "super") body).pop
  | .parent _ => c
  | .splice e _ => c.expression e
  | .importAll _ t => c.target t
  | .importNames _ all => c.names (all.map Prod.snd)
  | .define name parameters defaults body =>
    statements (((c.assign name).names parameters).expressions defaults) body
  | .callWith callee args parameters defaults body =>
    let c := (c.expression callee).argumentsOf args
    statements ((c.names parameters).expressions defaults) body
  | .run callee args => (c.expression callee).argumentsOf args
  | .next => c
  | .leave => c

/-- Goes through statements. -/
def statements (c : Capture) : List Statement → Capture
  | [] => c
  | s :: rest => statements (statement c s) rest

end

end Capture

/-- The names that a macro captures. -/
def capturedNames (parameters : List String) (defaults : List Expr) (body : List Statement) :
    List String :=
  ((((({} : Capture).names parameters).expressions defaults).statements body).found)

end Stencil.Template
