/-!
# The syntax trees of templates

A template is a row of statements; text and expressions that are printed count as statements too. Macros
and call blocks have parameters, of which the last ones may have defaults.
-/

namespace Stencil.Template

/-- A constant. -/
inductive Literal where
  | none
  | bool (b : Bool)
  | integer (n : Nat)
  | decimal (x : Float)
  | text (s : String)
  deriving Inhabited

/-- An operator in front of an operand. -/
inductive UnaryOp where
  | negate
  | not
  deriving DecidableEq, Inhabited

/-- An operator between operands. -/
inductive BinaryOp where
  | or
  | and
  | equal
  | notEqual
  | less
  | lessOrEqual
  | greater
  | greaterOrEqual
  | contained
  | add
  | subtract
  | concatenate
  | multiply
  | divide
  | floorDivide
  | remainder
  | power
  deriving DecidableEq, Inhabited

mutual

/-- An expression. -/
inductive Expr where
  | literal (value : Literal)
  | variable (name : String)
  | list (items : List Expr)
  | map (entries : List (Expr × Expr))
  | unary (op : UnaryOp) (operand : Expr)
  | binary (op : BinaryOp) (left right : Expr)
  /-- One of two values; without the second, nothing if the test fails. -/
  | choice (test value : Expr) (otherwise : Option Expr)
  | attribute (object : Expr) (name : String)
  | item (object key : Expr)
  | slice (object : Expr) (start stop step : Option Expr)
  | call (callee : Expr) (arguments : List Argument)
  | filter (operand : Expr) (name : String) (arguments : List Argument)
  | check (operand : Expr) (name : String) (arguments : List Argument)

/-- An argument of a call. -/
inductive Argument where
  | positional (value : Expr)
  | named (name : String) (value : Expr)
  /-- The items of a list as arguments. -/
  | spread (value : Expr)
  /-- The entries of a map as named arguments. -/
  | spreadNamed (value : Expr)

end

instance : Inhabited Expr := ⟨.literal .none⟩
instance : Inhabited Argument := ⟨.positional default⟩

/-- A filter that text goes through. -/
structure FilterCall where
  name : String
  arguments : List Argument
  deriving Inhabited

/-- What a value is assigned to. -/
inductive Target where
  | variable (name : String)
  /-- An attribute of a namespace. -/
  | attribute (object : Expr) (name : String)
  /-- Several targets for the items of a list. -/
  | several (targets : List Target)

instance : Inhabited Target := ⟨.several []⟩

/-- A statement. -/
inductive Statement where
  | data (text : String)
  | print (value : Expr)
  | loop (target : Target) (items : Expr) (onlyIf : Option Expr) (recursive : Bool)
      (body otherwise : List Statement)
  | branch (test : Expr) (body otherwise : List Statement)
  | scope (assignments : List (Target × Expr)) (body : List Statement)
  | assign (target : Target) (value : Expr)
  | assignText (target : Target) (filters : List FilterCall) (body : List Statement)
  | escaping (mode : Expr) (body : List Statement)
  | filtered (filters : List FilterCall) (body : List Statement)
  | block (name : String) (body : List Statement)
  | parent (template : Expr)
  | splice (template : Expr) (ignoreMissing : Bool)
  | importAll (template : Expr) (target : Target)
  | importNames (template : Expr) (names : List (String × String))
  | define (name : String) (parameters : List String) (defaults : List Expr)
      (body : List Statement)
  | callWith (callee : Expr) (arguments : List Argument) (parameters : List String)
      (defaults : List Expr) (body : List Statement)
  | run (callee : Expr) (arguments : List Argument)
  | next
  | leave

instance : Inhabited Statement := ⟨.data ""⟩

/-- The text of a template, held against the grammar. -/
structure Document where
  name : String
  body : List Statement
  deriving Inhabited

mutual

/-- The blocks that are written in a statement, inner ones first. -/
def Statement.blocks : Statement → List (String × List Statement)
  | .block name body => blocksOf body ++ [(name, body)]
  | .loop _ _ _ _ body otherwise => blocksOf body ++ blocksOf otherwise
  | .branch _ body otherwise => blocksOf body ++ blocksOf otherwise
  | .scope _ body => blocksOf body
  | .assignText _ _ body => blocksOf body
  | .escaping _ body => blocksOf body
  | .filtered _ body => blocksOf body
  | _ => []

/-- The blocks that are written in a row of statements. -/
def blocksOf : List Statement → List (String × List Statement)
  | [] => []
  | statement :: rest => statement.blocks ++ blocksOf rest

end

/-- The blocks of a template. -/
def Document.blocks (document : Document) : List (String × List Statement) :=
  blocksOf document.body

end Stencil.Template
