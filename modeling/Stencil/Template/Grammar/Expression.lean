import Stencil.Template.Grammar.Cursor
import Stencil.Template.Tree

/-!
# The grammar of expressions

Operators bind, from the loosest to the tightest: the choice with `if`, `or`, `and`, `not`,
comparisons, sums, `~`, products, powers, signs, and then whatever stands behind an operand. All of
them group to the left. Filters and checks bind to the signed operand in front of them.

Nesting is limited, and the limit counts every expression and every operand on the way down.
-/

namespace Stencil.Template.Grammar

/-- How deep expressions and statements may be nested. -/
def maxNesting : Nat := 150

/-- Goes one level down, unless that is too deep. -/
def nested {α : Type} (depth : Nat) (reader : Nat → Grammar α) : Grammar α :=
  if depth + 1 > maxNesting then refuse "template exceeds maximum recursion limits"
  else reader (depth + 1)

/-- Operands with operators of one strength between them, the first operand read. -/
def chainFrom (operators : List (Token × BinaryOp)) (operand : Grammar Expr) :
    Nat → Expr → Grammar Expr
  | 0, left => pure left
  | fuel + 1, left => do
    let token? ← peek
    let found := token?.bind fun token => operators.find? fun entry =>
      match entry.1, token with
      | .mark a, .mark b => a == b
      | .name a, .name b => a == b
      | _, _ => false
    match found with
    | some (_, op) =>
      let _ ← next
      let right ← operand
      chainFrom operators operand fuel (.binary op left right)
    | none => pure left

/-- Operands with operators of one strength between them. -/
def chain (operators : List (Token × BinaryOp)) (operand : Grammar Expr) : Grammar Expr := do
  let left ← operand
  chainFrom operators operand (← bound) left

/-- Powers of operands. -/
def powers (operand : Grammar Expr) : Grammar Expr := chain [(.mark "**", .power)] operand

/-- Products of operands. -/
def products (operand : Grammar Expr) : Grammar Expr :=
  chain [(.mark "*", .multiply), (.mark "/", .divide), (.mark "//", .floorDivide),
    (.mark "%", .remainder)] (powers operand)

/-- Operands put together as text. -/
def concatenations (operand : Grammar Expr) : Grammar Expr :=
  chain [(.mark "~", .concatenate)] (products operand)

/-- Sums of operands. -/
def sums (operand : Grammar Expr) : Grammar Expr :=
  chain [(.mark "+", .add), (.mark "-", .subtract)] (concatenations operand)

/-- The operators that compare. -/
def comparisons : List (String × BinaryOp) :=
  [("==", .equal), ("!=", .notEqual), ("<", .less), ("<=", .lessOrEqual), (">", .greater),
    (">=", .greaterOrEqual)]

/-- Comparisons of sums, the first sum read. -/
def compareFrom (operand : Grammar Expr) : Nat → Expr → Grammar Expr
  | 0, left => pure left
  | fuel + 1, left => do
    match ← peek with
    | some (.mark m) =>
      match comparisons.find? (·.1 == m) with
      | some (_, op) =>
        let _ ← next
        let right ← operand
        compareFrom operand fuel (.binary op left right)
      | none => pure left
    | some (.name "in") =>
      let _ ← next
      let right ← operand
      compareFrom operand fuel (.binary .contained left right)
    | some (.name "not") =>
      let _ ← next
      word "in"
      let right ← operand
      compareFrom operand fuel (.unary .not (.binary .contained left right))
    | _ => pure left

/-- Comparisons. -/
def compared (operand : Grammar Expr) : Grammar Expr := do
  let left ← sums operand
  compareFrom (sums operand) (← bound) left

/-- Comparisons with any number of `not` in front. -/
def negations (operand : Grammar Expr) : Nat → Nat → Grammar Expr
  | 0, _ => refuse "too many operators"
  | fuel + 1, depth => do
    if ← skipName "not" then
      let e ← nested depth (negations operand fuel)
      pure (.unary .not e)
    else compared operand

/-- Conjunctions and disjunctions. -/
def disjunctions (operand : Grammar Expr) (depth : Nat) : Grammar Expr := do
  let fuel ← bound
  chain [(.name "or", .or)] (chain [(.name "and", .and)] (negations operand fuel depth))

/-- Whether a token can be the argument of a check without parentheses. -/
def startsArgument : Token → Bool
  | .name text => text != "and" && text != "or" && text != "else" && text != "is"
  | .text _ => true
  | .integer _ => true
  | .decimal _ => true
  | .mark m => m == "+" || m == "-" || m == "[" || m == "\x7b"
  | _ => false

/-- Whether no positional argument stands behind a named one. -/
def ordered (args : List Argument) : Bool :=
  let isNamed : Argument → Bool
    | .named _ _ => true
    | .spreadNamed _ => true
    | _ => false
  let isPositional : Argument → Bool
    | .positional _ => true
    | _ => false
  !(args.dropWhile fun a => !isNamed a).any isPositional

mutual

/-- A whole expression. -/
def expression : Nat → Nat → Grammar Expr
  | 0, _ => refuse "template exceeds maximum recursion limits"
  | fuel + 1, depth => nested depth fun depth => choices fuel depth

/-- An expression with any number of choices. -/
def choices : Nat → Nat → Grammar Expr
  | 0, _ => refuse "template exceeds maximum recursion limits"
  | fuel + 1, depth => do
    let value ← disjunctions (signed fuel depth) depth
    choicesFrom fuel depth value

/-- Choices behind a value. -/
def choicesFrom : Nat → Nat → Expr → Grammar Expr
  | 0, _, value => pure value
  | fuel + 1, depth, value => do
    if ← skipName "if" then
      let test ← disjunctions (signed fuel depth) depth
      let otherwise ← if ← skipName "else" then some <$> choices fuel depth else pure none
      choicesFrom fuel depth (.choice test value otherwise)
    else pure value

/-- An operand with its sign, and the filters and checks behind it. -/
def signed : Nat → Nat → Grammar Expr
  | 0, _ => refuse "template exceeds maximum recursion limits"
  | fuel + 1, depth => do
    let operand ← sign fuel depth
    filtersFrom fuel depth operand

/-- An operand with its sign. -/
def sign : Nat → Nat → Grammar Expr
  | 0, _ => refuse "template exceeds maximum recursion limits"
  | fuel + 1, depth => do
    if ← skipMark "-" then
      let e ← nested depth (sign fuel)
      pure (.unary .negate e)
    else
      let e ← nested depth (primary fuel)
      postfixesFrom fuel depth e

/-- An operand without anything around it. -/
def primary : Nat → Nat → Grammar Expr
  | 0, _ => refuse "template exceeds maximum recursion limits"
  | fuel + 1, depth => do
    match ← next with
    | some (.name text) =>
      pure <|
        if text == "true" || text == "True" then .literal (.bool true)
        else if text == "false" || text == "False" then .literal (.bool false)
        else if text == "none" || text == "None" then .literal .none
        else .variable text
    | some (.text value) => pure (.literal (.text value))
    | some (.integer n) => pure (.literal (.integer n))
    | some (.decimal x) => pure (.literal (.decimal x))
    | some (.mark "(") => parenthesised fuel depth
    | some (.mark "[") => do
      let items ← itemsUntil "]" (expression fuel depth) (← bound) true
      pure (.list items)
    | some (.mark "\x7b") => do
      let entries ← itemsUntil "\x7d" (entry fuel depth) (← bound) true
      pure (.map entries)
    | some _ => refuse "unexpected token"
    | none => refuse "unexpected end of input, expected expression"

/-- An entry of a map. -/
def entry : Nat → Nat → Grammar (Expr × Expr)
  | 0, _ => refuse "template exceeds maximum recursion limits"
  | fuel + 1, depth => do
    let key ← expression fuel depth
    mark ":"
    let value ← expression fuel depth
    pure (key, value)

/-- What stands in parentheses, the opening one read: an expression, or a list if there is a comma. -/
def parenthesised : Nat → Nat → Grammar Expr
  | 0, _ => refuse "template exceeds maximum recursion limits"
  | fuel + 1, depth => do
    if ← skipMark ")" then pure (.list [])
    else
      let first ← expression fuel depth
      if ← skipMark "," then
        let rest ← itemsUntil ")" (expression fuel depth) (← bound) true
        pure (.list (first :: rest))
      else
        mark ")"
        pure first

/-- What stands right behind an operand: attributes, items, slices and calls. -/
def postfixesFrom : Nat → Nat → Expr → Grammar Expr
  | 0, _, _ => refuse "template exceeds maximum recursion limits"
  | fuel + 1, depth, e => do
    match ← peek with
    | some (.mark ".") =>
      let _ ← next
      match ← next with
      | some (.name text) => postfixesFrom fuel depth (.attribute e text)
      | some (.integer n) => postfixesFrom fuel depth (.item e (.literal (.integer n)))
      | _ => refuse "expected identifier"
    | some (.mark "[") =>
      let _ ← next
      let subscripted ← subscript fuel depth e
      postfixesFrom fuel depth subscripted
    | some (.mark "(") =>
      let args ← arguments fuel depth
      postfixesFrom fuel depth (.call e args)
    | _ => pure e

/-- An item or a slice, the opening bracket read. -/
def subscript : Nat → Nat → Expr → Grammar Expr
  | 0, _, _ => refuse "template exceeds maximum recursion limits"
  | fuel + 1, depth, e => do
    let start ← if ← sees (Token.isMark ":") then pure none else some <$> expression fuel depth
    if ← skipMark ":" then
      let stop ← if ← sees fun t => t.isMark "]" || t.isMark ":" then pure none
        else some <$> expression fuel depth
      let step ←
        if ← skipMark ":" then
          if ← sees (Token.isMark "]") then pure none else some <$> expression fuel depth
        else pure none
      mark "]"
      pure (.slice e start stop step)
    else
      mark "]"
      match start with
      | some key => pure (.item e key)
      | none => refuse "empty subscript"

/-- Filters and checks behind an operand. -/
def filtersFrom : Nat → Nat → Expr → Grammar Expr
  | 0, _, _ => refuse "template exceeds maximum recursion limits"
  | fuel + 1, depth, e => do
    if ← skipMark "|" then
      let filter ← name
      let args ← if ← sees (Token.isMark "(") then arguments fuel depth else pure []
      filtersFrom fuel depth (.filter e filter args)
    else if ← skipName "is" then
      let negated ← skipName "not"
      let check ← name
      let args ←
        if ← sees (Token.isMark "(") then arguments fuel depth
        else if ← sees startsArgument then do
          let e ← sign fuel depth
          pure [.positional e]
        else pure []
      let checked := Expr.check e check args
      filtersFrom fuel depth (if negated then .unary .not checked else checked)
    else pure e

/-- The arguments of a call, with their parentheses. -/
def arguments : Nat → Nat → Grammar (List Argument)
  | 0, _ => refuse "template exceeds maximum recursion limits"
  | fuel + 1, depth => do
    mark "("
    let args ← itemsUntil ")" (argument fuel depth) (← bound) true
    if ordered args then
      if args.length > 2000 then refuse "Too many arguments in function call"
      else pure args
    else refuse "non-keyword arg after keyword arg"

/-- An argument of a call. -/
def argument : Nat → Nat → Grammar Argument
  | 0, _ => refuse "template exceeds maximum recursion limits"
  | fuel + 1, depth => do
    if ← skipMark "**" then .spreadNamed <$> expression fuel depth
    else if ← skipMark "*" then .spread <$> expression fuel depth
    else
      let value ← expression fuel depth
      match value with
      | .variable text =>
        if ← skipMark "=" then do
          let value ← disjunctions (signed fuel depth) depth
          pure (.named text value)
        else pure (.positional value)
      | _ => pure (.positional value)

end

end Stencil.Template.Grammar
