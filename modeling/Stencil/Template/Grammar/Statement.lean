import Stencil.Template.Grammar.Expression

/-!
# The grammar of statements

A statement with a body ends with a statement of its own, such as `endif`. A body is read up to the
first statement that can end it or go on with it (`else`); what follows is settled by the statement
that the body belongs to. `break` and `continue` need a loop around them, and blocks may not be written
inside of macros.
-/

namespace Stencil.Template.Grammar

/-- Where a statement stands. -/
structure Surroundings where
  depth : Nat := 0
  inLoop : Bool := false
  inMacro : Bool := false

/-- Names that nothing can be assigned to. -/
def reservedNames : List String :=
  ["true", "True", "false", "False", "none", "None", "loop", "self"]

/-- A name that something can be assigned to. -/
def freeName : Grammar String := do
  let text ← name
  if reservedNames.contains text then refuse ("cannot assign to reserved variable name " ++ text)
  else pure text

/-- Attributes behind a name that something is assigned to. -/
def attributesFrom : Nat → Expr → String → Grammar Target
  | 0, object, last => pure (.attribute object last)
  | fuel + 1, object, last => do
    if ← skipMark "." then
      let text ← name
      attributesFrom fuel (.attribute object last) text
    else pure (.attribute object last)

/-- A name, or an attribute of one. -/
def dottedName : Grammar Target := do
  let text ← freeName
  if ← skipMark "." then
    let last ← name
    attributesFrom (← bound) (.variable text) last
  else pure (.variable text)

/-- One of the targets between commas, given the reader of what is in parentheses. -/
def targetItem (dotted : Bool) (inner : Grammar Target) : Grammar Target := do
  if ← skipMark "(" then
    let target ← inner
    mark ")"
    pure target
  else if dotted then dottedName
  else .variable <$> freeName

/-- Whether a token ends a row of targets. -/
def endsTargets : Token → Bool
  | .mark m => m == ")" || m == "="
  | .name text => text == "in"
  | .closeExpression => true
  | .closeStatement => true
  | _ => false

/-- Targets between commas, at least one; a single one without a comma stands for itself. -/
def targets (dotted : Bool) : Nat → Grammar Target
  | 0 => refuse "template exceeds maximum recursion limits"
  | fuel + 1 => do
    let first ← targetItem dotted (targets false fuel)
    if ← sees (Token.isMark ",") then
      let rest ← more (targets false fuel) (← bound)
      pure (.several (first :: rest))
    else pure first
where
  /-- The targets behind the first one. -/
  more (inner : Grammar Target) : Nat → Grammar (List Target)
    | 0 => pure []
    | fuel + 1 => do
      if ← skipMark "," then
        if ← sees endsTargets then pure []
        else
          let target ← targetItem dotted inner
          let rest ← more inner fuel
          pure (target :: rest)
      else pure []

/-- A bound for the steps that reading an expression takes, from the tokens that are left. -/
def effort : Grammar Nat := do pure (20 * (← get).rest.length + 4000)

/-- An expression. -/
def value (s : Surroundings) : Grammar Expr := do expression (← effort) s.depth

/-- An expression that is not a choice. -/
def plainValue (s : Surroundings) : Grammar Expr := do
  let fuel ← effort
  disjunctions (signed fuel s.depth) s.depth

/-- Filters with bars between them, at least one, up to the end of the statement. -/
def filterChain (s : Surroundings) : Nat → Bool → Grammar (List FilterCall)
  | 0, _ => refuse "too many filters"
  | fuel + 1, first => do
    if ← sees isClose then
      if first then refuse "expected a filter" else pure []
    else
      if !first then mark "|"
      let filter ← name
      let args ← if ← sees (Token.isMark "(") then do arguments (← effort) s.depth else pure []
      let rest ← filterChain s fuel false
      pure ({ name := filter, arguments := args } :: rest)

/-- Parameters and the defaults of the last ones, the opening parenthesis read. -/
def parameters (s : Surroundings) : Nat → Bool → Bool → Grammar (List String × List Expr)
  | 0, _, _ => refuse "too many parameters"
  | fuel + 1, first, defaulted => do
    if ← skipMark ")" then pure ([], [])
    else
      if !first then mark ","
      if !first && (← skipMark ")") then pure ([], [])
      else
        let parameter ← freeName
        if defaulted then mark "="
        let hasDefault ← if defaulted then pure true else skipMark "="
        let default? ← if hasDefault then some <$> value s else pure none
        let (names, defaults) ← parameters s fuel false hasDefault
        pure (parameter :: names, default?.toList ++ defaults)

/-- Assignments between commas, up to the end of the statement. -/
def assignments (s : Surroundings) : Nat → Bool → Grammar (List (Target × Expr))
  | 0, _ => refuse "too many assignments"
  | fuel + 1, first => do
    if ← sees isClose then pure []
    else
      if !first then mark ","
      let target ← targetItem false (targets false fuel)
      mark "="
      let e ← value s
      let rest ← assignments s fuel false
      pure ((target, e) :: rest)

/-- Names to import with the names that they get, up to the end of the statement. -/
def importedNames : Nat → Bool → Grammar (List (String × String))
  | 0, _ => refuse "too many names"
  | fuel + 1, first => do
    if ← sees isClose then pure []
    else
      if !first then mark ","
      if ← sees isClose then pure []
      else
        let exported ← freeName
        let renamed ← if ← skipName "as" then freeName else pure exported
        let rest ← importedNames fuel false
        pure ((exported, renamed) :: rest)

/-- A remark about the context of a template, which means nothing. -/
def contextRemark : Grammar Unit := do
  if ← skip fun t => t.isName "with" || t.isName "without" then word "context"

/-- A call as callee and arguments. -/
def callOf (e : Expr) : Grammar (Expr × List Argument) :=
  match e with
  | .call callee args => pure (callee, args)
  | _ => refuse "expected call expression"

mutual

/-- Statements up to a statement whose name is one of those that stop, which is left where it is. -/
def statements : Nat → Surroundings → List String → Grammar (List Statement)
  | 0, _, _ => refuse "template exceeds maximum recursion limits"
  | fuel + 1, s, stops => do
    match ← next with
    | none => pure []
    | some (.data text) =>
      let rest ← statements fuel s stops
      pure (.data text :: rest)
    | some .openExpression =>
      let e ← value s
      match ← next with
      | some .closeExpression =>
        let rest ← statements fuel s stops
        pure (.print e :: rest)
      | _ => refuse "expected end of variable block"
    | some .openStatement =>
      match ← peek with
      | none => refuse "unexpected end of input, expected keyword"
      | some token =>
        if stops.any fun stop => token.isName stop then pure []
        else
          let first ← nested s.depth fun depth => statement fuel { s with depth }
          close
          let rest ← statements fuel s stops
          pure (first :: rest)
    | some _ => refuse "unexpected token"

/-- A body with the end of the statement in front of it, up to the statement that ends it, whose name is
taken off. -/
def body : Nat → Surroundings → String → Grammar (List Statement)
  | 0, _, _ => refuse "template exceeds maximum recursion limits"
  | fuel + 1, s, stop => do
    close
    let all ← statements fuel s [stop]
    let _ ← next
    pure all

/-- A statement, its end not included. -/
def statement : Nat → Surroundings → Grammar Statement
  | 0, _ => refuse "template exceeds maximum recursion limits"
  | fuel + 1, s => do
    match ← next with
    | some (.name "for") =>
      let target ← targets false (← bound)
      word "in"
      let items ← plainValue s
      let onlyIf ← if ← skipName "if" then some <$> value s else pure none
      let recursive ← skipName "recursive"
      close
      let inside := { s with inLoop := true }
      let main ← statements fuel inside ["endfor", "else"]
      let otherwise ← if ← skipName "else" then do
          close
          statements fuel inside ["endfor"]
        else pure []
      let _ ← next
      pure (.loop target items onlyIf recursive main otherwise)
    | some (.name "if") => condition fuel s
    | some (.name "with") =>
      let all ← assignments s (← bound) true
      let main ← body fuel s "endwith"
      pure (.scope all main)
    | some (.name "set") =>
      let bracketed ← sees (Token.isMark "(")
      let target ← targets true (← bound)
      if !bracketed && (← sees fun t => isClose t || t.isMark "|") then
        let filters ← if ← skipMark "|" then filterChain s (← bound) true else pure []
        let main ← body fuel s "endset"
        pure (.assignText target filters main)
      else
        mark "="
        let e ← value s
        pure (.assign target e)
    | some (.name "autoescape") =>
      let mode ← value s
      let main ← body fuel s "endautoescape"
      pure (.escaping mode main)
    | some (.name "filter") =>
      let filters ← filterChain s (← bound) true
      let main ← body fuel s "endfilter"
      pure (.filtered filters main)
    | some (.name "block") =>
      if s.inMacro then refuse "block tags in macros are not allowed"
      else
        let blockName ← name
        if (← get).blocks.contains blockName then refuse ("block '" ++ blockName ++ "' defined twice")
        else
          modify fun cursor => { cursor with blocks := blockName :: cursor.blocks }
          let main ← body fuel { s with inLoop := false } "endblock"
          match ← peek with
          | some (.name trailing) =>
            if trailing == blockName then
              let _ ← next
              pure (.block blockName main)
            else refuse "mismatching name on block"
          | _ => pure (.block blockName main)
    | some (.name "extends") => .parent <$> value s
    | some (.name "include") =>
      let template ← value s
      let ignoreMissing ← skipName "ignore"
      if ignoreMissing then word "missing"
      contextRemark
      pure (.splice template ignoreMissing)
    | some (.name "import") =>
      let template ← value s
      word "as"
      let target ← freeName
      contextRemark
      pure (.importAll template (.variable target))
    | some (.name "from") =>
      let template ← value s
      word "import"
      let names ← importedNames (← bound) true
      pure (.importNames template names)
    | some (.name "macro") =>
      let macroName ← name
      mark "("
      let (names, defaults) ← parameters s (← bound) true false
      let main ← body fuel { s with inLoop := false, inMacro := true } "endmacro"
      pure (.define macroName names defaults main)
    | some (.name "call") =>
      let (names, defaults) ←
        if ← skipMark "(" then do parameters s (← bound) true false else pure ([], [])
      let (callee, args) ← callOf (← value s)
      let main ← body fuel { s with inLoop := false, inMacro := true } "endcall"
      pure (.callWith callee args names defaults main)
    | some (.name "do") =>
      let (callee, args) ← callOf (← value s)
      pure (.run callee args)
    | some (.name "continue") =>
      if s.inLoop then pure .next else refuse "'continue' must be placed inside a loop"
    | some (.name "break") =>
      if s.inLoop then pure .leave else refuse "'break' must be placed inside a loop"
    | some (.name other) => refuse ("unknown statement " ++ other)
    | _ => refuse "unexpected token, expected statement"

/-- A condition with what depends on it, its first word read. -/
def condition : Nat → Surroundings → Grammar Statement
  | 0, _ => refuse "template exceeds maximum recursion limits"
  | fuel + 1, s => do
    let test ← value s
    close
    let main ← statements fuel s ["endif", "else", "elif"]
    if ← skipName "else" then
      close
      let otherwise ← statements fuel s ["endif"]
      let _ ← next
      pure (.branch test main otherwise)
    else if ← skipName "elif" then
      let otherwise ← condition fuel s
      pure (.branch test main [otherwise])
    else
      let _ ← next
      pure (.branch test main [])

end

end Stencil.Template.Grammar

namespace Stencil.Template

/-- Reads the text of a template. -/
def Document.ofString (name text : String) : Except Fault Document :=
  let tokens := Tokens.ofString text
  let fuel := 4 * tokens.tokens.length + 1000
  match (Grammar.statements fuel {} []).run { rest := tokens.tokens, cause? := tokens.cause? } with
  | .ok (body, _) => .ok { name, body }
  | .error cause => .error { cause, template? := some name }

end Stencil.Template
