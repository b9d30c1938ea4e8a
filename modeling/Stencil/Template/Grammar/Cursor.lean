import Stencil.Template.Lexer

/-!
# Reading tokens one after the other

A reader takes tokens off the front of what is left and gives a result, or says why it cannot. When the
tokens run out before their text did, the reason is the one that stopped them.
-/

namespace Stencil.Template

/-- What is left to read. -/
structure Cursor where
  rest : List Token
  /-- What stopped the tokens. -/
  cause? : Option Cause
  /-- The names of the blocks so far. -/
  blocks : List String := []
  deriving Inhabited

/-- A reader of tokens. -/
abbrev Grammar (α : Type) := StateT Cursor (Except Cause) α

namespace Grammar

/-- Says that the text is not a template. -/
def refuse {α : Type} (why : String) : Grammar α := throw (.malformed why)

/-- The next token, if there is one. -/
def peek : Grammar (Option Token) := do
  let cursor ← get
  match cursor.rest, cursor.cause? with
  | token :: _, _ => pure (some token)
  | [], some cause => throw cause
  | [], none => pure none

/-- Takes the next token off. -/
def next : Grammar (Option Token) := do
  let token ← peek
  modify fun cursor => { cursor with rest := cursor.rest.drop 1 }
  pure token

/-- Whether the next token is of a kind. -/
def sees (kind : Token → Bool) : Grammar Bool := do
  match ← peek with
  | some token => pure (kind token)
  | none => pure false

/-- Takes the next token off if it is of a kind. -/
def skip (kind : Token → Bool) : Grammar Bool := do
  if ← sees kind then
    let _ ← next
    pure true
  else pure false

/-- Takes a mark off, if it comes next. -/
def skipMark (text : String) : Grammar Bool := skip (Token.isMark text)

/-- Takes a name off, if it comes next. -/
def skipName (text : String) : Grammar Bool := skip (Token.isName text)

/-- Takes a mark off, which must come next. -/
def mark (text : String) : Grammar Unit := do
  if !(← skipMark text) then refuse ("expected " ++ text)

/-- Takes a certain name off, which must come next. -/
def word (text : String) : Grammar Unit := do
  if !(← skipName text) then refuse ("expected " ++ text)

/-- Takes a name off, which must come next. -/
def name : Grammar String := do
  match ← next with
  | some (.name text) => pure text
  | _ => refuse "expected identifier"

/-- Whether a token ends a statement. -/
def isClose : Token → Bool
  | .closeStatement => true
  | _ => false

/-- Takes the end of a statement off, which must come next. -/
def close : Grammar Unit := do
  if !(← skip isClose) then refuse "expected end of block"

/-- Items between commas up to a closing mark, which is taken off too. A comma may come last. -/
def itemsUntil {α : Type} (stop : String) (item : Grammar α) : Nat → Bool → Grammar (List α)
  | 0, _ => refuse "too many items"
  | fuel + 1, first => do
    if ← skipMark stop then pure []
    else
      if !first then mark ","
      if !first && (← skipMark stop) then pure []
      else
        let x ← item
        let rest ← itemsUntil stop item fuel false
        pure (x :: rest)

/-- A bound for the number of items that are left. -/
def bound : Grammar Nat := do pure ((← get).rest.length + 1)

end Grammar

end Stencil.Template
