/-!
# Tokens of a template

A template is text with blocks in it. A block between `{{` and `}}` holds an expression, a block
between `{%` and `%}` a statement; the text outside is kept as it is. Tokens are the pieces that the
grammar is about: text, the ends of blocks, and the words, numbers and marks inside.
-/

namespace Stencil.Template

/-- A piece of a template. -/
inductive Token where
  /-- Text outside of blocks. -/
  | data (text : String)
  | openExpression
  | closeExpression
  | openStatement
  | closeStatement
  | name (text : String)
  | text (value : String)
  | integer (value : Nat)
  | decimal (value : Float)
  /-- An operator, a bracket or another mark. -/
  | mark (text : String)
  deriving Inhabited

/-- Whether a token is a certain mark. -/
def Token.isMark (text : String) : Token → Bool
  | .mark other => other == text
  | _ => false

/-- Whether a token is a certain name. -/
def Token.isName (text : String) : Token → Bool
  | .name other => other == text
  | _ => false

end Stencil.Template
