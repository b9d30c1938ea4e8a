import Stencil.Yaml.Token

/-!
# From a stream to its tokens

A colon makes a key of what came before it on the line, so the tokens that announce the key are put
in front of tokens that were read earlier (`Lexer.announceKey`). The place where a key could start is
remembered, one for each level of flow notation; it is forgotten once the line has ended or 1024
characters have passed. Where a key must come, forgetting it is an error.

Indentation opens blocks (`Lexer.openBlock`) and closes them (`Lexer.closeBlocks`). Inside flow
notation it means nothing.
-/

namespace Stencil.Yaml

/-- A place where a key may have started. -/
structure KeyStart where
  /-- Whether nothing else than a key can start there. -/
  required : Bool
  /-- How many tokens came before. -/
  tokens : Nat
  cursor : Cursor

/-- What has been read so far. -/
structure Lexer where
  cursor : Cursor
  /-- The tokens, the last one first. -/
  tokens : List Token
  /-- The possible start of a key on each level of flow notation, the innermost first; the last one
  is that of the block. -/
  keyStarts : List (Option KeyStart)
  /-- Whether a key may start here. -/
  keyAllowed : Bool
  /-- The indentation of the innermost block, `-1` outside all blocks. -/
  indent : Int
  /-- The indentation of the blocks around it. -/
  outerIndents : List Int

namespace Lexer

/-- The start of a stream. -/
def start (chars : List Char) : Lexer :=
  { cursor := { rest := chars, index := 0, line := 0, column := 0 }
    tokens := [], keyStarts := [none], keyAllowed := true, indent := -1, outerIndents := [] }

/-- Whether the place is inside flow notation. -/
def inFlow (lexer : Lexer) : Bool := 1 < lexer.keyStarts.length

/-- Adds a token. -/
def push (lexer : Lexer) (token : Token) : Lexer := { lexer with tokens := token :: lexer.tokens }

/-- Adds tokens in front of those that came after the first `n`. -/
def insertAt (lexer : Lexer) (n : Nat) (tokens : List Token) : Lexer :=
  let later := lexer.tokens.take (lexer.tokens.length - n)
  { lexer with tokens := later ++ tokens.reverse ++ lexer.tokens.drop later.length }

/-- Moves over blanks, comments and line ends. After a line end a key may start. -/
def skipBlanks : Nat → Lexer → Lexer
  | 0, lexer => lexer
  | fuel + 1, lexer =>
    let cursor := lexer.cursor
    let cursor := if cursor.column = 0 && cursor.isAt '\ufeff' then cursor.skip 1 else cursor
    let cursor := cursor.skipWhile fun c => c = ' ' || ((lexer.inFlow || !lexer.keyAllowed) && c = '\t')
    let cursor :=
      if cursor.isAt '#' then cursor.skipWhile fun c => !isBreakOrEnd (some c) else cursor
    match cursor.lineEnd? with
    | none => { lexer with cursor }
    | some (_, next) =>
      skipBlanks fuel { lexer with cursor := next, keyAllowed := lexer.keyAllowed || !lexer.inFlow }

/-- Forgets the starts of keys that are too far back. -/
def forgetKeys? (lexer : Lexer) : Option Lexer := do
  let keep (start : Option KeyStart) : Option (Option KeyStart) :=
    match start with
    | none => some none
    | some key =>
      if key.cursor.line < lexer.cursor.line || key.cursor.index + 1024 < lexer.cursor.index then
        if key.required then none else some none
      else some (some key)
  let keyStarts ← lexer.keyStarts.mapM keep
  some { lexer with keyStarts }

/-- Forgets the innermost start of a key. -/
def dropKey? (lexer : Lexer) : Option Lexer :=
  match lexer.keyStarts with
  | some key :: outer => if key.required then none else some { lexer with keyStarts := none :: outer }
  | _ => some lexer

/-- Remembers that a key may start here. -/
def noteKey? (lexer : Lexer) : Option Lexer :=
  if lexer.keyAllowed then do
    let key : KeyStart :=
      { required := !lexer.inFlow && lexer.indent = (lexer.cursor.column : Int)
        tokens := lexer.tokens.length
        cursor := lexer.cursor }
    let lexer ← lexer.dropKey?
    some { lexer with keyStarts := some key :: lexer.keyStarts.drop 1 }
  else some lexer

/-- Opens a block if the column is right of the innermost one. The token goes in front of those that
came after the first `n`. -/
def openBlock (lexer : Lexer) (column n : Nat) (token : Token) : Lexer :=
  if !lexer.inFlow && lexer.indent < (column : Int) then
    { lexer.insertAt n [token] with
      indent := column, outerIndents := lexer.indent :: lexer.outerIndents }
  else lexer

/-- Closes the blocks that are right of a column. -/
def closeBlocks (column : Int) : List Int → Lexer → Lexer
  | outer, lexer =>
    if lexer.inFlow || lexer.indent ≤ column then lexer
    else match outer with
      | [] => { lexer.push .blockEnd with indent := -1 }
      | indent :: rest =>
        closeBlocks column rest { lexer.push .blockEnd with indent, outerIndents := rest }

/-- Closes the blocks that are right of a column. -/
def closeTo (lexer : Lexer) (column : Int) : Lexer := closeBlocks column lexer.outerIndents lexer

/-- Reads a mark of some characters as a token. -/
def mark (lexer : Lexer) (token : Token) (n : Nat) : Lexer :=
  { lexer.push token with cursor := lexer.cursor.skip n }

/-- Reads the mark of a hyphen. -/
def blockEntry? (lexer : Lexer) : Option Lexer := do
  let lexer ←
    if lexer.inFlow then some lexer
    else if lexer.keyAllowed then
      some (lexer.openBlock lexer.cursor.column lexer.tokens.length .blockSequenceStart)
    else none
  let lexer ← lexer.dropKey?
  some ({ lexer with keyAllowed := true }.mark .blockEntry 1)

/-- Reads the mark of a question mark. -/
def key? (lexer : Lexer) : Option Lexer := do
  let lexer ←
    if lexer.inFlow then some lexer
    else if lexer.keyAllowed then
      some (lexer.openBlock lexer.cursor.column lexer.tokens.length .blockMappingStart)
    else none
  let lexer ← lexer.dropKey?
  some ({ lexer with keyAllowed := !lexer.inFlow }.mark .key 1)

/-- Makes a key of what came since a place. -/
def announceKey (lexer : Lexer) (key : KeyStart) : Lexer :=
  (lexer.insertAt key.tokens [.key]).openBlock key.cursor.column key.tokens .blockMappingStart

/-- Reads the mark of a colon. -/
def value? (lexer : Lexer) : Option Lexer :=
  match lexer.keyStarts with
  | some key :: outer =>
    some ({ lexer.announceKey key with keyStarts := none :: outer, keyAllowed := false }.mark .value 1)
  | _ =>
    if lexer.inFlow then some ({ lexer with keyAllowed := false }.mark .value 1)
    else if lexer.keyAllowed then
      let lexer := lexer.openBlock lexer.cursor.column lexer.tokens.length .blockMappingStart
      some ({ lexer with keyAllowed := true }.mark .value 1)
    else none

/-- Reads the mark of the start or the end of a document. -/
def documentMark? (lexer : Lexer) (token : Token) : Option Lexer := do
  let lexer ← (lexer.closeTo (-1)).dropKey?
  some ({ lexer with keyAllowed := false }.mark token 3)

/-- Reads an opening bracket or brace. -/
def flowStart? (lexer : Lexer) (token : Token) : Option Lexer := do
  let lexer ← lexer.noteKey?
  some ({ lexer with keyStarts := none :: lexer.keyStarts, keyAllowed := true }.mark token 1)

/-- Reads a closing bracket or brace. -/
def flowEnd? (lexer : Lexer) (token : Token) : Option Lexer := do
  let lexer ← lexer.dropKey?
  let keyStarts := if lexer.inFlow then lexer.keyStarts.drop 1 else lexer.keyStarts
  some ({ lexer with keyStarts, keyAllowed := false }.mark token 1)

/-- Adds a token that was read as part of a node, and goes on behind it. -/
def node (lexer : Lexer) (token : Token) (cursor : Cursor) : Lexer :=
  { lexer.push token with cursor }

/-- Reads a quoted scalar. -/
def quoted? (lexer : Lexer) (single : Bool) : Option Lexer := do
  let lexer ← lexer.noteKey?
  let (text, next) ← quotedScalar? single lexer.cursor
  some ({ lexer with keyAllowed := false }.node (.scalar .quoted text) next)

/-- Reads a literal or folded scalar. -/
def block? (lexer : Lexer) (literal : Bool) : Option Lexer := do
  let lexer ← lexer.dropKey?
  let (text, next) ← blockScalar? literal lexer.indent lexer.cursor
  some ({ lexer with keyAllowed := true }.node
    (.scalar (if literal then .literal else .folded) text) next)

/-- Reads a plain scalar. -/
def plain? (lexer : Lexer) : Option Lexer := do
  let lexer ← lexer.noteKey?
  let (text, lineEnded, next) ← plainScalar? lexer.inFlow (lexer.indent + 1) lexer.cursor
  some ({ lexer with keyAllowed := lineEnded }.node (.scalar .plain text) next)

/-- Whether a plain scalar can start here. -/
def startsPlain (lexer : Lexer) : Bool :=
  let cursor := lexer.cursor
  match cursor.peek? with
  | none => false
  | some c =>
    let mark := isBlankOrEnd (some c) || "-?:,[]\x7b\x7d#&*!|>'\"%@\x60".toList.contains c
    !mark
      || (c = '-' && !(match cursor.peekAt? 1 with | some d => isBlank d | none => false))
      || (!lexer.inFlow && (c = '?' || c = ':') && !isBlankOrEnd (cursor.peekAt? 1))

/-- Reads an anchor, an alias or a tag. -/
def property? (lexer : Lexer) (read? : Cursor → Option (Token × Cursor)) : Option Lexer := do
  let lexer ← lexer.noteKey?
  let (token, next) ← read? lexer.cursor
  some ({ lexer with keyAllowed := false }.node token next)

/-- Reads the token that starts with a character of its own. -/
def markOrScalar? (lexer : Lexer) (c : Char) : Option Lexer :=
  let standsAlone := isBlankOrEnd (lexer.cursor.peekAt? 1)
  match c with
  | '[' => lexer.flowStart? .flowSequenceStart
  | '{' => lexer.flowStart? .flowMappingStart
  | ']' => lexer.flowEnd? .flowSequenceEnd
  | '}' => lexer.flowEnd? .flowMappingEnd
  | ',' => do
    let lexer ← lexer.dropKey?
    some ({ lexer with keyAllowed := true }.mark .flowEntry 1)
  | '*' => lexer.property? fun cursor =>
    (anchorName? cursor).map fun (name, next) => (.alias name, next)
  | '&' => lexer.property? fun cursor =>
    (anchorName? cursor).map fun (name, next) => (.anchor name, next)
  | '!' => lexer.property? (tag? lexer.inFlow)
  | '\'' => lexer.quoted? true
  | '"' => lexer.quoted? false
  | _ =>
    if c = '-' && standsAlone then lexer.blockEntry?
    else if c = '?' && (lexer.inFlow || standsAlone) then lexer.key?
    else if c = ':' && (lexer.inFlow || standsAlone) then lexer.value?
    else if c = '|' && !lexer.inFlow then lexer.block? true
    else if c = '>' && !lexer.inFlow then lexer.block? false
    else if lexer.startsPlain then lexer.plain?
    else none

/-- Ends the stream. -/
def finish? (lexer : Lexer) : Option Lexer :=
  (lexer.closeTo (-1)).dropKey?.map fun lexer => lexer.push .streamEnd

/-- Reads tokens up to the end of the stream. -/
def run? : Nat → Lexer → Option Lexer
  | 0, _ => none
  | fuel + 1, lexer =>
    let lexer := skipBlanks (lexer.cursor.rest.length + 1) lexer
    match lexer.forgetKeys? with
    | none => none
    | some lexer =>
      let lexer := lexer.closeTo lexer.cursor.column
      match lexer.cursor.peek? with
      | none => lexer.finish?
      | some c =>
        let next? :=
          if lexer.cursor.column = 0 && c = '%' then do
            let lexer ← (lexer.closeTo (-1)).dropKey?
            let (token, next) ← directive? lexer.cursor
            some ({ lexer with keyAllowed := false }.node token next)
          else if lexer.cursor.isMarker '-' then lexer.documentMark? .documentStart
          else if lexer.cursor.isMarker '.' then lexer.documentMark? .documentEnd
          else lexer.markOrScalar? c
        match next? with
        | none => none
        | some lexer => run? fuel lexer

end Lexer

/-- The tokens of a stream, unless it holds a character or a mark out of place. -/
def Token.ofString? (text : String) : Option (List Token) :=
  let chars := text.toList
  if chars.all isAllowed then
    let chars := match chars with
      | '\ufeff' :: rest => rest
      | _ => chars
    (Lexer.run? (chars.length + 2) (Lexer.start chars)).map fun lexer => lexer.tokens.reverse
  else none

end Stencil.Yaml
