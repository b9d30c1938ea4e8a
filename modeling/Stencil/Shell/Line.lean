import Stencil.Shell.Word

/-!
# Command lines of a shell

A line is made of commands. One may be run after another, or only if that went as it should, or only if it
did not; it may read what another puts out. Lines can be put together to one command, in a shell of its own
or in the same.
-/

namespace Stencil.Shell

/-- Where a stream goes to or comes from. -/
structure Redirection where
  stream : Nat
  arrow : Arrow
  word : Word
  deriving DecidableEq, Inhabited

/-- A command line. -/
inductive Line where
  | nothing
  /-- A command with its words. -/
  | simple (words : List Word) (redirections : List Redirection)
  /-- The second reads what the first puts out. -/
  | piped (first second : Line)
  /-- The second is run after the first went as it should. -/
  | both (first second : Line)
  /-- The second is run after the first did not. -/
  | either (first second : Line)
  | sequence (first second : Line)
  | negated (body : Line)
  /-- In a shell of its own. -/
  | apart (body : Line)
  /-- With streams that go elsewhere. -/
  | routed (body : Line) (redirections : List Redirection)
  | choice (condition yes no : Line)
  /-- As long as the condition holds, or as long as it does not. -/
  | loop (condition body : Line) (holds : Bool)
  /-- Once for each of the fields, under a name. -/
  | each (name : String) (words : List Word) (body : Line)
  deriving DecidableEq, Inhabited

/-- The text of a token, if it is a word without quotes and values. -/
def Token.keyword? : Token → Option String
  | .word [.text s false] => some s
  | _ => none

/-- Leaves out the ends of lines. -/
def skipLines : List Token → List Token
  | .operator "\n" :: rest => skipLines rest
  | tokens => tokens

/-- Reads redirections. -/
def readRedirections : List Token → List Redirection × List Token
  | .arrow stream arrow :: .word word :: rest =>
    let (more, rest) := readRedirections rest
    ({ stream, arrow, word } :: more, rest)
  | tokens => ([], tokens)

/-- Reads the words and the redirections of a command. -/
def readWords : List Token → List Word × List Redirection × List Token
  | .word word :: rest =>
    let (words, redirections, rest) := readWords rest
    (word :: words, redirections, rest)
  | .arrow stream arrow :: .word word :: rest =>
    let (words, redirections, rest) := readWords rest
    (words, { stream, arrow, word } :: redirections, rest)
  | tokens => ([], [], tokens)

/-- Reads a word that has to come next. -/
def expect (keyword : String) : List Token → Option (List Token)
  | token :: rest =>
    if token.keyword? = some keyword || token = .operator keyword then some rest else none
  | [] => none

/-- The words that cannot begin a command. -/
def endings : List String := ["\x7d", "then", "elif", "else", "fi", "do", "done"]

/-- The levels of a line, from that which binds least. -/
inductive Level where
  /-- Commands one after the other, up to the end of the text line if there is one around them. -/
  | list (inside : Bool)
  | condition
  | pipeline
  | command
  deriving DecidableEq, Inhabited

/-- A command with the redirections that follow it. -/
def withRedirections (body : Line) (tokens : List Token) : Line × List Token :=
  match readRedirections tokens with
  | ([], rest) => (body, rest)
  | (redirections, rest) => (.routed body redirections, rest)

/-- Whether there is nothing left that could begin a command. -/
def isEnd (inside : Bool) : List Token → Bool
  | [] => true
  | .operator ")" :: _ => inside
  | token :: _ => inside && token.keyword?.any endings.contains

/-- Reads a line and leaves what follows it; nothing if it is not a line. The number bounds the steps. -/
def read? : Nat → Level → List Token → Option (Line × List Token)
  | 0, _, _ => none
  | steps + 1, .list inside, tokens => do
    let tokens := if inside then skipLines tokens else tokens
    if isEnd inside tokens then some (.nothing, tokens)
    else
      let (first, rest) ← read? steps .condition tokens
      let proceed (first : Line) (rest : List Token) : Option (Line × List Token) := do
        let (second, rest) ← read? steps (.list inside) rest
        some (if second = .nothing then first else .sequence first second, rest)
      match rest with
      | .operator ";" :: rest => proceed first rest
      | .operator "&" :: rest => proceed (.sequence (.apart first) (.simple [[.text ":" false]] [])) rest
      | .operator "\n" :: rest => if inside then proceed first rest else some (first, rest)
      | rest => if isEnd inside rest then some (first, rest) else none
  | steps + 1, .condition, tokens => do
    let (first, rest) ← read? steps .pipeline tokens
    readMore steps first rest
  | steps + 1, .pipeline, tokens => do
    match tokens with
    | [] => none
    | token :: rest =>
      if token.keyword? = some "!" then
        let (body, rest) ← read? steps .pipeline rest
        some (.negated body, rest)
      else
        let (first, rest) ← read? steps .command (token :: rest)
        match rest with
        | .operator "|" :: rest =>
          let (second, rest) ← read? steps .pipeline (skipLines rest)
          some (.piped first second, rest)
        | rest => some (first, rest)
  | steps + 1, .command, tokens => do
    match tokens with
    | [] => none
    | .operator op :: rest =>
      if op = "(" then
        let (body, rest) ← read? steps (.list true) rest
        some (withRedirections (.apart body) (← expect ")" rest))
      else none
    | token :: rest =>
      match token.keyword? with
      | some "\x7b" =>
        let (body, rest) ← read? steps (.list true) rest
        some (withRedirections body (← expect "\x7d" rest))
      | some "if" =>
        let (line, rest) ← readChoice steps rest
        some (withRedirections line rest)
      | some "while" =>
        let (line, rest) ← readLoop steps true rest
        some (withRedirections line rest)
      | some "until" =>
        let (line, rest) ← readLoop steps false rest
        some (withRedirections line rest)
      | some "for" =>
        match rest with
        | .word [.text name false] :: rest =>
          let (words, _, rest) := readWords (← expect "in" (skipLines rest))
          let rest := match rest with
            | .operator ";" :: rest => rest
            | rest => rest
          let (body, rest) ← read? steps (.list true) (← expect "do" (skipLines rest))
          some (withRedirections (.each name words body) (← expect "done" rest))
        | _ => none
      | keyword? =>
        if keyword?.any endings.contains then none
        else
          let (words, redirections, rest) := readWords (token :: rest)
          if words.isEmpty && redirections.isEmpty then none
          else match rest with
            | .operator "(" :: _ => none
            | rest => some (.simple words redirections, rest)
where
  /-- Reads what is only run if what was before it went as it should, or did not. -/
  readMore : Nat → Line → List Token → Option (Line × List Token)
    | 0, _, _ => none
    | steps + 1, first, .operator op :: rest => do
      if op = "&&" then
        let (second, rest) ← read? steps .pipeline (skipLines rest)
        readMore steps (.both first second) rest
      else if op = "||" then
        let (second, rest) ← read? steps .pipeline (skipLines rest)
        readMore steps (.either first second) rest
      else some (first, .operator op :: rest)
    | _ + 1, first, rest => some (first, rest)
  /-- Reads a choice behind its first word. -/
  readChoice : Nat → List Token → Option (Line × List Token)
    | 0, _ => none
    | steps + 1, tokens => do
      let (condition, rest) ← read? steps (.list true) tokens
      let (yes, rest) ← read? steps (.list true) (← expect "then" rest)
      match rest with
      | token :: rest =>
        match token.keyword? with
        | some "elif" =>
          let (no, rest) ← readChoice steps rest
          some (.choice condition yes no, rest)
        | some "else" =>
          let (no, rest) ← read? steps (.list true) rest
          some (.choice condition yes no, ← expect "fi" rest)
        | some "fi" => some (.choice condition yes .nothing, rest)
        | _ => none
      | [] => none
  /-- Reads a loop behind its first word. -/
  readLoop : Nat → Bool → List Token → Option (Line × List Token)
    | 0, _, _ => none
    | steps + 1, holds, tokens => do
      let (condition, rest) ← read? steps (.list true) tokens
      let (body, rest) ← read? steps (.list true) (← expect "do" rest)
      some (.loop condition body holds, ← expect "done" rest)

/-- Reads the first line of a row of tokens, and leaves those of the others; nothing if it is not a line. -/
def readLine? (tokens : List Token) : Option (Line × List Token) :=
  read? (4 * tokens.length + 8) (.list false) tokens

end Stencil.Shell
