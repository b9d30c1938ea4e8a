/-!
# Words of a shell

A command line is split into words at blanks. Quotes and backslashes keep characters from being looked at; a
dollar sign stands for a value, or for what a command puts out, except between single quotes. Some characters
are no part of a word: they stand between commands, or say where the output of a command goes.
-/

namespace Stencil.Shell

/-- A part of a word. -/
inductive Piece where
  | text (s : String) (quoted : Bool)
  /-- The value of a variable. -/
  | value (name : String) (quoted : Bool)
  /-- What a line puts out. -/
  | output (line : String) (quoted : Bool)
  deriving DecidableEq, Inhabited

/-- Whether a part of a word is quoted. -/
def Piece.isQuoted : Piece → Bool
  | text _ quoted => quoted
  | value _ quoted => quoted
  | output _ quoted => quoted

/-- A word before its values are put in. -/
abbrev Word := List Piece

/-- How output or input is redirected. -/
inductive Arrow where
  | input
  | output
  | append
  /-- To where another stream goes. -/
  | same
  deriving DecidableEq, Inhabited

/-- A word, or what stands between words. -/
inductive Token where
  | word (pieces : Word)
  | operator (s : String)
  | arrow (stream : Nat) (arrow : Arrow)
  deriving DecidableEq, Inhabited

/-- How the next character is to be taken. -/
inductive Mode where
  | plain
  | single
  | double
  deriving DecidableEq, Inhabited

/-- Adds a character to a word, whose parts lie the last one first. -/
def addChar (c : Char) (quoted : Bool) : Word → Word
  | .text s q :: rest =>
    if q = quoted then .text (s.push c) q :: rest
    else .text (String.singleton c) quoted :: .text s q :: rest
  | pieces => .text (String.singleton c) quoted :: pieces

/-- The operators between commands, the longer ones first. -/
def operators : List (List Char) :=
  [['&', '&'], ['|', '|'], [';'], ['|'], ['&'], ['('], [')'], ['\n']]

/-- The arrows, the longer ones first. -/
def arrows : List (List Char × Nat × Arrow) :=
  [(['>', '>'], 1, .append), (['>', '&'], 1, .same), (['>', '|'], 1, .output), (['>'], 1, .output),
    (['<'], 0, .input)]

/-- The token between words that a row of characters starts with, and what follows it. -/
def separator? (chars : List Char) : Option (Token × List Char) :=
  match operators.find? fun op => op.isPrefixOf chars with
  | some op => some (.operator (String.ofList op), chars.drop op.length)
  | none =>
    (arrows.find? fun arrow => arrow.1.isPrefixOf chars).map fun (text, stream, arrow) =>
      (.arrow stream arrow, chars.drop text.length)

/-- An arrow with the number of a stream before it. -/
def numbered? : List Char → Option (Token × List Char)
  | c :: d :: rest =>
    if c.isDigit && (d = '>' || d = '<') then
      match separator? (d :: rest) with
      | some (.arrow _ arrow, rest) => some (.arrow (c.toNat - '0'.toNat) arrow, rest)
      | _ => none
    else none
  | _ => none

/-- The characters up to the parenthesis that closes one that is open, and what follows it. -/
def upToClose : Nat → List Char → Option (List Char × List Char)
  | _, [] => none
  | 0, ')' :: rest => some ([], rest)
  | depth + 1, ')' :: rest => (upToClose depth rest).map fun (inside, after) => (')' :: inside, after)
  | depth, '(' :: rest => (upToClose (depth + 1) rest).map fun (inside, after) => ('(' :: inside, after)
  | depth, c :: rest => (upToClose depth rest).map fun (inside, after) => (c :: inside, after)

/-- The characters up to another one, and what follows it. -/
def upTo (mark : Char) (chars : List Char) : Option (List Char × List Char) :=
  match chars.dropWhile (· ≠ mark) with
  | _ :: after => some (chars.takeWhile (· ≠ mark), after)
  | [] => none

/-- Whether a character can be in the name of a variable. -/
def isNameChar (c : Char) : Bool := c.isAlphanum || c = '_'

/-- What a dollar sign and the characters behind it stand for, and what follows them. -/
def dollar? (quoted : Bool) : List Char → Option (Piece × List Char)
  | '\x7b' :: rest => (upTo '\x7d' rest).map fun (name, after) => (.value (String.ofList name) quoted, after)
  | '(' :: rest => (upToClose 0 rest).map fun (line, after) => (.output (String.ofList line) quoted, after)
  | c :: rest =>
    if "$?#@*!-".toList.contains c || c.isDigit then some (.value (String.singleton c) quoted, rest)
    else if c.isAlpha || c = '_' then
      let name := String.ofList ((c :: rest).takeWhile isNameChar)
      some (.value name quoted, (c :: rest).dropWhile isNameChar)
    else none
  | [] => none

/-- What a character with a meaning of its own and those behind it stand for, and what follows them. -/
def special? (quoted : Bool) : List Char → Option (Piece × List Char)
  | '$' :: rest => dollar? quoted rest
  | '\x60' :: rest => (upTo '\x60' rest).map fun (line, after) => (.output (String.ofList line) quoted, after)
  | _ => none

/-- A word that was being read, in front of what follows it. -/
def close (word? : Option Word) (tokens : List Token) : List Token :=
  match word? with
  | some pieces => .word pieces.reverse :: tokens
  | none => tokens

/-- The tokens of a row of characters; nothing if a quote is not closed. The number bounds the steps. -/
def tokens : Nat → Mode → Option Word → List Char → Option (List Token)
  | 0, _, _, _ => none
  | _ + 1, mode, word?, [] => if mode = .plain then some (close word? []) else none
  | steps + 1, .single, word?, c :: rest =>
    if c = '\'' then tokens steps .plain word? rest
    else tokens steps .single (some (addChar c true (word?.getD []))) rest
  | steps + 1, .double, word?, c :: rest =>
    let word := word?.getD []
    match c, rest with
    | '"', rest => tokens steps .plain word? rest
    | '\\', '\n' :: rest => tokens steps .double word? rest
    | '\\', d :: rest =>
      if "\"\\$\x60".toList.contains d then tokens steps .double (some (addChar d true word)) rest
      else tokens steps .double (some (addChar '\\' true word)) (d :: rest)
    | c, rest =>
      match special? true (c :: rest) with
      | some (piece, rest) => tokens steps .double (some (piece :: word)) rest
      | none => tokens steps .double (some (addChar c true word)) rest
  | steps + 1, .plain, word?, c :: rest =>
    let word := word?.getD []
    match c, rest with
    | '\'', rest => tokens steps .single (some (.text "" true :: word)) rest
    | '"', rest => tokens steps .double (some (.text "" true :: word)) rest
    | '\\', '\n' :: rest => tokens steps .plain word? rest
    | '\\', d :: rest => tokens steps .plain (some (addChar d true word)) rest
    | c, rest =>
      if c = ' ' || c = '\t' then (tokens steps .plain none rest).map (close word?)
      else if c = '#' && word?.isNone then tokens steps .plain none (rest.dropWhile (· ≠ '\n'))
      else
        match (if word?.isNone then numbered? (c :: rest) else none).or (separator? (c :: rest)) with
        | some (token, rest) => (tokens steps .plain none rest).map fun more => close word? (token :: more)
        | none =>
          match special? false (c :: rest) with
          | some (piece, rest) => tokens steps .plain (some (piece :: word)) rest
          | none => tokens steps .plain (some (addChar c false word)) rest

/-- The tokens of a text; nothing if a quote is not closed. -/
def tokensOf? (text : String) : Option (List Token) := tokens (text.length + 1) .plain none text.toList

end Stencil.Shell
