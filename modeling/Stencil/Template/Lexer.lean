import Stencil.Decimal.Reading
import Stencil.Json.Reader
import Stencil.Template.Fault
import Stencil.Template.Token
import Stencil.Text.Blank

/-!
# Cutting a template into tokens

Outside of blocks, text goes on to the next opening mark. A minus at the inner side of a mark takes
the blanks on its outer side away; a plus there says nothing. Comments vanish, and a raw block is text
as a whole.

Inside a block the closing mark counts only when all brackets are closed, so that a map may end right
before it. A text may hold any mark between its quotes.

The tokens up to a fault are kept: what comes before it is held against the grammar first.
-/

namespace Stencil.Template

/-- The tokens of a text, and what stopped them. -/
structure Tokens where
  tokens : List Token
  cause? : Option Cause := none
  deriving Inhabited

namespace Lexer

/-- A mark that opens something. -/
inductive Opening where
  | expression
  | statement
  | comment
  deriving DecidableEq

/-- What stands in front of the next opening mark, and what behind it. -/
def cutAtOpening : List Char → List Char × Option (Opening × List Char)
  | '{' :: '{' :: rest => ([], some (.expression, rest))
  | '{' :: '%' :: rest => ([], some (.statement, rest))
  | '{' :: '#' :: rest => ([], some (.comment, rest))
  | c :: rest =>
    let (lead, found) := cutAtOpening rest
    (c :: lead, found)
  | [] => ([], none)

/-- What a sign at the inner side of a mark says about the blanks on the outer side. -/
inductive Trim where
  | keep
  | drop
  deriving DecidableEq

/-- Takes a sign off the front. -/
def takeSign : List Char → Trim × List Char
  | '-' :: rest => (.drop, rest)
  | '+' :: rest => (.keep, rest)
  | rest => (.keep, rest)

/-- Cuts at the first place where two characters stand. -/
def cutAtPair (a b : Char) : List Char → Option (List Char × List Char)
  | c :: d :: rest =>
    if c = a && d = b then some ([], rest)
    else (cutAtPair a b (d :: rest)).map fun (before, after) => (c :: before, after)
  | _ => none

/-- Whether a character is a blank of ASCII. -/
def isSpace (c : Char) : Bool := c = ' ' || c = '\t' || c = '\n' || c = '\x0c' || c = '\r'

/-- Drops the blanks of ASCII at the front. -/
def skipSpaces (chars : List Char) : List Char := chars.dropWhile isSpace

/-- Takes a word off the front. -/
def takeWord (word : List Char) (chars : List Char) : Option (List Char) :=
  if word.isPrefixOf chars then some (chars.drop word.length) else none

/-- The rest behind a statement that is one word only, and what its last sign says. -/
def takeTag (word : String) (chars : List Char) : Option (Trim × List Char) := do
  let rest ← takeWord word.toList (skipSpaces chars)
  let (trim, rest) := takeSign (skipSpaces rest)
  let rest ← takeWord ['%', '}'] rest
  some (trim, rest)

/-- The text of a raw block, whose front is read: the text, what the signs of the closing statement say
about the blanks before and behind it, and the rest. -/
def takeRaw : List Char → Option (List Char × Trim × Trim × List Char)
  | '{' :: '%' :: rest =>
    let (before, inner) := takeSign rest
    match takeTag "endraw" inner with
    | some (behind, rest) => some ([], before, behind, rest)
    | none => (takeRaw rest).map fun (raw, more) => ('{' :: '%' :: raw, more)
  | c :: rest => (takeRaw rest).map fun (raw, more) => (c :: raw, more)
  | [] => none

/-- Whether a character can start a name. -/
def isNameStart (c : Char) : Bool := c.isAlpha || c = '_'

/-- Whether a character can go on with a name. -/
def isNamePart (c : Char) : Bool := c.isAlphanum || c = '_'

/-! ## Numbers -/

/-- How far a number has been read. -/
inductive NumberPlace where
  | whole
  | fraction
  /-- Right behind the mark of an exponent. -/
  | mark
  | exponent
  deriving DecidableEq

/-- The characters of a decimal number at the front, and where it ended. Underscores may stand
between digits. -/
def takeNumber : NumberPlace → List Char → List Char × NumberPlace × List Char
  | place, [] => ([], place, [])
  | place, c :: rest =>
    let next? : Option NumberPlace :=
      if c = '_' then some place
      else if Decimal.isDigit c then some (if place = .mark then .exponent else place)
      else match place with
        | .whole => if c = '.' then some .fraction else if c = 'e' || c = 'E' then some .mark else none
        | .fraction => if c = 'e' || c = 'E' then some .mark else none
        | .mark => if c = '+' || c = '-' then some .exponent else none
        | .exponent => none
    match next? with
    | some next =>
      let (number, last, rest) := takeNumber next rest
      (c :: number, last, rest)
    | none => ([], place, c :: rest)

/-- The number that digits of a base stand for. -/
def ofDigits? (base : Nat) (digits : List Char) : Option Nat :=
  if digits.isEmpty then none
  else digits.foldlM (fun n c => (Json.hexValue? c).bind fun d =>
    if d < base then some (base * n + d) else none) 0

/-- The largest integer that can be written. -/
def maxInteger : Nat := 340282366920938463463374607431768211455

/-- An integer token. -/
def integerToken (base : Nat) (digits : List Char) : Except Cause Token :=
  match ofDigits? base digits with
  | some n => if n ≤ maxInteger then .ok (.integer n) else .error (.malformed "invalid integer")
  | none => .error (.malformed "invalid integer")

/-- Digits without the underscores between them; none may come last. -/
def withoutMarks (digits : List Char) : Except Cause (List Char) :=
  if digits.getLast? = some '_' then .error (.malformed "'_' may not occur at end of number")
  else .ok (digits.filter (· ≠ '_'))

/-- Reads a number whose base is given by two characters at the front. -/
def basedNumber (base : Nat) (chars : List Char) : Except Cause (Token × List Char) :=
  let inNumber (c : Char) : Bool :=
    Decimal.isDigit c || c = '_' || (base = 16 && (Json.hexValue? c).isSome)
  match withoutMarks (chars.takeWhile inNumber) with
  | .error cause => .error cause
  | .ok digits => (integerToken base digits).map fun token => (token, chars.dropWhile inNumber)

/-- Reads a number. -/
def number (chars : List Char) : Except Cause (Token × List Char) :=
  match chars with
  | '0' :: 'x' :: rest => basedNumber 16 rest
  | '0' :: 'X' :: rest => basedNumber 16 rest
  | '0' :: 'o' :: rest => basedNumber 8 rest
  | '0' :: 'O' :: rest => basedNumber 8 rest
  | '0' :: 'b' :: rest => basedNumber 2 rest
  | '0' :: 'B' :: rest => basedNumber 2 rest
  | _ =>
    let (digits, place, rest) := takeNumber .whole chars
    match withoutMarks digits with
    | .error cause => .error cause
    | .ok digits =>
      if place = .whole then (integerToken 10 digits).map fun token => (token, rest)
      else match Decimal.read? digits with
        | some x => .ok (.decimal x, rest)
        | none => .error (.malformed "invalid float")

/-! ## Texts in quotes -/

/-- The characters up to the closing quote, backslashes kept, and the rest behind it. -/
def takeQuoted (quote : Char) : List Char → Option (List Char × List Char)
  | [] => none
  | '\\' :: c :: rest => (takeQuoted quote rest).map fun (inner, rest) => ('\\' :: c :: inner, rest)
  | c :: rest =>
    if c = quote then some ([], rest)
    else (takeQuoted quote rest).map fun (inner, rest) => (c :: inner, rest)

/-- The number of up to `more` further octal digits. -/
def takeOctal : Nat → Nat → List Char → Nat × List Char
  | 0, n, chars => (n, chars)
  | more + 1, n, c :: rest =>
    if '0' ≤ c && c ≤ '7' then takeOctal more (8 * n + (c.toNat - 48)) rest else (n, c :: rest)
  | _ + 1, n, [] => (n, [])

/-- What the characters between quotes stand for. -/
def unescape : Nat → List Char → Option (List Char)
  | 0, _ => none
  | _ + 1, [] => some []
  | fuel + 1, '\\' :: c :: rest =>
    let single (d : Char) : Option (List Char) := (unescape fuel rest).map (d :: ·)
    match c with
    | '"' => single '"'
    | '\\' => single '\\'
    | '/' => single '/'
    | '\'' => single '\''
    | 'b' => single '\x08'
    | 'f' => single '\x0c'
    | 'n' => single '\n'
    | 'r' => single '\r'
    | 't' => single '\t'
    | 'u' => do
      let (d, rest) ← Json.unicodeEscape? rest
      (unescape fuel rest).map (d :: ·)
    | 'x' =>
      match rest with
      | a :: b :: rest => do
        let high ← Json.hexValue? a
        let low ← Json.hexValue? b
        (unescape fuel rest).map (Char.ofNat (16 * high + low) :: ·)
      | _ => none
    | _ =>
      if '0' ≤ c && c ≤ '7' then
        let (n, rest) := takeOctal 2 (c.toNat - 48) rest
        if n < 256 then (unescape fuel rest).map (Char.ofNat n :: ·) else none
      else none
  | _ + 1, ['\\'] => none
  | fuel + 1, c :: rest => (unescape fuel rest).map (c :: ·)

/-- Reads a text in quotes, the opening one read. -/
def quoted (quote : Char) (chars : List Char) : Except Cause (Token × List Char) :=
  match takeQuoted quote chars with
  | none => .error (.malformed "unexpected end of string")
  | some (inner, rest) =>
    match unescape (inner.length + 1) inner with
    | some value => .ok (.text (String.ofList value), rest)
    | none => .error .malformedEscape

/-! ## Inside a block -/

/-- The marks of two characters. -/
def pairs : List (List Char) :=
  [['/', '/'], ['*', '*'], ['=', '='], ['!', '='], ['>', '='], ['<', '=']]

/-- The marks of one character. -/
def singles : List Char :=
  ['+', '-', '*', '/', '%', '.', ',', ':', '~', '|', '=', '>', '<', '(', ')', '[', ']', '{', '}']

/-- Reads the token at the front of the inside of a block. -/
def inner (chars : List Char) : Except Cause (Token × List Char) :=
  match chars with
  | [] => .error (.malformed "unexpected end of input")
  | c :: rest =>
    if pairs.contains (chars.take 2) then .ok (.mark (String.ofList (chars.take 2)), chars.drop 2)
    else if c = '\'' || c = '"' then quoted c rest
    else if singles.contains c then .ok (.mark (String.singleton c), rest)
    else if Decimal.isDigit c then number chars
    else if isNameStart c then
      .ok (.name (String.ofList (chars.takeWhile isNamePart)), chars.dropWhile isNamePart)
    else .error (.malformed "unexpected character")

/-- By how much a token changes the number of open brackets. -/
def bracketChange : Token → Int
  | .mark m =>
    if m = "(" || m = "[" || m = "\x7b" then 1
    else if m = ")" || m = "]" || m = "\x7d" then -1
    else 0
  | _ => 0

/-- The rest behind a closing mark at the front, and what the sign before it says. -/
def closing? (close : List Char) (chars : List Char) : Option (Trim × List Char) :=
  let (trim, rest) := takeSign chars
  (takeWord close rest).map fun rest => (trim, rest)

/-- Where the text is being read. -/
inductive Place where
  /-- Outside of blocks; the sign tells whether blanks at the front are dropped. -/
  | outside (trim : Trim)
  /-- In an expression or a statement, with so many brackets open. -/
  | inside (expression : Bool) (brackets : Int)

/-- A token in front of others. -/
def emit (token : Token) (rest : Tokens) : Tokens := { rest with tokens := token :: rest.tokens }

/-- Text in front of other tokens, unless there is none. -/
def emitData (chars : List Char) (rest : Tokens) : Tokens :=
  if chars.isEmpty then rest else emit (.data (String.ofList chars)) rest

/-- Cuts a text from a place on. Every step takes at least one character. -/
def scan : Nat → Place → List Char → Tokens
  | 0, _, _ => { tokens := [] }
  | fuel + 1, .outside trim, chars =>
    let chars := if trim = .drop then Text.trimLeft chars else chars
    match cutAtOpening chars with
    | (lead, none) => emitData lead { tokens := [] }
    | (lead, some (opening, rest)) =>
      let (before, inside) := takeSign rest
      let lead := if before = .drop then Text.trimRight lead else lead
      emitData lead <| match opening with
        | .expression => emit .openExpression (scan fuel (.inside true 0) inside)
        | .comment =>
          match cutAtPair '#' '}' inside with
          | some (comment, rest) =>
            let behind := if comment.getLast? = some '-' then Trim.drop else .keep
            scan fuel (.outside behind) rest
          | none => { tokens := [], cause? := some (.malformed "unexpected end of comment") }
        | .statement =>
          match takeTag "raw" inside with
          | some (front, rest) =>
            match takeRaw rest with
            | some (raw, last, behind, rest) =>
              let raw := if front = .drop then Text.trimLeft raw else raw
              let raw := if last = .drop then Text.trimRight raw else raw
              emitData raw (scan fuel (.outside behind) rest)
            | none => { tokens := [], cause? := some (.malformed "unexpected end of raw block") }
          | none => emit .openStatement (scan fuel (.inside false 0) inside)
  | fuel + 1, .inside expression brackets, chars =>
    match skipSpaces chars with
    | [] => { tokens := [] }
    | chars =>
      let close := if expression then ['}', '}'] else ['%', '}']
      match if brackets = 0 then closing? close chars else none with
      | some (trim, rest) =>
        emit (if expression then .closeExpression else .closeStatement)
          (scan fuel (.outside trim) rest)
      | none =>
        match inner chars with
        | .ok (token, rest) =>
          emit token (scan fuel (.inside expression (brackets + bracketChange token)) rest)
        | .error cause => { tokens := [], cause? := some cause }

end Lexer

/-- Cuts a template into tokens. -/
def Tokens.ofString (text : String) : Tokens :=
  let chars := text.toList
  Lexer.scan (2 * chars.length + 2) (.outside .keep) chars

end Stencil.Template
