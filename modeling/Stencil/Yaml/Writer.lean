import Stencil.Decimal.Layout
import Stencil.Json.Writer
import Stencil.Yaml.Character
import Stencil.Yaml.Scalar

/-!
# Values as YAML blocks

Lists and maps are written in block form, one entry a line; a list that is the value of a key is not
indented below the key, everything else by two. Empty collections are `[]` and `{}`. Lines are never
folded.

Text is written plainly where it reads back as the same text. Otherwise it is put in single quotes,
or in double quotes if it holds something that only an escape can show; text of several lines becomes
a literal block. A key that is longer than 128 bytes or has several lines is written after a question
mark.

The pen knows the column it stands in, and whether only indentation or a blank came before: this is
what decides where blanks and line ends go.
-/

namespace Stencil.Yaml

/-- Decimals in a block are written out from `0.00001` to below `10^16`. -/
def decimalLayout : Decimal.Layout := { from? := some (-5), to? := some 15, plusSign := false }

/-- How a scalar is written. -/
inductive Style where
  | plain
  | singleQuoted
  | doubleQuoted
  | literal
  deriving DecidableEq

/-- What the characters of a text allow. -/
structure Traits where
  /-- Has a line end. -/
  multiline : Bool
  /-- Can be written without quotes outside brackets. -/
  plainAllowed : Bool
  singleQuotedAllowed : Bool
  literalAllowed : Bool

/-- Characters that cannot start a plain scalar. -/
def isIndicator (c : Char) : Bool :=
  "#,[]\x7b\x7d&*!|>'\"%@`".toList.contains c

/-- Whether a mark in the text would be read as part of the notation. -/
def hasIndicators (chars : List Char) : Bool :=
  let marker := "---".toList.isPrefixOf chars || "...".toList.isPrefixOf chars
  let atStart := match chars with
    | c :: rest =>
      isIndicator c || ((c = '?' || c = ':' || c = '-') && isBlankOrEnd rest.head?)
    | [] => false
  let rec inside (before : Char) : List Char → Bool
    | [] => false
    | c :: rest =>
      (c = ':' && isBlankOrEnd rest.head?) || (c = '#' && isBlankOrEnd (some before))
        || inside c rest
  marker || atStart || (match chars with
    | c :: rest => inside c rest
    | [] => false)

/-- Whether the first list's condition is met by a character and the second by the one after it. -/
def followedBy (p q : Char → Bool) : List Char → Bool
  | a :: b :: rest => (p a && q b) || followedBy p q (b :: rest)
  | _ => false

/-- What the characters of a text allow. -/
def Traits.ofChars (chars : List Char) : Traits :=
  let isSpace (c : Char) : Bool := c = ' '
  let starts (p : Char → Bool) : Bool := chars.head?.any p
  let ends (p : Char → Bool) : Bool := chars.getLast?.any p
  let special := chars.any fun c => !isPrintable c
  let breaks := chars.any isBreak
  let spaceBreak := followedBy isSpace isBreak chars
  let breakSpace := followedBy isBreak isSpace chars
  let opaqueText := spaceBreak || special
  if chars.isEmpty then
    { multiline := false, plainAllowed := true, singleQuotedAllowed := true,
      literalAllowed := false }
  else
    { multiline := breaks
      plainAllowed := !(starts isSpace || starts isBreak || ends isSpace || ends isBreak
        || opaqueText || breaks || hasIndicators chars)
      singleQuotedAllowed := !(breakSpace || opaqueText)
      literalAllowed := !(ends isSpace || opaqueText) }

/-- The style of a text, as a key that stands on one line with its value or anywhere else. -/
def Style.ofText (asKey : Bool) (s : String) : Style :=
  let traits := Traits.ofChars s.toList
  let wanted : Style :=
    if s.toList.contains '\n' then .literal
    else if Plain.isText s then .plain
    else .singleQuoted
  let wanted := if asKey && traits.multiline then .doubleQuoted else wanted
  let wanted :=
    if wanted = .plain && (!traits.plainAllowed || (s.isEmpty && asKey)) then .singleQuoted
    else wanted
  let wanted :=
    if wanted = .singleQuoted && !traits.singleQuotedAllowed then .doubleQuoted else wanted
  if wanted = .literal && (!traits.literalAllowed || asKey) then .doubleQuoted else wanted

/-- Where the writing stands. -/
structure Pen where
  /-- What is written, last character first. -/
  written : List Char
  column : Nat
  /-- Whether a blank, or nothing, comes before. -/
  afterBlank : Bool
  /-- Whether only indentation and marks that count as such come before on the line. -/
  afterIndent : Bool

namespace Pen

/-- Writes a character that does not end the line. -/
def put (pen : Pen) (c : Char) : Pen :=
  { pen with written := c :: pen.written, column := pen.column + 1 }

/-- Writes characters that do not end the line. -/
def puts (pen : Pen) (chars : List Char) : Pen := chars.foldl put pen

/-- Ends the line. -/
def newline (pen : Pen) : Pen := { pen with written := '\n' :: pen.written, column := 0 }

/-- Goes to an indentation, on a new line unless this one is still blank up to there. -/
def indentTo (pen : Pen) (indent : Nat) : Pen :=
  let fresh := !pen.afterIndent || indent < pen.column || (pen.column = indent && !pen.afterBlank)
  let pen := if fresh then pen.newline else pen
  { pen.puts (List.replicate (indent - pen.column) ' ') with afterBlank := true, afterIndent := true }

/-- Writes a mark of the notation. -/
def mark (pen : Pen) (chars : List Char) (needsBlank isIndent : Bool) : Pen :=
  let pen := if needsBlank && !pen.afterBlank then pen.put ' ' else pen
  { pen.puts chars with afterBlank := false, afterIndent := pen.afterIndent && isIndent }

/-- Writes text without quotes. -/
def plain (pen : Pen) (chars : List Char) : Pen :=
  let pen := if !pen.afterBlank && !chars.isEmpty then pen.put ' ' else pen
  { pen.puts chars with afterBlank := false, afterIndent := false }

/-- Writes the inside of single quotes. A quote is doubled; a line goes on at the indentation. -/
def singleQuotedBody (indent : Nat) : Bool → List Char → Pen → Pen
  | afterBreak, [], pen => if afterBreak then pen.indentTo indent else pen
  | afterBreak, c :: rest, pen =>
    if isBreak c then
      let pen := { pen with written := c :: pen.written, column := 0, afterIndent := true }
      singleQuotedBody indent true rest pen
    else
      let pen := if afterBreak then pen.indentTo indent else pen
      let pen := if c = '\'' then (pen.put '\'').put '\'' else pen.put c
      singleQuotedBody indent false rest
        (if c = ' ' then pen else { pen with afterIndent := false })

/-- The escape of a character in double quotes, or the character itself. -/
def escape (c : Char) : List Char :=
  let n := c.toNat
  let hex (width : Nat) : List Char :=
    let digits := (Nat.toDigits 16 n).map Char.toUpper
    List.replicate (width - digits.length) '0' ++ digits
  if isPrintable c && !isBreak c && c ≠ '"' && c ≠ '\\' then [c]
  else '\\' :: match n with
    | 0x00 => ['0']
    | 0x07 => ['a']
    | 0x08 => ['b']
    | 0x09 => ['t']
    | 0x0a => ['n']
    | 0x0b => ['v']
    | 0x0c => ['f']
    | 0x0d => ['r']
    | 0x1b => ['e']
    | 0x22 => ['"']
    | 0x5c => ['\\']
    | 0x85 => ['N']
    | 0x2028 => ['L']
    | 0x2029 => ['P']
    | _ => if n ≤ 0xff then 'x' :: hex 2 else if n ≤ 0xffff then 'u' :: hex 4 else 'U' :: hex 8

/-- The marks behind the bar of a literal block: its indentation if the text starts with a blank, and
what becomes of the line ends at its end. -/
def literalHints (chars : List Char) : List Char :=
  let start := match chars with
    | c :: _ => if c = ' ' || isBreak c then ['2'] else []
    | [] => []
  let stop := match chars.reverse with
    | [] => ['-']
    | last :: before =>
      if !isBreak last then ['-']
      else match before with
        | [] => ['+']
        | c :: _ => if isBreak c then ['+'] else []
  start ++ stop

/-- Writes the lines of a literal block. -/
def literalBody (indent : Nat) : Bool → List Char → Pen → Pen
  | _, [], pen => pen
  | afterBreak, c :: rest, pen =>
    if isBreak c then
      literalBody indent true rest
        { pen with written := c :: pen.written, column := 0, afterIndent := true }
    else
      let pen := if afterBreak then pen.indentTo indent else pen
      literalBody indent false rest { pen.put c with afterIndent := false }

/-- Writes a text. The indentation is that of its further lines. -/
def text (pen : Pen) (indent : Nat) (asKey : Bool) (s : String) : Pen :=
  let chars := s.toList
  match Style.ofText asKey s with
  | .plain => pen.plain chars
  | .singleQuoted =>
    let pen := singleQuotedBody indent false chars (pen.mark ['\''] true false)
    { pen.mark ['\''] false false with afterBlank := false, afterIndent := false }
  | .doubleQuoted =>
    let pen := (pen.mark ['"'] true false).puts (chars.flatMap escape)
    { pen.mark ['"'] false false with afterBlank := false, afterIndent := false }
  | .literal =>
    let pen := (pen.mark ['|'] true false).puts (literalHints chars)
    literalBody indent true chars { pen.newline with afterIndent := true, afterBlank := true }

mutual

/-- Writes a value. The indentation is that of the collection around it; a list that follows a key
on its line keeps it. -/
def value (pen : Pen) (indent : Option Nat) (afterKey : Bool) : Value → Pen
  | .null => pen.plain "null".toList
  | .bool b => pen.plain (if b then "true" else "false").toList
  | .integer n => pen.plain (Json.integerText n).toList
  | .decimal x => pen.plain (decimalLayout.render x).toList
  | .text s => pen.text (match indent with | some n => n + 2 | none => 2) false s
  | .list [] => pen.mark ['[', ']'] true false
  | .map [] => pen.mark ['{', '}'] true false
  | .list (item :: rest) =>
    let inner := match indent with
      | none => 0
      | some n => if afterKey && !pen.afterIndent then n else n + 2
    items pen inner (item :: rest)
  | .map (entry :: rest) =>
    entries pen (match indent with | none => 0 | some n => n + 2) (entry :: rest)

/-- Writes the items of a list, each after a hyphen. -/
def items (pen : Pen) (indent : Nat) : List Value → Pen
  | [] => pen
  | item :: rest =>
    let pen := (pen.indentTo indent).mark ['-'] true true
    items (value pen (some indent) false item) indent rest

/-- Writes the entries of a map. -/
def entries (pen : Pen) (indent : Nat) : List (String × Value) → Pen
  | [] => pen
  | (key, item) :: rest =>
    let pen := pen.indentTo indent
    let simple := !(Traits.ofChars key.toList).multiline && key.utf8ByteSize ≤ 128
    let pen :=
      if simple then (pen.text (indent + 2) true key).mark [':'] false false
      else
        let pen := (pen.mark ['?'] true true).text (indent + 2) false key
        (pen.indentTo indent).mark [':'] true true
    entries (value pen (some indent) true item) indent rest

end

end Pen

/-- The YAML document of a value. -/
def render (v : Value) : String :=
  let start : Pen := { written := [], column := 0, afterBlank := true, afterIndent := true }
  String.ofList ((start.value none false v).indentTo 0).written.reverse

end Stencil.Yaml
