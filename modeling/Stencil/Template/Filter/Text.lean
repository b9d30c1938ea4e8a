import Stencil.Spelling
import Stencil.Template.Arguments
import Stencil.Text.Blank
import Stencil.Text.Letter
import Stencil.Text.Split

/-!
# Filters on text
-/

namespace Stencil.Template.Filter

/-- Whether a character is one of the marks of ASCII. -/
def isMark (c : Char) : Bool :=
  let n := c.toNat
  (33 ≤ n && n ≤ 47) || (58 ≤ n && n ≤ 64) || (91 ≤ n && n ≤ 96) || (123 ≤ n && n ≤ 126)

/-- Puts the letters that start words into upper case and all others into lower case. -/
def titleFrom (fresh : Bool) : List Char → List Char
  | [] => []
  | c :: rest =>
    if isMark c || Text.isBlank c then c :: titleFrom true rest
    else if fresh then Text.upperChar c ++ titleFrom false rest
    else Text.lowerChar c ++ titleFrom false rest

/-- A text with its words capitalised. -/
def titleCase (s : String) : String := String.ofList (titleFrom true s.toList)

/-- A text with its first letter in upper case and all others in lower case. -/
def capitalise (s : String) : String :=
  match s.toList with
  | [] => ""
  | c :: rest => String.ofList (Text.upperChar c) ++ Text.lower (String.ofList rest)

/-- The parts of a text between the places where another stands. -/
def splitAt (mark : List Char) : Nat → List Char → List Char → List (List Char)
  | 0, before, chars => [before.reverse ++ chars]
  | _ + 1, before, [] => [before.reverse]
  | fuel + 1, before, c :: rest =>
    if mark.isPrefixOf (c :: rest) then
      before.reverse :: splitAt mark fuel [] ((c :: rest).drop mark.length)
    else splitAt mark fuel (c :: before) rest

/-- The parts of a text between the places where another stands; nothing stands between all
characters and at both ends. -/
def splitBy (mark chars : List Char) : List (List Char) :=
  if mark.isEmpty then [] :: chars.map (fun c => [c]) ++ [[]]
  else splitAt mark (chars.length + 1) [] chars

/-- Puts the parts of a text together. -/
def joinParts (mark : List Char) : List (List Char) → List Char
  | [] => []
  | [part] => part
  | part :: parts => part ++ mark ++ joinParts mark parts

/-- A text with another in the place of a part of it. -/
def replaceAll (part other : List Char) (chars : List Char) : List Char :=
  joinParts other (splitBy part chars)

/-- The first parts of a text, and all that is left as the last one. -/
def splitUpTo (mark : List Char) (most : Nat) (chars : List Char) : List (List Char) :=
  let parts := splitBy mark chars
  if parts.length ≤ most then parts
  else parts.take (most - 1) ++ [joinParts mark (parts.drop (most - 1))]

/-- The parts of a text between blanks, at most so many. -/
def splitBlanks : Nat → List Char → List Char → List (List Char)
  | most, before, [] => if most = 0 then [] else [before.reverse]
  | most, before, c :: rest =>
    if most ≤ 1 then [before.reverse ++ c :: rest]
    else if Text.isBlank c then before.reverse :: splitBlanks (most - 1) [] rest
    else splitBlanks most (c :: before) rest

/-- The words of a text: what stands between blanks. -/
def wordsFrom : List Char → List Char → List (List Char)
  | before, [] => if before.isEmpty then [] else [before.reverse]
  | before, c :: rest =>
    if Text.isBlank c then
      if before.isEmpty then wordsFrom [] rest else before.reverse :: wordsFrom [] rest
    else wordsFrom (c :: before) rest

/-- A line without the carriage return at its end. -/
def withoutReturn (line : List Char) : List Char :=
  if line.getLast? = some '\r' then line.dropLast else line

/-- The lines of a text. -/
def lineRows (chars : List Char) : List (List Char) :=
  match (Text.splitOn '\n' chars).reverse with
  | [] => []
  | last :: others =>
    let ended := others.reverse.map withoutReturn
    if last.isEmpty then ended else ended ++ [last]

/-- A text without a line break at its end. -/
def withoutBreak (chars : List Char) : List Char :=
  let chars := if chars.getLast? = some '\n' then chars.dropLast else chars
  withoutReturn chars

/-- A text with its lines moved to the right. -/
def indentLines (width : Nat) (first blank : Bool) (chars : List Char) : List Char :=
  let margin := List.replicate width ' '
  let move (line : List Char) : List Char :=
    if line.isEmpty then (if blank then margin else []) else margin ++ line
  let lines := Text.splitOn '\n' (withoutBreak chars)
  let moved := match lines with
    | [] => []
    | line :: rest => (if first then move line else line) :: rest.map move
  withoutBreak (moved.flatMap fun line => line ++ ['\n'])

/-- Drops certain characters at both ends. -/
def trimChars (marks : List Char) (chars : List Char) : List Char :=
  ((chars.dropWhile marks.contains).reverse.dropWhile marks.contains).reverse

/-- Whether a byte stands for itself in the address of a page. -/
def isPlainByte (b : UInt8) : Bool :=
  let c := Char.ofNat b.toNat
  b.toNat < 128 && (c.isAlphanum || c = '/' || c = '.' || c = '-' || c = '_')

/-- An upper-case hexadecimal digit. -/
def upperHex (n : Nat) : Char := if n < 10 then Char.ofNat (48 + n) else Char.ofNat (55 + n)

/-- A text as a part of the address of a page. -/
def percentEncode (s : String) : String :=
  String.ofList (s.toUTF8.toList.flatMap fun b =>
    if isPlainByte b then [Char.ofNat b.toNat]
    else ['%', upperHex (b.toNat / 16), upperHex (b.toNat % 16)])

/-- A datum as a part of the address of a page: a map as a query. -/
def urlText (d : Datum) : String :=
  let query (entries : List (Datum × Datum)) : String :=
    let shown := entries.filter fun entry => entry.2.kind ≠ .none && entry.2.kind ≠ .undefined
    "&".intercalate (shown.map fun entry =>
      percentEncode entry.1.display ++ "=" ++ percentEncode entry.2.display)
  match d with
  | .map entries => query entries
  | .named entries => query (entries.map fun entry => (Datum.ofString entry.1, entry.2))
  | .none => ""
  | .undefined => ""
  | d => percentEncode d.display

open Reading in
/-- The filters on text. -/
def text? (name : String) : Option (List Datum → Except Cause Datum) :=
  let onShown (f : String → String) : Option (List Datum → Except Cause Datum) :=
    some <| run do
      let s ← required asShown
      pure (Datum.ofString (f s))
  let onText (f : String → String) : Option (List Datum → Except Cause Datum) :=
    some <| run do
      let s ← required asText
      pure (Datum.ofString (f s))
  let rows (parts : List (List Char)) : Datum :=
    .stream (parts.map fun part => Datum.ofString (String.ofList part)) false
  match name with
  | "upper" => onShown Text.upper
  | "lower" => onShown Text.lower
  | "title" => onShown titleCase
  | "capitalize" => onShown capitalise
  | "camel_case" => onText Spelling.camel
  | "pascal_case" => onText Spelling.pascal
  | "snake_case" => onText Spelling.snake
  | "screaming_snake_case" => onText Spelling.screamingSnake
  | "kebab_case" => onText Spelling.kebab
  | "train_case" => onText Spelling.train
  | "title_case" => onText Spelling.title
  | "replace" => some <| run do
      let s ← required asShown
      let part ← required asShown
      let other ← required asShown
      pure (Datum.ofString (String.ofList (replaceAll part.toList other.toList s.toList)))
  | "trim" => some <| run do
      let s ← required asShown
      let marks? ← optional asShown
      pure <| Datum.ofString <| match marks? with
        | some marks => String.ofList (trimChars marks.toList s.toList)
        | none => Text.trim s
  | "split" => some <| run do
      let s ← required asText
      let mark? ← optional asText
      let most? ← optional (asInt (-9223372036854775808) 9223372036854775807)
      let most? := most?.bind fun n => if 0 ≤ n then some (n.toNat + 1) else none
      pure <| rows <| match mark?, most? with
        | none, none => wordsFrom [] s.toList
        | some mark, none => splitBy mark.toList s.toList
        | none, some most => splitBlanks most [] s.toList
        | some mark, some most => splitUpTo mark.toList most s.toList
  | "lines" => some <| run do
      let s ← required asText
      pure (rows (lineRows s.toList))
  | "indent" => some <| run do
      let s ← required asShown
      let width ← required asCount
      let first ← optional asBool
      let blank ← optional asBool
      pure (Datum.ofString (String.ofList
        (indentLines width (first.getD false) (blank.getD false) s.toList)))
  | "urlencode" => some <| run do
      let d ← datum
      pure (Datum.ofString (urlText d))
  | "safe" => some <| run do
      let s ← required asShown
      pure (.text s true)
  | "string" => some <| run do
      let d ← datum
      pure <| match d with
        | .text s safe => .text s safe
        | d => Datum.ofString d.display
  | _ => none

end Stencil.Template.Filter
