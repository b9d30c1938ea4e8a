import Stencil.Value
import Stencil.Decimal.Reading

/-!
# Reading JSON text

The whole of a text is one value, blanks around it allowed. A number with neither point nor exponent
that fits into 64 bits is an integer; any other number is a decimal, and so is minus zero. Of several
entries with one key the last counts.

Reading goes down by the number of characters left, which every call makes smaller.
-/

namespace Stencil.Json

/-- Blanks between tokens. -/
def isBlank (c : Char) : Bool := c = ' ' || c = '\n' || c = '\r' || c = '\t'

/-- Drops the blanks at the front. -/
def skipBlanks (chars : List Char) : List Char := chars.dropWhile isBlank

/-- The value of a hexadecimal digit. -/
def hexValue? (c : Char) : Option Nat :=
  if '0' ≤ c && c ≤ '9' then some (c.toNat - 48)
  else if 'a' ≤ c && c ≤ 'f' then some (c.toNat - 87)
  else if 'A' ≤ c && c ≤ 'F' then some (c.toNat - 55)
  else none

/-- Four hexadecimal digits. -/
def unit? : List Char → Option (Nat × List Char)
  | a :: b :: c :: d :: rest => do
    let a ← hexValue? a
    let b ← hexValue? b
    let c ← hexValue? c
    let d ← hexValue? d
    some (((a * 16 + b) * 16 + c) * 16 + d, rest)
  | _ => none

/-- The character of a `\u` escape, whose four digits come next; one above `0xffff` takes two. -/
def unicodeEscape? (chars : List Char) : Option (Char × List Char) := do
  let (high, rest) ← unit? chars
  if 0xd800 ≤ high && high < 0xdc00 then
    match rest with
    | '\\' :: 'u' :: after =>
      let (low, rest) ← unit? after
      if 0xdc00 ≤ low && low < 0xe000 then
        some (Char.ofNat (0x10000 + (high - 0xd800) * 0x400 + (low - 0xdc00)), rest)
      else none
    | _ => none
  else if 0xdc00 ≤ high && high < 0xe000 then none
  else some (Char.ofNat high, rest)

/-- The rest of a text whose opening quote has been read. -/
def quoted? : Nat → List Char → List Char → Option (String × List Char)
  | 0, _, _ => none
  | fuel + 1, acc, chars =>
    match chars with
    | [] => none
    | '"' :: rest => some (String.ofList acc.reverse, rest)
    | '\\' :: 'u' :: rest =>
      match unicodeEscape? rest with
      | some (c, rest) => quoted? fuel (c :: acc) rest
      | none => none
    | '\\' :: c :: rest =>
      match c with
      | '"' => quoted? fuel ('"' :: acc) rest
      | '\\' => quoted? fuel ('\\' :: acc) rest
      | '/' => quoted? fuel ('/' :: acc) rest
      | 'n' => quoted? fuel ('\n' :: acc) rest
      | 'r' => quoted? fuel ('\r' :: acc) rest
      | 't' => quoted? fuel ('\t' :: acc) rest
      | 'b' => quoted? fuel ('\x08' :: acc) rest
      | 'f' => quoted? fuel ('\x0c' :: acc) rest
      | _ => none
    | c :: rest => if c.toNat < 32 then none else quoted? fuel (c :: acc) rest

/-- Characters that a number is made of. -/
def isNumberChar (c : Char) : Bool :=
  Decimal.isDigit c || c = '-' || c = '+' || c = '.' || c = 'e' || c = 'E'

/-- The value of a number's text. -/
def number? (chars : List Char) : Option Value := do
  let l ← Decimal.literal? chars
  let plain := chars.all fun c => Decimal.isDigit c || c = '-'
  let n : Int := Decimal.ofDigits l.whole
  let n := if l.negative then -n else n
  if plain && !(l.negative && n = 0) && Value.minInteger ≤ n && n ≤ Value.maxInteger then
    some (.integer n)
  else some (.decimal l.toFloat)

mutual

/-- A value at the front, and what follows it. -/
def value? : Nat → List Char → Option (Value × List Char)
  | 0, _ => none
  | fuel + 1, chars =>
    match skipBlanks chars with
    | 'n' :: 'u' :: 'l' :: 'l' :: rest => some (.null, rest)
    | 't' :: 'r' :: 'u' :: 'e' :: rest => some (.bool true, rest)
    | 'f' :: 'a' :: 'l' :: 's' :: 'e' :: rest => some (.bool false, rest)
    | '"' :: rest => (quoted? (rest.length + 1) [] rest).map fun (s, rest) => (.text s, rest)
    | '[' :: rest =>
      match skipBlanks rest with
      | ']' :: rest => some (.list [], rest)
      | rest => (items? fuel [] rest).map fun (items, rest) => (.list items, rest)
    | '{' :: rest =>
      match skipBlanks rest with
      | '}' :: rest => some (.map [], rest)
      | rest => (entries? fuel [] rest).map fun (entries, rest) => (Value.ofEntries entries, rest)
    | chars =>
      (number? (chars.takeWhile isNumberChar)).map fun v => (v, chars.dropWhile isNumberChar)

/-- The items of a list up to its closing bracket, at least one. -/
def items? : Nat → List Value → List Char → Option (List Value × List Char)
  | 0, _, _ => none
  | fuel + 1, acc, chars =>
    match value? fuel chars with
    | none => none
    | some (item, rest) =>
      match skipBlanks rest with
      | ',' :: rest => items? fuel (item :: acc) rest
      | ']' :: rest => some ((item :: acc).reverse, rest)
      | _ => none

/-- The entries of a map up to its closing brace, at least one. -/
def entries? : Nat → Entries Value → List Char → Option (Entries Value × List Char)
  | 0, _, _ => none
  | fuel + 1, acc, chars =>
    match skipBlanks chars with
    | '"' :: rest =>
      match quoted? (rest.length + 1) [] rest with
      | none => none
      | some (key, rest) =>
        match skipBlanks rest with
        | ':' :: rest =>
          match value? fuel rest with
          | none => none
          | some (item, rest) =>
            match skipBlanks rest with
            | ',' :: rest => entries? fuel ((key, item) :: acc) rest
            | '}' :: rest => some (((key, item) :: acc).reverse, rest)
            | _ => none
        | _ => none
    | _ => none

end

/-- The value that the whole of a text stands for. -/
def parse? (text : String) : Option Value :=
  let chars := text.toList
  match value? (chars.length + 1) chars with
  | some (v, rest) => if (skipBlanks rest).isEmpty then some v else none
  | none => none

end Stencil.Json
