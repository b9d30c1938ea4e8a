import Stencil.Value
import Stencil.Decimal.Layout

/-!
# Values as JSON text

Compact text: no blanks, the entries of a map in the order of their keys, every character as itself
except quotes, backslashes and control characters. A decimal always shows a point or an exponent, so
that it reads back as a decimal.
-/

namespace Stencil.Json

/-- Decimals are written out from `0.00001` to below `10^16`, and with a signed exponent beyond. -/
def decimalLayout : Decimal.Layout := { from? := some (-5), to? := some 15, plusSign := true }

/-- A digit of a character code, in lower case. -/
def hexDigit (n : Nat) : Char := if n < 10 then Char.ofNat (48 + n) else Char.ofNat (87 + n)

/-- The written form of one character inside quotes. -/
def escapeChar (c : Char) : List Char :=
  if c = '"' then ['\\', '"']
  else if c = '\\' then ['\\', '\\']
  else if c = '\n' then ['\\', 'n']
  else if c = '\r' then ['\\', 'r']
  else if c = '\t' then ['\\', 't']
  else if c = '\x08' then ['\\', 'b']
  else if c = '\x0c' then ['\\', 'f']
  else if c.toNat < 32 then ['\\', 'u', '0', '0', hexDigit (c.toNat / 16), hexDigit (c.toNat % 16)]
  else [c]

/-- A text between quotes. -/
def quote (s : String) : String := String.ofList ('"' :: s.toList.flatMap escapeChar ++ ['"'])

/-- The text of an integer. -/
def integerText (n : Int) : String :=
  if n < 0 then "-" ++ Decimal.natDigits n.natAbs else Decimal.natDigits n.natAbs

mutual

/-- The JSON text of a value. -/
def render : Value → String
  | .null => "null"
  | .bool b => if b then "true" else "false"
  | .integer n => integerText n
  | .decimal x => decimalLayout.render x
  | .text s => quote s
  | .list items => "[" ++ renderItems items ++ "]"
  | .map entries => "\x7b" ++ renderEntries entries ++ "\x7d"

/-- The items of a list, commas between them. -/
def renderItems : List Value → String
  | [] => ""
  | [item] => render item
  | item :: rest => render item ++ "," ++ renderItems rest

/-- The entries of a map, commas between them. -/
def renderEntries : List (String × Value) → String
  | [] => ""
  | [(key, item)] => quote key ++ ":" ++ render item
  | (key, item) :: rest => quote key ++ ":" ++ render item ++ "," ++ renderEntries rest

end

end Stencil.Json
