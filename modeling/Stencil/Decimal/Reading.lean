/-!
# Reading decimals

The text of a number is an optional sign, digits with at most one point among them, and an optional
exponent. At least one digit stands before the exponent; the point may come first or last. The value
is the nearest double.
-/

namespace Stencil.Decimal

/-- The value of a decimal digit. -/
def digit? (c : Char) : Option Nat :=
  if '0' ≤ c && c ≤ '9' then some (c.toNat - 48) else none

/-- Whether a character is one of the ten decimal digits of ASCII. -/
def isDigit (c : Char) : Bool := '0' ≤ c && c ≤ '9'

/-- The number that a row of digits stands for. -/
def ofDigits (digits : List Char) : Nat := digits.foldl (fun n c => 10 * n + (c.toNat - 48)) 0

/-- A number as it is written: the digits before the point, those after it, and the exponent. -/
structure Literal where
  negative : Bool
  whole : List Char
  fraction : List Char
  exponent : Int

/-- The nearest double to `± coefficient · 10^exponent`. Beyond the range of doubles the power is not
computed: the result is infinite or zero. -/
def toFloat (negative : Bool) (coefficient : Nat) (exponent : Int) : Float :=
  let magnitude : Float :=
    if coefficient = 0 then 0.0
    else
      let leading := exponent + ((Nat.toDigits 10 coefficient).length : Int)
      if leading > 400 then Float.ofBits 0x7ff0000000000000
      else if leading < -400 then 0.0
      else if exponent < 0 then Float.ofScientific coefficient true (-exponent).toNat
      else Float.ofScientific coefficient false exponent.toNat
  if negative then -magnitude else magnitude

/-- The nearest double to a written number. -/
def Literal.toFloat (l : Literal) : Float :=
  Decimal.toFloat l.negative (ofDigits (l.whole ++ l.fraction)) (l.exponent - l.fraction.length)

/-- Takes a sign off the front. -/
def takeSign : List Char → Bool × List Char
  | '-' :: rest => (true, rest)
  | '+' :: rest => (false, rest)
  | rest => (false, rest)

/-- Reads `e` or `E`, an optional sign and at least one digit, to the end. Nothing at all is the
exponent zero. -/
def exponent? : List Char → Option Int
  | [] => some 0
  | c :: rest =>
    if c = 'e' || c = 'E' then
      let (negative, digits) := takeSign rest
      if digits ≠ [] && digits.all isDigit then
        let n : Int := ofDigits digits
        some (if negative then -n else n)
      else none
    else none

/-- Reads the whole of a text as a decimal number. -/
def literal? (chars : List Char) : Option Literal :=
  let (negative, body) := takeSign chars
  let whole := body.takeWhile isDigit
  let rest := body.dropWhile isDigit
  let (fraction, tail) := match rest with
    | '.' :: after => (after.takeWhile isDigit, after.dropWhile isDigit)
    | _ => ([], rest)
  if whole.isEmpty && fraction.isEmpty then none
  else (exponent? tail).map fun e => { negative, whole, fraction, exponent := e }

/-- The double that a text stands for, if it is a decimal number. -/
def read? (chars : List Char) : Option Float := (literal? chars).map Literal.toFloat

end Stencil.Decimal
