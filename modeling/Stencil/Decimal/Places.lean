import Stencil.Decimal.Layout

/-!
# Numbers with a fixed number of places

The value of a double is exact, so rounding it to a number of places is a division of natural numbers; what
lies in the middle goes to the even neighbour.
-/

namespace Stencil.Decimal

/-- A quotient rounded to the nearest number, the even one of two. -/
def roundQuotient (a b : Nat) : Nat :=
  let q := a / b
  let twice := 2 * (a % b)
  if twice < b || (twice = b && q % 2 = 0) then q else q + 1

/-- A finite double without its sign in units of `10^k`, rounded. -/
def unitsOfTen (x : Float) (k : Int) : Nat :=
  let u := Units.ofFloat x
  let (grid, unit) := scales k u.exponent
  roundQuotient (u.units * unit) grid

/-- The digits of a finite double without its sign, with so many places behind the point. -/
def fixedPlaces (places : Nat) (x : Float) : String :=
  positional { from? := none, to? := none, plusSign := false, pointZero := false }
    { coefficient := unitsOfTen x (-(places : Int)), exponent := -(places : Int) }

/-- So many digits of a finite double without its sign, and the power of ten of the first. -/
def significant (digits : Nat) (x : Float) : Nat × Int :=
  if x == 0.0 then (0, 0)
  else
    let leading := (Binary.ofBits x.toBits).leading
    let n := unitsOfTen x (leading - (digits - 1 : Nat))
    if n ≥ Nat.pow 10 digits then (n / 10, leading + 1) else (n, leading)

/-- An exponent of at least two digits with its sign. -/
def exponentMark (e : Int) : String :=
  let digits := natDigits e.natAbs
  (if e < 0 then "e-" else "e+") ++ (if digits.length < 2 then "0" ++ digits else digits)

/-- A finite double without its sign, with one digit before the point and so many behind it. -/
def exponentPlaces (places : Nat) (x : Float) : String :=
  let (n, leading) := significant (places + 1) x
  let digits := (natDigits n).toList
  let digits := digits ++ List.replicate (places + 1 - digits.length) '0'
  let fraction := digits.drop 1
  String.ofList (digits.take 1)
    ++ (if fraction.isEmpty then "" else "." ++ String.ofList fraction) ++ exponentMark leading

/-- Drops zeros at the end of a fraction. -/
def dropZeros (chars : List Char) : List Char :=
  if chars.contains '.' then
    let cut := (chars.reverse.dropWhile (· = '0')).reverse
    if cut.getLast? = some '.' then cut.dropLast else cut
  else chars

/-- A finite double without its sign in at most so many digits: with an exponent if it is small or has
more digits before the point. -/
def generalPlaces (digits : Nat) (keepZeros : Bool) (x : Float) : String :=
  let digits := max digits 1
  let (_, leading) := significant digits x
  let tidy (s : String) : String := if keepZeros then s else String.ofList (dropZeros s.toList)
  if leading < -4 || (digits : Int) ≤ leading then
    let chars := (exponentPlaces (digits - 1) x).toList
    tidy (String.ofList (chars.takeWhile (· ≠ 'e'))) ++ String.ofList (chars.dropWhile (· ≠ 'e'))
  else tidy (fixedPlaces ((digits : Int) - 1 - leading).toNat x)

end Stencil.Decimal
