import Stencil.Decimal.Binary

/-!
# How a number is laid out

The digits of a number are settled in `Stencil.Decimal.Shortest`. What is left is where the point
goes: which numbers are written out and which with an exponent, and how the exponent looks. Each
writer of numbers has a `Layout` of its own; `render` is the same for all.
-/

namespace Stencil.Decimal

/-- A format's decisions on the text of a number. -/
structure Layout where
  /-- The smallest power of ten of the first digit that is written without an exponent. -/
  from? : Option Int
  /-- The largest power of ten of the first digit that is written without an exponent. -/
  to? : Option Int
  /-- Whether a positive exponent has a plus sign. -/
  plusSign : Bool
  /-- Whether a whole number written out ends in a point and a zero. -/
  pointZero : Bool := true

/-- The digits of a natural number. -/
def natDigits (n : Nat) : String := String.ofList (Nat.toDigits 10 n)

/-- Writes a number out, the point after the digit of its units. -/
def positional (layout : Layout) (s : Scientific) : String :=
  let digits := natDigits s.coefficient
  if 0 ≤ s.exponent then
    digits ++ String.ofList (List.replicate s.exponent.toNat '0')
      ++ (if layout.pointZero then ".0" else "")
  else
    let places := (-s.exponent).toNat
    let padded := String.ofList (List.replicate (places + 1 - digits.length) '0') ++ digits
    let cut := padded.length - places
    String.ofList (padded.toList.take cut) ++ "." ++ String.ofList (padded.toList.drop cut)

/-- Writes a number with one digit before the point and an exponent. -/
def exponential (layout : Layout) (s : Scientific) (leading : Int) : String :=
  let digits := (natDigits s.coefficient).toList
  let fraction := digits.drop 1
  let mark :=
    if leading < 0 then "e-" ++ natDigits (-leading).toNat
    else (if layout.plusSign then "e+" else "e") ++ natDigits leading.toNat
  String.ofList (digits.take 1)
    ++ (if fraction.isEmpty then "" else "." ++ String.ofList fraction) ++ mark

/-- The text of a finite number that is not negative and not zero. -/
def Layout.magnitude (layout : Layout) (s : Scientific) : String :=
  let leading := s.exponent + ((natDigits s.coefficient).length : Int) - 1
  let small := match layout.from? with
    | some least => leading < least
    | none => false
  let large := match layout.to? with
    | some most => most < leading
    | none => false
  if small || large then exponential layout s leading else positional layout s

/-- The text of a finite double. -/
def Layout.render (layout : Layout) (x : Float) : String :=
  let body :=
    if x == 0.0 then (if layout.pointZero then "0.0" else "0")
    else layout.magnitude (shortest x)
  if isNegative x then "-" ++ body else body

end Stencil.Decimal
