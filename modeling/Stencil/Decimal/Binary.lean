import Stencil.Decimal.Shortest

/-!
# Doubles as exact numbers

A finite double is a whole number of units of a power of two. That makes whole parts, remainders and
comparisons with integers exact.
-/

namespace Stencil.Decimal

/-- Whether the sign of a double is set, which zero can have too. -/
def isNegative (x : Float) : Bool := x.toBits >>> 63 = 1

/-- A finite double as `units · 2^exponent`, its sign left out. -/
structure Units where
  units : Nat
  exponent : Int

/-- Takes a finite double apart. -/
def Units.ofFloat (x : Float) : Units :=
  let b := Binary.ofBits x.toBits
  { units := b.m, exponent := b.q }

/-- The whole part of a finite double: what is left when the places behind the point are cut off. -/
def wholePart (x : Float) : Int :=
  let u := Units.ofFloat x
  let n := if 0 ≤ u.exponent then u.units * Nat.pow 2 u.exponent.toNat
    else u.units / Nat.pow 2 (-u.exponent).toNat
  if isNegative x then -(n : Int) else n

/-- Whether a double is finite and has no places behind the point. -/
def isWhole (x : Float) : Bool :=
  if x.isFinite then
    let u := Units.ofFloat x
    0 ≤ u.exponent || u.units % Nat.pow 2 (-u.exponent).toNat = 0
  else false

/-- What is left of a double when another is taken away as often as possible, with the sign of the
first. -/
def remainder (x y : Float) : Float :=
  if x.isFinite && y.isFinite && y != 0.0 then
    let a := Units.ofFloat x
    let b := Units.ofFloat y
    let low := min a.exponent b.exponent
    let left := (a.units * Nat.pow 2 (a.exponent - low).toNat) %
      (b.units * Nat.pow 2 (b.exponent - low).toNat)
    let magnitude := (Float.ofNat left).scaleB low
    if isNegative x then -magnitude else magnitude
  else if x.isFinite && y.isInf then x
  else 0.0 / 0.0

/-- The place of a double in the order of all doubles, in which minus zero comes before zero. -/
def orderKey (x : Float) : Int :=
  let magnitude : Int := (x.toBits &&& 0x7fffffffffffffff).toNat
  if isNegative x then -magnitude - 1 else magnitude

end Stencil.Decimal
