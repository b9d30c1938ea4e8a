import Stencil.Template.Arguments

/-!
# Filters on numbers
-/

namespace Stencil.Template.Filter

/-- The product of `n` factors, by squaring. -/
def floatPower (base : Float) : Nat → Nat → Float → Float
  | 0, _, acc => acc
  | _ + 1, 0, acc => acc
  | fuel + 1, n, acc =>
    let acc := if n % 2 = 1 then acc * base else acc
    if n / 2 = 0 then acc else floatPower (base * base) fuel (n / 2) acc

/-- A power of ten as a double. -/
def powerOfTen (n : Int) : Float :=
  let p := floatPower 10.0 64 n.natAbs 1.0
  if n < 0 then 1.0 / p else p

/-- Rounds a double to so many places; what lies in the middle goes away from zero. -/
def roundTo (places : Int) (x : Float) : Float :=
  let scale := powerOfTen places
  (scale * x).round / scale

/-- The integer nearest to a double towards zero, kept in range. -/
def truncated (x : Float) : Int :=
  if x.isNaN then 0
  else if x.isInf then (if x > 0.0 then Datum.maxInteger else Datum.minInteger)
  else max Datum.minInteger (min Datum.maxInteger (Decimal.wholePart x))

/-- Reads an integer. -/
def readInt? (chars : List Char) : Option Int :=
  let (negative, digits) := Decimal.takeSign chars
  if digits ≠ [] && digits.all Decimal.isDigit then
    let n : Int := Decimal.ofDigits digits
    Datum.inRange? (if negative then -n else n)
  else none

/-- Reads a decimal, infinite ones by name. -/
def readFloat? (chars : List Char) : Option Float :=
  let (negative, body) := Decimal.takeSign chars
  let signed (x : Float) : Float := if negative then -x else x
  match (String.ofList body).toLower with
  | "inf" => some (signed (1.0 / 0.0))
  | "infinity" => some (signed (1.0 / 0.0))
  | "nan" => some (signed (0.0 / 0.0))
  | _ => Decimal.read? chars

/-- A datum as an integer. -/
def toInteger (d : Datum) : Except Cause Datum :=
  match d with
  | .undefined => .ok (.integer 0)
  | .none => .ok (.integer 0)
  | .bool b => .ok (.integer (if b then 1 else 0))
  | .integer n => .ok (.integer n)
  | .decimal x => .ok (.integer (truncated x))
  | .text s _ =>
    match readInt? s.toList with
    | some n => .ok (.integer n)
    | none =>
      match readFloat? s.toList with
      | some x => .ok (.integer (truncated x))
      | none => .error (.invalid "invalid float literal")
  | d => .error (.invalid ("cannot convert " ++ d.kind.name ++ " to integer"))

/-- A datum as a decimal. -/
def toDecimal (d : Datum) : Except Cause Datum :=
  match d with
  | .undefined => .ok (.decimal 0.0)
  | .none => .ok (.decimal 0.0)
  | .text s _ =>
    match readFloat? s.toList with
    | some x => .ok (.decimal x)
    | none => .error (.invalid "invalid float literal")
  | d =>
    match d.toFloat? with
    | some x => .ok (.decimal x)
    | none => .error (.invalid ("cannot convert " ++ d.kind.name ++ " to float"))

open Reading in
/-- The filters on numbers. -/
def number? (name : String) : Option (List Datum → Except Cause Datum) :=
  match name with
  | "round" => some <| run do
      let d ← datum
      let places ← optional (asInt (-2147483648) 2147483647)
      match d with
      | .integer n => pure (.integer n)
      | .decimal x => pure (.decimal (roundTo (places.getD 0) x))
      | d => throw (.invalid ("cannot round value (" ++ d.kind.name ++ ")"))
  | "abs" => some <| run do
      match ← datum with
      | .integer n => pure (.integer n.natAbs)
      | .decimal x => pure (.decimal x.abs)
      | _ => throw (.invalid "cannot get absolute value")
  | "int" => some <| run do
      let d ← datum
      ofExcept (toInteger d)
  | "float" => some <| run do
      let d ← datum
      ofExcept (toDecimal d)
  | "bool" => some <| run do
      let d ← datum
      pure (.bool d.isTrue)
  | _ => none

end Stencil.Template.Filter
