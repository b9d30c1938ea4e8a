import Stencil.Value
import Stencil.Decimal.Reading

/-!
# What an unquoted scalar means

The core schema: a plain scalar is `null`, a truth value, an integer in one of four bases, a decimal,
or text. A row of digits with a needless zero in front is text. An integer that does not fit into 64
bits but into 128 is out of range, which is an error; beyond that it is a decimal.
-/

namespace Stencil.Yaml

/-- What a plain scalar was read as. -/
inductive Plain where
  | null
  | bool (b : Bool)
  | integer (n : Int)
  /-- An integer too large for a value, yet not so large that it counts as a decimal. -/
  | outOfRange
  | decimal (x : Float)
  | text

/-- Whether a scalar is one of the spellings of `null`. -/
def isNull (s : String) : Bool := s = "null" || s = "Null" || s = "NULL" || s = "~"

/-- The truth value that a scalar spells. -/
def bool? (s : String) : Option Bool :=
  if s = "true" || s = "True" || s = "TRUE" then some true
  else if s = "false" || s = "False" || s = "FALSE" then some false
  else none

/-- Whether a scalar is a zero with more digits behind it, a sign before it allowed. -/
def hasNeedlessZero (chars : List Char) : Bool :=
  match (Decimal.takeSign chars).2 with
  | '0' :: next :: rest => (next :: rest).all Decimal.isDigit
  | _ => false

/-- The value of a digit in a base up to sixteen. -/
def digitIn? (base : Nat) (c : Char) : Option Nat :=
  let value? :=
    if '0' ≤ c && c ≤ '9' then some (c.toNat - 48)
    else if 'a' ≤ c && c ≤ 'f' then some (c.toNat - 87)
    else if 'A' ≤ c && c ≤ 'F' then some (c.toNat - 55)
    else none
  value?.filter (· < base)

/-- The natural number that one or more digits of a base stand for. -/
def natIn? (base : Nat) (chars : List Char) : Option Nat :=
  if chars.isEmpty then none
  else chars.foldl (fun acc c => do some ((← acc) * base + (← digitIn? base c))) (some 0)

/-- A base and the digits after its mark. -/
def basePrefixed? : List Char → Option (Nat × List Char)
  | '0' :: 'x' :: rest => some (16, rest)
  | '0' :: 'o' :: rest => some (8, rest)
  | '0' :: 'b' :: rest => some (2, rest)
  | _ => none

/-- The integer that a scalar spells, whatever its size. -/
def integer? (chars : List Char) : Option Int :=
  let magnitude? (digits : List Char) : Option Int :=
    match basePrefixed? digits with
    | some (base, rest) => (natIn? base rest).map Int.ofNat
    | none => if hasNeedlessZero digits then none else (natIn? 10 digits).map Int.ofNat
  match chars with
  | '-' :: rest => (magnitude? rest).map fun n => -n
  | '+' :: rest => magnitude? rest
  | rest => magnitude? rest

/-- The decimal that a scalar spells, infinite and undefined ones included. -/
def decimal? (s : String) : Option Float :=
  let chars := s.toList
  let unsigned := match chars with
    | '+' :: rest => String.ofList rest
    | _ => s
  if unsigned = ".inf" || unsigned = ".Inf" || unsigned = ".INF" then
    some (Float.ofBits 0x7ff0000000000000)
  else if s = "-.inf" || s = "-.Inf" || s = "-.INF" then some (Float.ofBits 0xfff0000000000000)
  else if s = ".nan" || s = ".NaN" || s = ".NAN" then some (Float.ofBits 0x7ff8000000000000)
  else (Decimal.read? chars).filter Float.isFinite

/-- Reads a plain scalar. -/
def Plain.ofString (s : String) : Plain :=
  let chars := s.toList
  if s = "" || isNull s then .null
  else match bool? s with
    | some b => .bool b
    | none =>
      let asDecimal :=
        if hasNeedlessZero chars then .text
        else match decimal? s with
          | some x => .decimal x
          | none => .text
      match integer? chars with
      | some n =>
        if Value.minInteger ≤ n && n ≤ Value.maxInteger then .integer n
        else if -170141183460469231731687303715884105728 ≤ n &&
            n < 340282366920938463463374607431768211456 then .outOfRange
        else asDecimal
      | none => asDecimal

/-- Whether a text would come back as text if it were written without quotes. -/
def Plain.isText (s : String) : Bool :=
  match Plain.ofString s with
  | .text => !hasNeedlessZero s.toList
  | _ => false

end Stencil.Yaml
