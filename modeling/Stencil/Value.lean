import Stencil.Entries

/-!
# Values

What a variable can hold: the six kinds of data that a variables file or a manifest can write down.
An integer is any whole number that was written without a point or an exponent and fits into 64
bits, with or without a sign; every other number is a decimal. A map is kept sorted by key, each key
once, so that equal data are equal values.
-/

namespace Stencil

/-- A decoded value. -/
inductive Value where
  | null
  | bool (b : Bool)
  | integer (n : Int)
  | decimal (x : Float)
  | text (s : String)
  | list (items : List Value)
  | map (entries : List (String × Value))
  deriving Inhabited

namespace Value

/-- The smallest number that is read as an integer. -/
def minInteger : Int := -9223372036854775808

/-- The largest number that is read as an integer. -/
def maxInteger : Int := 18446744073709551615

/-- A map of the given entries; of several with one key the last counts. -/
def ofEntries (entries : Entries Value) : Value := .map (Entries.sorted entries)

/-- A decimal, or `null` for the numbers that have no decimal text. -/
def ofFloat (x : Float) : Value := if x.isFinite then .decimal x else .null

end Value

end Stencil
