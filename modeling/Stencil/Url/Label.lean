import Stencil.Text.Printable
import Stencil.Text.Word

/-!
# Labels of domains

A label is what stands between the full stops of a domain. One that begins with `xn--` stands for another
label with characters beyond the common ones. The common characters of that label come first, up to the last
hyphen. The rest is a row of numbers with digits in base 36. Each says how far to go on from the last
character that was put in: by so many places, and to the next character after the last place.

Where a number ends follows from a threshold for each digit, and the thresholds follow the size of the
numbers that were read before. So every label has one written form at most.
-/

namespace Stencil.Url

/-- Whether a character only joins its neighbours. -/
def isJoiner (c : Char) : Bool := c = '\u200c' || c = '\u200d'

/-- Whether a character beyond the common ones may be in a label. -/
def isLabelChar (c : Char) : Bool := Text.isPrintable c || (Text.isWordChar c && !isJoiner c)

/-- The value of a digit in base 36, letters first. -/
def labelDigit? (c : Char) : Option Nat :=
  if c.isLower then some (c.toNat - 'a'.toNat)
  else if c.isUpper then some (c.toNat - 'A'.toNat)
  else if c.isDigit then some (c.toNat - '0'.toNat + 26)
  else none

/-- The bias for a step: it grows by 36 each time that the step can be divided by 35. -/
def biasFrom (delta : Nat) : Nat :=
  if delta > 455 then 36 + biasFrom (delta / 35) else 36 * delta / (delta + 38)
termination_by delta
decreasing_by omega

/-- The bias after a number was read. -/
def biasAfter (delta length : Nat) (isFirst : Bool) : Nat :=
  let damped := if isFirst then delta / 700 else delta / 2
  biasFrom (damped + damped / length)

/-- What is known in the middle of a label. -/
structure LabelReader where
  /-- The last character that was put in, or the first that could be. -/
  code : Nat := 128
  /-- Where the next one would be put in. -/
  place : Nat := 0
  /-- The number so far, together with the place. -/
  number : Nat := 0
  /-- What the next digit of the number counts. -/
  weight : Nat := 1
  /-- Where the threshold of the next digit is, not counting the bias. -/
  step : Nat := 36
  bias : Nat := 72
  isFirst : Bool := true
  label : List Char
  deriving Inhabited

namespace LabelReader

/-- The threshold of the next digit. One below it ends the number. -/
def threshold (reader : LabelReader) : Nat := max 1 (min 26 (reader.step - reader.bias))

/-- Puts a character in when its number is complete. -/
def insert? (reader : LabelReader) (number : Nat) : Option LabelReader :=
  let length := reader.label.length + 1
  let code := reader.code + number / length
  let place := number % length
  if code.isValidChar then
    let c := Char.ofNat code
    some { code, place := place + 1, number := place + 1, isFirst := false
           bias := biasAfter (number - reader.place) length reader.isFirst
           label := reader.label.take place ++ c :: reader.label.drop place }
  else none

/-- Reads a digit. -/
def digit? (reader : LabelReader) (c : Char) : Option LabelReader := do
  let d ← labelDigit? c
  let number := reader.number + d * reader.weight
  if d < reader.threshold then reader.insert? number
  else
    let weight := reader.weight * (36 - reader.threshold)
    some { reader with number, weight, step := reader.step + 36 }

end LabelReader

/-- The common characters of a label, up to the last hyphen, and its digits. -/
def cutLabel (chars : List Char) : List Char × List Char :=
  let digits := (chars.reverse.takeWhile (· ≠ '-')).reverse
  (chars.take (chars.length - digits.length - 1), digits)

/-- The label that one after `xn--` stands for. It has a character beyond the common ones. -/
def label? (chars : List Char) : Option (List Char) := do
  let (common, digits) := cutLabel chars
  let reader ← digits.foldlM LabelReader.digit? { label := common }
  if digits ≠ [] && reader.step = 36 then some reader.label else none

/-- Whether a label is one that may be in a domain. -/
def isLabel (chars : List Char) : Bool :=
  match chars with
  | 'x' :: 'n' :: '-' :: '-' :: rest =>
    match label? rest with
    | some label => label.all fun c => if c.toNat < 0x80 then !c.isUpper else isLabelChar c
    | none => false
  | chars => chars.all fun c => c.toNat < 0x80 || isLabelChar c

end Stencil.Url
