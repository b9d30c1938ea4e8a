import Stencil.Decimal.Places
import Stencil.Template.Arguments

/-!
# Values in a pattern

A pattern is text with directions in it. A direction is a percent sign, flags, a width, a number of places
behind a point, and a letter that says how a value is written. A name in parentheses behind the percent
sign takes a named value, otherwise each direction takes the next one.
-/

namespace Stencil.Template.Filter

/-- How a value is written. -/
structure Direction where
  key? : Option String := none
  flags : List Char := []
  width : Nat := 0
  places? : Option Nat := none
  letter : Char
  deriving Inhabited

/-- The fault of a pattern or of the values for it. -/
def badFormat {α : Type} (why : String) : Except Cause α := .error (.invalid why)

/-- Reads a direction behind its percent sign. -/
def direction? (chars : List Char) : Option (Direction × List Char) :=
  let (key?, chars) := match chars with
    | '(' :: rest =>
      (some (String.ofList (rest.takeWhile (· ≠ ')'))), (rest.dropWhile (· ≠ ')')).drop 1)
    | _ => (none, chars)
  let isFlag (c : Char) : Bool := c = '#' || c = '0' || c = '-' || c = ' ' || c = '+'
  let flags := chars.takeWhile isFlag
  let chars := chars.dropWhile isFlag
  let width := Decimal.ofDigits (chars.takeWhile Decimal.isDigit)
  let chars := chars.dropWhile Decimal.isDigit
  let (places?, chars) := match chars with
    | '.' :: rest =>
      (some (Decimal.ofDigits (rest.takeWhile Decimal.isDigit)), rest.dropWhile Decimal.isDigit)
    | _ => (none, chars)
  match chars with
  | letter :: rest => some ({ key?, flags, width, places?, letter }, rest)
  | [] => none

/-- Whether a direction has a flag. -/
def Direction.has (d : Direction) (flag : Char) : Bool := d.flags.contains flag

/-- Fills a text up to the width. -/
def Direction.pad (d : Direction) (body : String) : String :=
  let blanks := String.ofList (List.replicate (d.width - body.length) ' ')
  if d.has '-' then body ++ blanks else blanks ++ body

/-- The sign of a number. -/
def Direction.sign (d : Direction) (negative : Bool) : String :=
  if negative then "-" else if d.has '+' then "+" else if d.has ' ' then " " else ""

/-- Puts a number together: its sign, what stands in front of its digits, the digits. -/
def Direction.number (d : Direction) (negative : Bool) (front digits : String) : String :=
  let head := d.sign negative ++ front
  if d.has '0' && !d.has '-' then
    head ++ String.ofList (List.replicate (d.width - head.length - digits.length) '0') ++ digits
  else d.pad (head ++ digits)

/-- Puts an integer together. -/
def Direction.integer (d : Direction) (base : Nat) (front : String) (capitals : Bool) (n : Int) :
    String :=
  let digits := String.ofList (Nat.toDigits base n.natAbs)
  let digits := if capitals then digits.toUpper else digits
  let zeros := String.ofList (List.replicate ((d.places?.getD 0) - digits.length) '0')
  d.number (n < 0) (if d.has '#' then front else "") (zeros ++ digits)

/-- Puts a decimal together. -/
def Direction.decimal (d : Direction) (write : Float → String) (capitals : Bool) (x : Float) :
    String :=
  let body :=
    if x.isNaN then "nan" else if x.isInf then "inf" else write x
  d.number (Decimal.isNegative x && !x.isNaN) "" (if capitals then body.toUpper else body)

/-- An integer to be written. -/
def wholeNumber (d : Datum) : Except Cause Int :=
  match d with
  | .decimal x =>
    if x.isFinite then .ok (Decimal.wholePart x) else badFormat "cannot convert to integer"
  | d =>
    match d.toInt? with
    | some n => .ok n
    | none => badFormat "a number is required"

/-- A number to be written as a decimal. -/
def anyNumber (d : Datum) : Except Cause Float :=
  match d.toFloat? with
  | some x => .ok x
  | none => badFormat "must be real number"

/-- A value as a direction says. -/
def Direction.write (d : Direction) (value : Datum) : Except Cause String :=
  let cut (s : String) : String := match d.places? with
    | some n => String.ofList (s.toList.take n)
    | none => s
  let places := d.places?.getD 6
  match d.letter with
  | 's' => .ok (d.pad (cut value.display))
  | 'r' => .ok (d.pad (cut value.detail))
  | 'a' => .ok (d.pad (cut value.detail))
  | 'd' => (wholeNumber value).map (d.integer 10 "" false)
  | 'i' => (wholeNumber value).map (d.integer 10 "" false)
  | 'u' => (wholeNumber value).map (d.integer 10 "" false)
  | 'x' => (wholeNumber value).map (d.integer 16 "0x" false)
  | 'X' => (wholeNumber value).map (d.integer 16 "0X" true)
  | 'o' => (wholeNumber value).map (d.integer 8 "0o" false)
  | 'f' => (anyNumber value).map (d.decimal (Decimal.fixedPlaces places) false)
  | 'F' => (anyNumber value).map (d.decimal (Decimal.fixedPlaces places) true)
  | 'e' => (anyNumber value).map (d.decimal (Decimal.exponentPlaces places) false)
  | 'E' => (anyNumber value).map (d.decimal (Decimal.exponentPlaces places) true)
  | 'g' => (anyNumber value).map (d.decimal (Decimal.generalPlaces places (d.has '#')) false)
  | 'G' => (anyNumber value).map (d.decimal (Decimal.generalPlaces places (d.has '#')) true)
  | 'c' =>
    match value with
    | .text s _ =>
      if s.length = 1 then .ok (d.pad s) else badFormat "%c requires int or char"
    | value => do
      let n ← wholeNumber value
      if h : n.toNat.isValidChar then .ok (d.pad (String.singleton (Char.ofNatAux n.toNat h)))
      else badFormat "%c requires int or char"
  | _ => badFormat "unsupported format character"

/-- Writes values into a pattern. -/
def fill (named : Entries Datum) : Nat → List Char → List Datum → Except Cause (List Char)
  | 0, _, _ => .ok []
  | _ + 1, [], values =>
    if values.isEmpty then .ok [] else badFormat "not all arguments converted during formatting"
  | fuel + 1, '%' :: '%' :: rest, values => (fill named fuel rest values).map ('%' :: ·)
  | fuel + 1, '%' :: rest, values =>
    match direction? rest with
    | none => badFormat "incomplete format"
    | some (d, rest) => do
      let (value, values) ← match d.key?, values with
        | some key, _ =>
          match Entries.get? key named with
          | some value => pure (value, values)
          | none => badFormat "format requires a mapping"
        | none, value :: values => pure (value, values)
        | none, [] => badFormat "not enough arguments for format string"
      let text ← d.write value
      (fill named fuel rest values).map (text.toList ++ ·)
  | fuel + 1, c :: rest, values => (fill named fuel rest values).map (c :: ·)

/-- Writes the arguments behind a pattern into it. -/
def format (args : List Datum) : Except Cause Datum :=
  let (args, named) := match args.getLast? with
    | some (.named entries) => (args.dropLast, entries)
    | _ => (args, [])
  match args with
  | [] => .error .missingArgument
  | pattern :: values => do
    let pattern ← Reading.asShown pattern
    let chars ← fill named (pattern.length + 1) pattern.toList values
    .ok (.ofString (String.ofList chars))

end Stencil.Template.Filter
