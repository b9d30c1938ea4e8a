import Stencil.Template.Display
import Stencil.Template.Tree

/-!
# Operators

Numbers are computed with as integers of 128 bits where both are integers, and as doubles where one is a
decimal; a result that does not fit is a fault, except that decimals may become infinite. Texts and rows
can be put behind each other and repeated. Everything can be compared.
-/

namespace Stencil.Template

namespace Datum

/-- The fault of operands that do not go with an operator. -/
def impossible {α : Type} (operator : String) (a b : Datum) : Except Cause α :=
  .error (.invalid ("tried to use " ++ operator ++ " operator on unsupported types " ++ a.kind.name
    ++ " and " ++ b.kind.name))

/-- The fault of a result that does not fit. -/
def failed {α : Type} (operator : String) : Except Cause α :=
  .error (.invalid ("unable to calculate " ++ operator))

/-- An integer as a result. -/
def integerResult (operator : String) (n : Int) : Except Cause Datum :=
  match inRange? n with
  | some n => .ok (.integer n)
  | Option.none => failed operator

/-- The items of a list or a stream. -/
def row? : Datum → Option (List Datum)
  | .list items => some items
  | .stream items _ => some items
  | .group common items => some [common, .list items]
  | _ => Option.none

/-- The sum of numbers, or two texts or rows behind each other. -/
def add (a b : Datum) : Except Cause Datum :=
  match a.row?, b.row? with
  | some xs, some ys => .ok (.stream (xs ++ ys) true)
  | _, _ =>
    match pair? false a b with
    | some (.integers m n) => integerResult "+" (m + n)
    | some (.decimals x y) => .ok (.decimal (x + y))
    | some (.texts s t) => .ok (ofString (s ++ t))
    | Option.none => impossible "+" a b

/-- The difference of numbers. -/
def subtract (a b : Datum) : Except Cause Datum :=
  match pair? false a b with
  | some (.integers m n) => integerResult "-" (m - n)
  | some (.decimals x y) => .ok (.decimal (x - y))
  | _ => impossible "-" a b

/-- A count of repetitions. -/
def count? (d : Datum) : Option Nat :=
  match d.toInt? with
  | some n => if 0 ≤ n && n < 0x10000000000000000 then some n.toNat else Option.none
  | Option.none => Option.none

/-- A row repeated. -/
def repeated (items : List Datum) (times : Datum) : Except Cause Datum :=
  match times.count? with
  | some n => .ok (.stream (List.replicate n items).flatten true)
  | Option.none =>
    .error (.invalid "sequences and iterables can only be multiplied with integers")

/-- A text repeated. -/
def repeatedText (s : String) (times : Datum) : Except Cause Datum :=
  match times.count? with
  | some n => .ok (ofString ("".intercalate (List.replicate n s)))
  | Option.none => .error (.invalid "strings can only be multiplied with integers")

/-- The product of numbers, or a text or a row repeated. -/
def multiply (a b : Datum) : Except Cause Datum :=
  match a, b with
  | .text s _, _ => repeatedText s b
  | _, .text s _ => repeatedText s a
  | _, _ =>
    match a.row?, b.row? with
    | some items, _ => repeated items b
    | Option.none, some items => repeated items a
    | Option.none, Option.none =>
      match pair? false a b with
      | some (.integers m n) => integerResult "*" (m * n)
      | some (.decimals x y) => .ok (.decimal (x * y))
      | _ => impossible "*" a b

/-- The quotient of numbers, which is a decimal. -/
def divide (a b : Datum) : Except Cause Datum :=
  match a.toFloat?, b.toFloat? with
  | some x, some y => .ok (.decimal (x / y))
  | _, _ => impossible "/" a b

/-- The quotient of doubles, rounded so that the rest is not negative. -/
def floorQuotient (x y : Float) : Float :=
  let q := x / y
  let whole := if q < 0.0 then q.ceil else q.floor
  if Decimal.remainder x y < 0.0 then (if y > 0.0 then whole - 1.0 else whole + 1.0) else whole

/-- The quotient of numbers without a fraction, so that the rest is not negative. -/
def floorDivide (a b : Datum) : Except Cause Datum :=
  match pair? false a b with
  | some (.integers m n) => if n = 0 then failed "//" else integerResult "//" (Int.ediv m n)
  | some (.decimals x y) => .ok (.decimal (floorQuotient x y))
  | _ => impossible "//" a b

/-- The rest of a division: not negative for integers, with the sign of the first for decimals. -/
def remainder (a b : Datum) : Except Cause Datum :=
  match pair? false a b with
  | some (.integers m n) => if n = 0 then failed "%" else integerResult "%" (Int.emod m n)
  | some (.decimals x y) => .ok (.decimal (Decimal.remainder x y))
  | _ => impossible "%" a b

/-- The power of an integer, if it fits. -/
def integerPower? (base exponent : Int) : Option Int :=
  if exponent < 0 || exponent ≥ 0x100000000 then Option.none
  else if base.natAbs ≤ 1 then
    some (if exponent = 0 then 1 else if base = -1 && exponent % 2 = 0 then 1 else base)
  else if exponent > 127 then Option.none
  else inRange? (Int.pow base exponent.toNat)

/-- The power of numbers. -/
def power (a b : Datum) : Except Cause Datum :=
  match pair? false a b with
  | some (.integers m n) =>
    match integerPower? m n with
    | some p => .ok (.integer p)
    | Option.none => failed "**"
  | some (.decimals x y) => .ok (.decimal (x.pow y))
  | _ => impossible "**" a b

/-- A number with the other sign. -/
def negate (d : Datum) : Except Cause Datum :=
  match d with
  | .decimal x => .ok (.decimal (-x))
  | .integer n =>
    if n = 170141183460469231731687303715884105728 then .ok (.integer (-n))
    else match inRange? n with
      | some n => integerResult "-" (-n)
      | Option.none => .error (.invalid "")
  | _ => .error (.invalid "")

/-- Whether a text occurs in another. -/
def occursIn (part : List Char) : List Char → Bool
  | [] => part.isEmpty
  | c :: rest => part.isPrefixOf (c :: rest) || occursIn part rest

/-- Whether something is in a text, a row or the keys of a map. -/
def contains (container value : Datum) : Except Cause Bool :=
  match container with
  | .undefined => .ok false
  | .text s _ => .ok (occursIn value.display.toList s.toList)
  | .map entries => .ok (valueOf? value entries).isSome
  | .named _ => .ok (container.item? value).isSome
  | .list items => .ok (items.any (same · value))
  | .stream items _ => .ok (items.any (same · value))
  | .group common items => .ok (same common value || same (.list items) value)
  | d =>
    if d.kind = .plain || d.kind = .map then .ok (d.item? value).isSome
    else .error (.invalid "cannot perform a containment check on this value")

/-- Two data behind each other as text. -/
def concatenate (a b : Datum) : Datum := ofString (a.display ++ b.display)

/-! ## Slices -/

/-- The place of the end of a slice that runs forward; a negative one counts from the end. -/
def forwardPlace (length : Nat) (place : Int) : Nat :=
  let moved := if place < 0 then length + place else place
  -- Before the front is far behind the end.
  if moved < 0 then 0x10000000000000000 - moved.natAbs else moved.toNat

/-- Every `step`-th item of a row. -/
def everyNth {α : Type} (step : Nat) : Nat → List α → List α
  | _, [] => []
  | 0, x :: rest => x :: everyNth step (step - 1) rest
  | skip + 1, _ :: rest => everyNth step skip rest

/-- A slice of a row that runs forward. -/
def forwardSlice {α : Type} (items : List α) (start stop : Option Int) (step : Nat) : List α :=
  let first := forwardPlace items.length (start.getD 0)
  let last := match stop with
    | some stop => forwardPlace items.length stop
    | Option.none => items.length
  everyNth step 0 ((items.drop first).take (last - first))

/-- A slice of a row that runs backward. -/
def backwardSlice {α : Type} (items : List α) (start stop : Option Int) (step : Nat) : List α :=
  let length : Int := items.length
  let first : Nat := match start with
    | Option.none => items.length - 1
    | some start =>
      if start ≥ length then items.length - 1
      else if start ≥ 0 then start.toNat
      else (max (length + start) 0).toNat
  let last : Nat := match stop with
    | Option.none => 0
    | some stop => if stop < 0 then (max (length + stop) 0).toNat else stop.toNat
  let count := if last = 0 then (first + step) / step else (first - last + step - 1) / step
  let backward := ((items.take (first + 1)).drop last).reverse
  (everyNth step 0 backward).take count

/-- The end or the step of a slice. -/
def bound? (d : Datum) : Except Cause (Option Int) :=
  match d with
  | .none => .ok Option.none
  | d =>
    match d.toInt? with
    | some n => .ok (some n)
    | Option.none => .error (.invalid ("cannot convert " ++ d.kind.name ++ " to i64"))

/-- Part of a text or a row. -/
def slice (d start stop step : Datum) : Except Cause Datum := do
  let start ← bound? start
  let stop ← bound? stop
  let step := (← bound? step).getD 1
  let cut {α : Type} (items : List α) : List α :=
    if step > 0 then forwardSlice items start stop step.toNat
    else backwardSlice items start stop step.natAbs
  if step = 0 then throw (.invalid "cannot slice by step size of 0")
  else match d with
    | .undefined => pure (.list [])
    | .none => pure (.list [])
    | .text s _ => pure (ofString (String.ofList (cut s.toList)))
    | d =>
      match d.row? with
      | some items => pure (.stream (cut items) true)
      | Option.none => throw (.invalid ("value of type " ++ d.kind.name ++ " cannot be sliced"))

end Datum

/-- An operator applied to its operands. `and` and `or` are settled where operands are evaluated. -/
def BinaryOp.apply (op : BinaryOp) (a b : Datum) : Except Cause Datum :=
  match op with
  | .or => .ok (if a.isTrue then a else b)
  | .and => .ok (if a.isTrue then b else a)
  | .equal => .ok (.bool (Datum.same a b))
  | .notEqual => .ok (.bool (!Datum.same a b))
  | .less => .ok (.bool (Datum.compare a b == .lt))
  | .lessOrEqual => .ok (.bool (Datum.compare a b != .gt))
  | .greater => .ok (.bool (Datum.compare a b == .gt))
  | .greaterOrEqual => .ok (.bool (Datum.compare a b != .lt))
  | .contained => (Datum.contains b a).map .bool
  | .add => Datum.add a b
  | .subtract => Datum.subtract a b
  | .concatenate => .ok (Datum.concatenate a b)
  | .multiply => Datum.multiply a b
  | .divide => Datum.divide a b
  | .floorDivide => Datum.floorDivide a b
  | .remainder => Datum.remainder a b
  | .power => Datum.power a b

/-- An operator applied to its operand. -/
def UnaryOp.apply (op : UnaryOp) (d : Datum) : Except Cause Datum :=
  match op with
  | .negate => d.negate
  | .not => .ok (.bool (!d.isTrue))

end Stencil.Template
