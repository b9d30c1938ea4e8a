/-!
# The shortest decimal that reads back

A finite double is `m · 2^q`. The reals that round to it form an interval, whose ends belong to it
exactly if `m` is even. `digits` looks for the coarsest decimal grid with a point in that interval:
first one digit, then two, up to seventeen, which always suffice. If a grid has a point inside, one
of the two neighbours of the value on that grid is inside, so only those are tested; of two hits the
nearer one counts, and the even one if they are equally near.

Everything is exact arithmetic on natural numbers.
-/

namespace Stencil.Decimal

/-- A positive double as `m · 2^q`, with the half-width of its lower gap. -/
structure Binary where
  /-- The significand. -/
  m : Nat
  /-- The exponent. -/
  q : Int
  /-- Whether the gap below is half as wide as the gap above. -/
  narrowBelow : Bool

/-- A coefficient and a power of ten. -/
structure Scientific where
  /-- All digits, the last not zero. -/
  coefficient : Nat
  /-- The power of ten of the last digit. -/
  exponent : Int
  deriving DecidableEq, Inhabited

/-- Takes the bits of a finite double that is not zero apart, leaving its sign out. -/
def Binary.ofBits (bits : UInt64) : Binary :=
  let field := ((bits >>> 52) &&& 0x7ff).toNat
  let fraction := (bits &&& 0xfffffffffffff).toNat
  if field = 0 then { m := fraction, q := -1074, narrowBelow := false }
  else { m := 0x10000000000000 + fraction, q := (field : Int) - 1075,
         narrowBelow := fraction = 0 && field > 1 }

/-- Two sides of a comparison `a · 10^k` with `b · 2^r`, cleared of negative powers: the factors of
`a` and of `b`. -/
def scales (k r : Int) : Nat × Nat :=
  (Nat.pow 10 k.toNat * Nat.pow 2 (-r).toNat, Nat.pow 10 (-k).toNat * Nat.pow 2 r.toNat)

/-- The point of the grid `10^k` that reads back as the number and lies nearest to it. -/
def Binary.nearest? (b : Binary) (k : Int) : Option Nat :=
  let (grid, unit) := scales k (b.q - 2)
  let value := 4 * b.m * unit
  let low := (4 * b.m - if b.narrowBelow then 1 else 2) * unit
  let high := (4 * b.m + 2) * unit
  let inside (a : Nat) : Bool :=
    let x := a * grid
    if b.m % 2 = 0 then low ≤ x && x ≤ high else low < x && x < high
  let below := value / grid
  let above := below + 1
  match inside below && below ≠ 0, inside above with
  | false, false => none
  | true, false => some below
  | false, true => some above
  | true, true =>
    let down := value - below * grid
    let up := above * grid - value
    if down < up || (down = up && below % 2 = 0) then some below else some above

/-- The power of ten of the first digit of `m · 2^q`: the `e` with `10^e ≤ m · 2^q < 10^(e+1)`.
Starts from an estimate that is at most one too low, through the logarithm of two. -/
def Binary.leading (b : Binary) : Int :=
  let estimate : Int := (((b.m.log2 : Int) + b.q) * 30103) / 100000 - 1
  let atLeast (e : Int) : Bool :=
    let (grid, unit) := scales e b.q
    grid ≤ b.m * unit
  if atLeast (estimate + 2) then estimate + 2
  else if atLeast (estimate + 1) then estimate + 1
  else estimate

/-- Tries the grids of `n`, `n + 1`, … digits. -/
def Binary.search (b : Binary) (leading : Int) : Nat → Nat → Scientific
  | 0, _ => { coefficient := b.m, exponent := b.q }
  | more + 1, n =>
    let k := leading - (n : Int)
    match b.nearest? k with
    | some a => { coefficient := a, exponent := k }
    | none => b.search leading more (n + 1)

/-- Moves the zeros at the end of the coefficient into the exponent. -/
def Scientific.strip : Nat → Scientific → Scientific
  | 0, s => s
  | fuel + 1, s =>
    if s.coefficient ≠ 0 && s.coefficient % 10 = 0 then
      Scientific.strip fuel { coefficient := s.coefficient / 10, exponent := s.exponent + 1 }
    else s

/-- The shortest decimal that reads back as a finite double other than zero, its sign left out. -/
def shortest (x : Float) : Scientific :=
  let b := Binary.ofBits x.toBits
  (b.search b.leading 18 0).strip 20

end Stencil.Decimal
