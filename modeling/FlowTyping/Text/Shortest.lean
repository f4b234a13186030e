/-
FlowTyping.Text.Shortest — the fewest digits that read back.

A binary number stands for all real numbers that round to it: an interval
that reaches halfway to its neighbours, and includes its ends exactly when the
significand is even. The shortest decimal is the one on the coarsest grid of
powers of ten that has a point in this interval. If both grid points around
the number lie in it, the nearer one is taken, and of two equally near ones
the larger.
-/
namespace FlowTyping.Text

/-- The number `significand * 2 ^ exponent`. At a power of two the neighbour below is only half
as far away as the one above. -/
structure Binary where
  significand : Nat
  exponent : Int
  powerOfTwo : Bool
deriving DecidableEq, Repr

/-- The number `digits * 10 ^ exponent`. -/
structure Decimal where
  digits : Nat
  exponent : Int
deriving DecidableEq, Repr

/-- An interval around a number, all three over one denominator. -/
structure Interval where
  low : Nat
  middle : Nat
  high : Nat
  denominator : Nat
  closed : Bool
deriving Repr

/-- The real numbers that round to a binary number, counted in quarters of its last place. -/
def Binary.interval (b : Binary) : Interval :=
  let shift := b.exponent - 2
  let scale := 1 <<< shift.toNat
  let middle := 4 * b.significand
  { low := (middle - if b.powerOfTwo then 1 else 2) * scale
    middle := middle * scale
    high := (middle + 2) * scale
    denominator := 1 <<< (-shift).toNat
    closed := b.significand % 2 == 0 }

/-- The same interval in units of `10 ^ k`. -/
def Interval.inUnits (i : Interval) (k : Int) : Interval :=
  let up := Nat.pow 10 (-k).toNat
  { i with
    low := i.low * up
    middle := i.middle * up
    high := i.high * up
    denominator := i.denominator * Nat.pow 10 k.toNat }

/-- Whether the interval has the whole number `n` in it. -/
def Interval.contains (i : Interval) (n : Nat) : Bool :=
  let x := n * i.denominator
  if i.closed then i.low ≤ x && x ≤ i.high else i.low < x && x < i.high

/-- The whole number that stands for the interval: of the two around its middle the nearer one
that lies in it, and the larger if both are equally near. -/
def Interval.pick? (i : Interval) : Option Nat :=
  let below := i.middle / i.denominator
  let rest := i.middle % i.denominator
  match i.contains below, i.contains (below + 1) with
  | true, true => some (if 2 * rest < i.denominator then below else below + 1)
  | true, false => some below
  | false, true => some (below + 1)
  | false, false => none

/-- Try the grids `10 ^ k`, each ten times finer than the one before, and settle for the whole
part on the last. -/
def Interval.search (i : Interval) (k : Int) : Nat → Decimal
  | 0 => let u := i.inUnits k; ⟨u.middle / u.denominator, k⟩
  | steps + 1 =>
    match (i.inUnits k).pick? with
    | some n => if n = 0 then search i (k - 1) steps else ⟨n, k⟩
    | none => search i (k - 1) steps

/-- Drop zeros at the end; `steps` bounds their number. -/
def Decimal.trim (d : Decimal) : Nat → Decimal
  | 0 => d
  | steps + 1 =>
    if d.digits % 10 = 0 then trim ⟨d.digits / 10, d.exponent + 1⟩ steps else d

/-- The shortest decimal that reads back as a positive binary number. The search begins on a grid
coarser than the number and can end where the number itself is a grid point. -/
def Binary.shortest (b : Binary) : Decimal :=
  let i := b.interval
  let start : Int := (Nat.toDigits 10 (i.middle / i.denominator)).length
  let finest : Int := min b.exponent 0
  (i.search start (start - finest).toNat).trim 20

end FlowTyping.Text
