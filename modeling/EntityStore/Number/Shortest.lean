import EntityStore.Number.Binary64

/-!
# Shortest decimal digits

The reals that round to a given number form an interval, closed exactly when the significand is
even. The shortest decimal of a number is a point of the coarsest decimal grid that meets the
interval, the nearer one if two do.
-/

namespace EntityStore

/-- A positive decimal `0.d₁d₂…dₙ * 10 ^ point`. -/
structure Decimal where
  digits : List Char
  point : Int
deriving DecidableEq

/-- Which of two equally near decimals is taken. -/
inductive TieRule
  | up
  | even
deriving DecidableEq

namespace Shortest

/-- Everything below is scaled by `2 ^ 1076 * 10 ^ 350`, which makes the ends of every interval
and every grid point a whole number. -/
def decimalScale : Nat := Nat.pow 10 350

/-- The scale of a grid of width one, without its power of ten. -/
def gridScale : Nat := Nat.pow 2 1076

/-- The scaled number with the ends of the interval of reals that round to it. -/
structure Interval where
  value : Nat
  low : Nat
  high : Nat
  closed : Bool

def Interval.contains (i : Interval) (x : Nat) : Bool :=
  if i.closed then decide (i.low ≤ x) && decide (x ≤ i.high)
  else decide (i.low < x) && decide (x < i.high)

/-- The gap below a power of two is half the gap above it, the least normal number apart. -/
def interval (x : Binary64) : Interval :=
  let step := Nat.pow 2 (x.exponentField - 1)
  let below := if x.fraction = 0 ∧ 1 < x.exponentField then step else 2 * step
  { value := 4 * x.units * decimalScale
    low := (4 * x.units - below) * decimalScale
    high := (4 * x.units + 2 * step) * decimalScale
    closed := x.fraction % 2 == 0 }

/-- The grid point of width `grid` that is in the interval and nearest to the value. -/
def pointOn (i : Interval) (tie : TieRule) (grid : Nat) : Option Nat :=
  let low := i.value / grid
  let lowIn := i.contains (low * grid)
  let highIn := i.contains ((low + 1) * grid)
  let rest := i.value % grid
  if lowIn && highIn then
    if 2 * rest < grid then some low
    else if grid < 2 * rest then some (low + 1)
    else match tie with
      | .up => some (low + 1)
      | .even => if low % 2 = 0 then some low else some (low + 1)
  else if lowIn then some low
  else if highIn then some (low + 1)
  else none

/-- The first hit on the grids of `count, count + 1, …` digits, with the grid's exponent. -/
def search (i : Interval) (tie : TieRule) (size : Nat) : Nat → Nat → Nat × Nat
  | 0, _ => (i.value / gridScale, 0)
  | fuel + 1, count =>
    let exponent := size - count
    match pointOn i tie (Nat.pow 10 exponent * gridScale) with
    | some d => (d, exponent)
    | none => search i tie size fuel (count + 1)

def dropTrailingZeros (digits : List Char) : List Char :=
  (digits.reverse.dropWhile (· == '0')).reverse

def decimal (tie : TieRule) (x : Binary64) : Decimal :=
  let i := interval x
  let size := (Nat.toDigits 10 (i.value / gridScale)).length
  let (d, exponent) := search i tie size 17 1
  let digits := Nat.toDigits 10 d
  { digits := dropTrailingZeros digits
    point := (digits.length : Int) + (exponent : Int) - 350 }

end Shortest

end EntityStore
