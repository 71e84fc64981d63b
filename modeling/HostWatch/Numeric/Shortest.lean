import HostWatch.Numeric.Binary64

/-!
# Shortest decimals

`Decimal.shortest` finds the decimal with the fewest digits that lies in the rounding interval of a
double, and among those with as few digits the one nearest to it. Reading it back gives the double.
-/

namespace HostWatch

/-- The number `digits * 10 ^ scale`. -/
structure Decimal where
  digits : Nat
  scale : Int
  deriving DecidableEq, Repr

namespace Decimal

/-- How many decimal digits a number has; zero has none. -/
def length (n : Nat) : Nat := if n = 0 then 0 else (Nat.toDigits 10 n).length

/-- The least `p` with `n / d < 10 ^ p`, for positive `n` and `d`. -/
def pointPosition (n d : Nat) : Int :=
  if d ≤ n then length (n / d)
  else 1 - (length ((d - 1) / n) : Int)

/-- Drops factors of ten from the digits. -/
def stripZeros : Nat → Decimal → Decimal
  | 0, x => x
  | fuel + 1, x =>
    if x.digits % 10 = 0 ∧ x.digits ≠ 0 then stripZeros fuel ⟨x.digits / 10, x.scale + 1⟩ else x

/-- `n / d` divided by `10 ^ scale`, as a fraction. -/
def onGrid (n d : Nat) (scale : Int) : Nat × Nat :=
  if 0 ≤ scale then (n, d * tenPow scale.toNat) else (n * tenPow (-scale).toNat, d)

/-- The rounding interval of a positive double `mantissa * 2 ^ exponent`, in units of
`2 ^ (exponent - 2)`: lower end, value, upper end. Below a power of two the doubles are denser. -/
def interval (mantissa : Nat) (exponent : Int) : Nat × Nat × Nat :=
  let lower := if mantissa = twoPow 52 ∧ -1074 < exponent then 1 else 2
  (4 * mantissa - lower, 4 * mantissa, 4 * mantissa + 2)

/-- The neighbour of the value on the grid `10 ^ scale` that lies in the interval, if there is one;
of two the nearer, halfway the even one. -/
def hitOnGrid? (lower value upper d : Nat) (closed : Bool) (scale : Int) : Option Nat :=
  let (v, e) := onGrid value d scale
  let (l, _) := onGrid lower d scale
  let (u, _) := onGrid upper d scale
  let inside (c : Nat) : Bool :=
    if closed then decide (l ≤ c * e) && decide (c * e ≤ u)
    else decide (l < c * e) && decide (c * e < u)
  let below := v / e
  if inside below && inside (below + 1) then some (roundHalfEven v e)
  else if inside below then some below
  else if inside (below + 1) then some (below + 1)
  else none

/-- Tries one, two, … digits; seventeen always suffice. -/
def search (lower value upper d : Nat) (closed : Bool) (point : Int) : Nat → Nat → Decimal
  | 0, n => ⟨value / d, n⟩
  | fuel + 1, n =>
    match hitOnGrid? lower value upper d closed (point - n) with
    | some digits => ⟨digits, point - n⟩
    | none => search lower value upper d closed point fuel (n + 1)

/-- The shortest decimal that reads back as the positive double `mantissa * 2 ^ exponent`. -/
def shortest (mantissa : Nat) (exponent : Int) : Decimal :=
  let (lower, value, upper) := interval mantissa exponent
  let unit := exponent - 2
  let up := twoPow unit.toNat
  let d := twoPow (-unit).toNat
  let closed := decide (mantissa % 2 = 0)
  let point := pointPosition (value * up) d
  stripZeros 20 (search (lower * up) (value * up) (upper * up) d closed point 17 1)

end Decimal

end HostWatch
