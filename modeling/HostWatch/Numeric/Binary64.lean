/-!
# Exact arithmetic on doubles

A finite double is `m * 2 ^ e` with integers `m` and `e`. `Binary64.parts` takes a double apart,
`Binary64.nearest` rounds a fraction to the nearest double, and `Binary64.truncate?`,
`floor?`, `ceil?` give the integers next to a double.
-/

namespace HostWatch

/-- A power of two. -/
def twoPow (n : Nat) : Nat := Nat.pow 2 n

/-- A power of ten. -/
def tenPow (n : Nat) : Nat := Nat.pow 10 n

/-- The natural number nearest to `n / d`; halfway cases go to the even neighbour. -/
def roundHalfEven (n d : Nat) : Nat :=
  let q := n / d
  let twice := 2 * (n % d)
  if twice < d then q
  else if d < twice then q + 1
  else if q % 2 = 0 then q else q + 1

namespace Binary64

/-- What a double stands for. -/
inductive Parts where
  | nan
  | infinite (negative : Bool)
  /-- The number `± mantissa * 2 ^ exponent`; zero keeps its sign. -/
  | finite (negative : Bool) (mantissa : Nat) (exponent : Int)
  deriving DecidableEq, Repr

/-- The sign, mantissa and exponent that a double encodes. -/
def parts (x : Float) : Parts :=
  let bits := x.toBits.toNat
  let negative := decide (twoPow 63 ≤ bits)
  let biased : Nat := bits / twoPow 52 % twoPow 11
  let fraction : Nat := bits % twoPow 52
  if biased = 2047 then
    if fraction = 0 then .infinite negative else .nan
  else if biased = 0 then .finite negative fraction (-1074)
  else .finite negative (fraction + twoPow 52) ((biased : Int) - 1075)

/-- The double with the given sign and magnitude bits. -/
def ofMagnitude (negative : Bool) (bits : Nat) : Float :=
  Float.ofBits (UInt64.ofNat (bits + if negative then twoPow 63 else 0))

/-- The magnitude bits of positive infinity. -/
def infinityBits : Nat := 2047 * twoPow 52

/-- `⌊log₂ (n / d)⌋` for positive `n` and `d`. -/
def log2Ratio (n d : Nat) : Int :=
  let guess : Int := n.log2 - d.log2
  let reached : Bool :=
    if 0 ≤ guess then decide (d * twoPow guess.toNat ≤ n)
    else decide (d ≤ n * twoPow (-guess).toNat)
  if reached then guess else guess - 1

/-- The double nearest to `± n / d`, ties to even; too large a fraction gives infinity. -/
def nearest (negative : Bool) (n d : Nat) : Float :=
  if n = 0 then ofMagnitude negative 0
  else
    let exponent := max (log2Ratio n d - 52) (-1074)
    let mantissa :=
      if 0 ≤ exponent then roundHalfEven n (d * twoPow exponent.toNat)
      else roundHalfEven (n * twoPow (-exponent).toNat) d
    let bits := mantissa + (exponent + 1074).toNat * twoPow 52
    ofMagnitude negative (min bits infinityBits)

/-- The double nearest to an integer. -/
def ofInt (n : Int) : Float := nearest (decide (n < 0)) n.natAbs 1

/-- A finite double as a fraction with a positive denominator. -/
def ratio (negative : Bool) (mantissa : Nat) (exponent : Int) : Int × Nat :=
  let sign : Int := if negative then -1 else 1
  if 0 ≤ exponent then (sign * (mantissa * twoPow exponent.toNat), 1)
  else (sign * mantissa, twoPow (-exponent).toNat)

/-- Why a double has no integer next to it. -/
inductive Unbounded where
  | nan
  | infinite
  deriving DecidableEq, Repr

/-- Rounds a finite double with `round`, which gets a numerator and a positive denominator. -/
def toInt? (round : Int → Nat → Int) (x : Float) : Except Unbounded Int :=
  match parts x with
  | .nan => .error .nan
  | .infinite _ => .error .infinite
  | .finite negative mantissa exponent =>
    let (n, d) := ratio negative mantissa exponent
    .ok (round n d)

/-- The integer part, toward zero. -/
def truncate? : Float → Except Unbounded Int := toInt? fun n d => Int.tdiv n d

/-- The greatest integer that is not above. -/
def floor? : Float → Except Unbounded Int := toInt? fun n d => Int.fdiv n d

/-- The least integer that is not below. -/
def ceil? : Float → Except Unbounded Int := toInt? fun n d => -Int.fdiv (-n) d

end Binary64

end HostWatch
