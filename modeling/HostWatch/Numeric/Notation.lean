import HostWatch.Numeric.Number
import HostWatch.Numeric.Shortest

/-!
# How numbers are written

One decimal printer with two settings: `plain`, the shortest text that reads back, and `general`,
six significant digits. `Number.fixed?` writes a given count of places.
-/

namespace HostWatch

namespace Decimal

/-- Choices of a decimal notation: the exponents that are written positionally, and whether a whole
number shows a fraction. -/
structure Style where
  lowest : Int
  highest : Int
  wholeFraction : Bool

/-- Positional from `0.0001` to below `10 ^ 16`; a whole number ends in `.0`. -/
def Style.plain : Style := ⟨-4, 15, true⟩

/-- Positional from `0.0001` to below `10 ^ 6`; a whole number has no point. -/
def Style.general : Style := ⟨-4, 5, false⟩

/-- The exponent with its sign and at least two digits. -/
def exponentText (exponent : Int) : List Char :=
  let digits := Nat.toDigits 10 exponent.natAbs
  'e' :: (if exponent < 0 then '-' else '+') :: (List.replicate (2 - digits.length) '0' ++ digits)

def write (style : Style) (x : Decimal) : List Char :=
  let digits := Nat.toDigits 10 x.digits
  let point : Int := digits.length + x.scale
  if style.lowest ≤ point - 1 ∧ point - 1 ≤ style.highest then
    if point ≤ 0 then '0' :: '.' :: (List.replicate (-point).toNat '0' ++ digits)
    else if digits.length ≤ point then
      digits ++ List.replicate (point - digits.length).toNat '0' ++
        (if style.wholeFraction then ['.', '0'] else [])
    else digits.take point.toNat ++ '.' :: digits.drop point.toNat
  else
    match digits with
    | [] => []
    | [d] => d :: exponentText (point - 1)
    | d :: rest => d :: '.' :: (rest ++ exponentText (point - 1))

/-- The decimal with `count` significant digits nearest to a positive double. -/
def significant (count : Nat) (mantissa : Nat) (exponent : Int) : Decimal :=
  let n := mantissa * twoPow exponent.toNat
  let d := twoPow (-exponent).toNat
  let scale := pointPosition n d - count
  let (v, e) := onGrid n d scale
  stripZeros (count + 1) ⟨roundHalfEven v e, scale⟩

end Decimal

namespace Binary64

/-- Writes the sign and the special values; `finite` writes the magnitude. -/
def signed (finite : Nat → Int → List Char) (x : Float) : String :=
  match parts x with
  | .nan => "nan"
  | .infinite negative => if negative then "-inf" else "inf"
  | .finite negative mantissa exponent =>
    String.ofList ((if negative then ['-'] else []) ++ finite mantissa exponent)

/-- The shortest text that reads back as the same double. -/
def display : Float → String :=
  signed fun mantissa exponent =>
    if mantissa = 0 then Decimal.write .plain ⟨0, 0⟩
    else Decimal.write .plain (Decimal.shortest mantissa exponent)

/-- Six significant digits without trailing zeros. -/
def displayGeneral : Float → String :=
  signed fun mantissa exponent =>
    if mantissa = 0 then Decimal.write .general ⟨0, 0⟩
    else Decimal.write .general (Decimal.significant 6 mantissa exponent)

/-- Exactly `places` digits after the point; the exact value is rounded, halfway to even. -/
def displayFixed (places : Nat) : Float → String :=
  signed fun mantissa exponent =>
    let n := mantissa * twoPow exponent.toNat * tenPow places
    let digits := Nat.toDigits 10 (roundHalfEven n (twoPow (-exponent).toNat))
    let padded := List.replicate (places + 1 - digits.length) '0' ++ digits
    let whole := padded.length - places
    padded.take whole ++ (if places = 0 then [] else '.' :: padded.drop whole)

end Binary64

namespace Number

/-- An integer in decimal, a double in its shortest form, a truth value by its name. -/
def display : Number → String
  | .int n => toString n
  | .double x => Binary64.display x
  | .truth b => if b then "True" else "False"

/-- Fixed places; integers beyond the range of doubles have no such text. -/
def fixed? (places : Nat) (n : Number) : Option String :=
  n.toFloat?.map (Binary64.displayFixed places)

end Number

end HostWatch
