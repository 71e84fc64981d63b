import HostWatch.Numeric.Number
import HostWatch.Text.Blank
import HostWatch.Text.Digit

/-!
# Reading numbers

`Decimal.toFloat` gives the double nearest to a decimal, and `readFloat?` reads what a person may
write for a number: blanks around it, digits of any script, underscores between digits.
-/

namespace HostWatch

/-- The value of a run of digits. -/
def digitsValue (cs : List Char) : Nat := cs.foldl (fun n c => 10 * n + (c.toNat - '0'.toNat)) 0

namespace Decimal

/-- The double nearest to `± digits * 10 ^ scale`. Scales that are certainly out of range are not
expanded. -/
def toFloat (negative : Bool) (digits : Nat) (scale : Int) : Float :=
  if digits = 0 then Binary64.nearest negative 0 1
  else
    let size := ((Nat.toDigits 10 digits).length : Int) + scale
    if 400 < size then Binary64.ofMagnitude negative Binary64.infinityBits
    else if size < -400 then Binary64.nearest negative 0 1
    else if 0 ≤ scale then Binary64.nearest negative (digits * tenPow scale.toNat) 1
    else Binary64.nearest negative digits (tenPow (-scale).toNat)

/-- Reads an optional sign. -/
def takeSign : List Char → Bool × List Char
  | '-' :: cs => (true, cs)
  | '+' :: cs => (false, cs)
  | cs => (false, cs)

/-- Reads an exponent that ends the text; no text is exponent zero. -/
def exponent? : List Char → Option Int
  | [] => some 0
  | e :: cs =>
    if e = 'e' ∨ e = 'E' then
      let (negative, ds) := takeSign cs
      if ds ≠ [] ∧ ds.all Char.isDigit then
        some (if negative then -(digitsValue ds : Int) else digitsValue ds)
      else none
    else none

/-- Reads digits with an optional point and an optional exponent. -/
def readUnsigned? (negative : Bool) (cs : List Char) : Option Float :=
  let whole := cs.takeWhile Char.isDigit
  let rest := cs.dropWhile Char.isDigit
  let (part, rest) :=
    match rest with
    | '.' :: rest => (rest.takeWhile Char.isDigit, rest.dropWhile Char.isDigit)
    | _ => ([], rest)
  if whole = [] ∧ part = [] then none
  else (exponent? rest).map fun e =>
    toFloat negative (digitsValue (whole ++ part)) (e - part.length)

end Decimal

/-- Removes underscores, each of which has to stand between two digits. -/
def dropUnderscores? : Option Char → List Char → Option (List Char)
  | _, [] => some []
  | previous, '_' :: rest =>
    match previous, rest with
    | some p, next :: _ =>
      if p.isDigit && next.isDigit then dropUnderscores? (some '_') rest else none
    | _, _ => none
  | _, c :: rest => (dropUnderscores? (some c) rest).map (c :: ·)

/-- Digits of other scripts as ASCII digits and blanks outside ASCII as plain ones. -/
def asciiDigit (c : Char) : Char :=
  if c.toNat < 128 then c
  else if Text.isBlank c then ' '
  else match Text.digitValue? c with
    | some d => Char.ofNat ('0'.toNat + d)
    | none => c

/-- The characters of a number, without blanks around them and underscores within. -/
def numeral? (s : String) : Option (List Char) :=
  let isSpace (c : Char) : Bool := c == ' ' || (decide (0x9 ≤ c.toNat) && decide (c.toNat ≤ 0xd))
  dropUnderscores? none (Text.trimBoth isSpace (s.toList.map asciiDigit))

/-- The double that a text names. -/
def readFloat? (s : String) : Option Float := do
  let (negative, cs) := Decimal.takeSign (← numeral? s)
  let word := String.ofList (cs.map Char.toLower)
  if word = "inf" ∨ word = "infinity" then
    some (Binary64.ofMagnitude negative Binary64.infinityBits)
  else if word = "nan" then some (0 / 0)
  else Decimal.readUnsigned? negative cs

/-- The most digits of an integer that is read from a text. -/
def maxIntegerDigits : Nat := 4300

/-- The integer that a text names. -/
def readInt? (s : String) : Option Int := do
  let (negative, ds) := Decimal.takeSign (← numeral? s)
  if ds.isEmpty || !ds.all Char.isDigit || decide (maxIntegerDigits < ds.length) then none
  else
    let n : Int := digitsValue ds
    some (if negative then -n else n)

end HostWatch
