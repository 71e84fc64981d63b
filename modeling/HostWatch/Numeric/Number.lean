import HostWatch.Numeric.Binary64

/-!
# Numbers

A `Number` is an exact integer of any size, a double, or a truth value that counts as one or zero.
Sums and differences of integers stay exact; with a double on either side they are doubles, and an
integer beyond the range of doubles then has no sum. Comparison is always exact, also between an
integer and a double.
-/

namespace HostWatch

/-- An integer, a double, or a truth value in the place of a number; the kinds are told apart
wherever a number is written. -/
inductive Number where
  | int (n : Int)
  | double (x : Float)
  | truth (b : Bool)
  deriving DecidableEq, Repr

namespace Number

instance : Inhabited Number := ⟨.int 0⟩

instance (n : Nat) : OfNat Number n := ⟨.int n⟩

instance : Coe Int Number := ⟨.int⟩

/-- What a number is worth: an integer or a double. -/
def worth : Number → Int ⊕ Float
  | .int n => .inl n
  | .double x => .inr x
  | .truth b => .inl b.toInt

/-- The nearest double, if the number is within the range of doubles. -/
def toFloat? (n : Number) : Option Float :=
  match n.worth with
  | .inl n =>
    let x := Binary64.ofInt n
    if x.isInf then none else some x
  | .inr x => some x

/-- How an integer compares with a double; nothing compares with NaN. -/
def orderIntDouble (n : Int) (x : Float) : Option Ordering :=
  match Binary64.parts x with
  | .nan => none
  | .infinite negative => some (if negative then .gt else .lt)
  | .finite negative mantissa exponent =>
    let (a, d) := Binary64.ratio negative mantissa exponent
    some (compare (n * d) a)

/-- How two numbers compare by value. -/
def order (a b : Number) : Option Ordering :=
  match a.worth, b.worth with
  | .inl m, .inl n => some (compare m n)
  | .inl m, .inr y => orderIntDouble m y
  | .inr x, .inl n => (orderIntDouble n x).map Ordering.swap
  | .inr x, .inr y =>
    if x < y then some .lt else if x == y then some .eq else if y < x then some .gt else none

/-- Equality by value: `1` and `1.0` are equal, NaN equals nothing. -/
def sameValue (a b : Number) : Bool := order a b == some .eq

def lt (a b : Number) : Bool := order a b == some .lt

def le (a b : Number) : Bool := order a b == some .lt || order a b == some .eq

instance : LT Number := ⟨fun a b => lt a b = true⟩

instance : LE Number := ⟨fun a b => le a b = true⟩

instance : DecidableLT Number := fun a b => inferInstanceAs (Decidable (lt a b = true))

instance : DecidableLE Number := fun a b => inferInstanceAs (Decidable (le a b = true))

@[simp] theorem int_lt_int {a b : Int} : (Number.int a < Number.int b) ↔ a < b := by
  change (order _ _ == _) = true ↔ _
  simp [order, worth, Int.compare_eq_lt]

@[simp] theorem int_le_int {a b : Int} : (Number.int a ≤ Number.int b) ↔ a ≤ b := by
  change (order _ _ == _ || order _ _ == _) = true ↔ _
  simp [order, worth, Int.compare_eq_lt]
  omega

/-- Applies an operation to two numbers as doubles. -/
def onDoubles? (f : Float → Float → Float) (a b : Number) : Option Float := do
  return f (← a.toFloat?) (← b.toFloat?)

/-- The sum; an integer beyond the range of doubles cannot be added to a double. -/
def add? (a b : Number) : Option Number :=
  match a.worth, b.worth with
  | .inl m, .inl n => some (.int (m + n))
  | _, _ => (onDoubles? (· + ·) a b).map .double

/-- The difference, with the same limits as the sum. -/
def sub? (a b : Number) : Option Number :=
  match a.worth, b.worth with
  | .inl m, .inl n => some (.int (m - n))
  | _, _ => (onDoubles? (· - ·) a b).map .double

/-- The quotient as a double, if it is within their range; two integers are divided exactly and
rounded once. -/
def quotient? (a b : Number) : Option Float :=
  match a.worth, b.worth with
  | .inl m, .inl n =>
    let x := Binary64.nearest (decide (m < 0) != decide (n < 0)) m.natAbs n.natAbs
    if x.isInf then none else some x
  | _, _ => onDoubles? (· / ·) a b

/-- The larger of two numbers; the first unless the second is above it. -/
def larger (a b : Number) : Number := if a < b then b else a

/-- Zero of every kind and either sign; NaN is not zero. -/
def isZero (n : Number) : Bool :=
  match n.worth with
  | .inl n => n == 0
  | .inr x => x == 0

/-- Whether the number is above zero; NaN is not. -/
def isPositive (a : Number) : Bool := decide ((0 : Number) < a)

/-- Rounds with `round`; an integer stays as it is. -/
def toInt? (round : Float → Except Binary64.Unbounded Int) (n : Number) :
    Except Binary64.Unbounded Int :=
  match n.worth with
  | .inl n => .ok n
  | .inr x => round x

def truncate? : Number → Except Binary64.Unbounded Int := toInt? Binary64.truncate?

def floor? : Number → Except Binary64.Unbounded Int := toInt? Binary64.floor?

def ceil? : Number → Except Binary64.Unbounded Int := toInt? Binary64.ceil?

/-- The integer that a number with no fractional part stands for. -/
def integral? (n : Number) : Option Int :=
  match n.worth with
  | .inl n => some n
  | .inr x =>
    match Binary64.parts x with
    | .finite negative mantissa exponent =>
      let (n, d) := Binary64.ratio negative mantissa exponent
      if n % d = 0 then some (n / d) else none
    | _ => none

end Number

end HostWatch
