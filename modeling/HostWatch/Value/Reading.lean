import HostWatch.Fault
import HostWatch.Numeric.Notation
import HostWatch.Numeric.Reading
import HostWatch.Value.Access

/-!
# Values put to use

Readers that fail where a value is of a kind that cannot be used: in a comparison, in a loop, as a
number, as a key. The fault names the kind.
-/

namespace HostWatch.Value

/-- A value that is to be compared with an integer that stands on its right. -/
def comparable (symbol : String) : Value → Except Fault Number
  | .number n => .ok n
  | v => .error (.wrongType (.unordered symbol v.kindName "int"))

/-- A limit that a number of the kind `left` is to be compared with. -/
def limiting (symbol left : String) : Value → Except Fault Number
  | .number n => .ok n
  | v => .error (.wrongType (.unordered symbol left v.kindName))

/-- Whether a value is a number above zero. -/
def isPositive (v : Value) : Except Fault Bool := do
  return (← v.comparable ">").isPositive

/-- Whether a value is a number above zero; an empty value is none, whatever its kind. -/
def isPositiveIfAny (v : Value) : Except Fault Bool :=
  if v.isEmpty then .ok false else v.isPositive

/-- The double that a value stands for, also as text. -/
def toDouble : Value → Except Fault Float
  | .number n => Fault.integerTooLarge.ofOption n.toFloat?
  | .text s => (Fault.notDouble s).ofOption (readFloat? s)
  | v => .error (.wrongType (.notReal v.kindName))

/-- The integer that a value stands for, also as text; a double is cut toward zero. -/
def toInteger : Value → Except Fault Int
  | .number n => Fault.ofUnbounded n.truncate?
  | .text s => (Fault.notInteger s).ofOption (readInt? s)
  | v => .error (.wrongType (.notInteger v.kindName))

/-- A value with fixed places. -/
def toFixed (places : Nat) : Value → Except Fault String
  | .number n => Fault.integerTooLarge.ofOption (n.fixed? places)
  | .text _ => .error .noPlaces
  | v => .error (.wrongType (.noFormat v.kindName))

/-- The difference of two values. -/
def minus : Value → Value → Except Fault Number
  | .number a, .number b => Fault.integerTooLarge.ofOption (a.sub? b)
  | a, b => .error (.wrongType (.noOperation "-" a.kindName b.kindName))

/-- What a loop over the value visits. -/
def elements (v : Value) : Except Fault (List Value) :=
  (Fault.wrongType (.notIterable v.kindName)).ofOption v.elements?

/-- What a loop over the value visits; an empty value has nothing to visit, whatever its kind. -/
def elementsIfAny (v : Value) : Except Fault (List Value) :=
  if v.isEmpty then .ok [] else v.elements

/-- The text that a value is; `part` is what it is wanted for. -/
def textFor (part : String) : Value → Except Fault String
  | .text s => .ok s
  | v => .error (.missingPart v.kindName part)

/-- The path that a value is. -/
def toPath : Value → Except Fault String
  | .text s => .ok s
  | v => .error (.wrongType (.notPath v.kindName))

/-- Puts words together with blanks between them; `n` words came before. -/
def wordsFrom (n : Nat) : List Value → Except Fault (List String)
  | [] => .ok []
  | .text s :: rest => do return s :: (← wordsFrom (n + 1) rest)
  | v :: _ => .error (.wrongType (.notWord n v.kindName))

/-- The words in a value, put together with blanks between them; an empty value has none. -/
def joined (v : Value) : Except Fault String := do
  if v.isEmpty then return ""
  let items ← (Fault.wrongType .notJoinable).ofOption v.elements?
  return " ".intercalate (← wordsFrom 0 items)

end HostWatch.Value
