import HostWatch.Json.Limits
import HostWatch.Value.Basic

/-!
# Reading JSON

`Json.parse` reads a JSON text. Besides the standard it takes the names of the doubles that are
not finite. Of a repeated key the last value counts, in the place of the first. Control characters
inside strings, leading zeros and anything after the value are refused, and so are lists and objects
that lie too deep in each other.
-/

namespace HostWatch.Json

def isSpace (c : Char) : Bool := c == ' ' || c == '\n' || c == '\r' || c == '\t'

def skipSpace (cs : List Char) : List Char := cs.dropWhile isSpace

/-- The value of a digit in base sixteen. -/
def hexValue? (c : Char) : Option Nat :=
  if '0' ≤ c ∧ c ≤ '9' then some (c.toNat - '0'.toNat)
  else if 'a' ≤ c ∧ c ≤ 'f' then some (c.toNat - 'a'.toNat + 10)
  else if 'A' ≤ c ∧ c ≤ 'F' then some (c.toNat - 'A'.toNat + 10)
  else none

/-- Reads the four digits of a code unit. -/
def unit? : List Char → Option (Nat × List Char)
  | a :: b :: c :: d :: rest => do
    let a ← hexValue? a
    let b ← hexValue? b
    let c ← hexValue? c
    let d ← hexValue? d
    some (((a * 16 + b) * 16 + c) * 16 + d, rest)
  | _ => none

/-- The character of a code unit, with the second half of a pair taken from the text that follows.
Half a pair alone is no character and becomes the replacement character. -/
def pairUp (high : Nat) (rest : List Char) : Char × List Char :=
  if 0xd800 ≤ high ∧ high < 0xdc00 then
    match rest with
    | '\\' :: 'u' :: more =>
      match unit? more with
      | some (low, after) =>
        if 0xdc00 ≤ low ∧ low < 0xe000 then
          (Char.ofNat (0x10000 + (high - 0xd800) * 0x400 + (low - 0xdc00)), after)
        else ('\ufffd', rest)
      | none => ('\ufffd', rest)
    | _ => ('\ufffd', rest)
  else if 0xdc00 ≤ high ∧ high < 0xe000 then ('\ufffd', rest)
  else (Char.ofNat high, rest)

/-- The character of an escape without digits. -/
def simpleEscape? (c : Char) : Option Char :=
  if c = '"' ∨ c = '\\' ∨ c = '/' then some c
  else if c = 'b' then some '\x08'
  else if c = 'f' then some '\x0c'
  else if c = 'n' then some '\n'
  else if c = 'r' then some '\r'
  else if c = 't' then some '\t'
  else none

/-- Reads a string after its opening quote, in reverse before what follows. -/
def stringBody? : Nat → List Char → List Char → Option (List Char × List Char)
  | 0, _, _ => none
  | fuel + 1, read, cs =>
    match cs with
    | [] => none
    | '"' :: rest => some (read.reverse, rest)
    | '\\' :: 'u' :: rest => do
      let (n, rest) ← unit? rest
      let (c, rest) := pairUp n rest
      stringBody? fuel (c :: read) rest
    | '\\' :: e :: rest => do
      let c ← simpleEscape? e
      stringBody? fuel (c :: read) rest
    | c :: rest => if c.toNat < 0x20 then none else stringBody? fuel (c :: read) rest

/-- The digits before the point of a number; after a zero there are no more. -/
def wholePart (cs : List Char) : List Char :=
  match cs with
  | '0' :: _ => ['0']
  | _ => cs.takeWhile Char.isDigit

/-- Splits off the fraction of a number: a point and at least one digit. -/
def takeFraction : List Char → List Char × List Char
  | '.' :: rest =>
    if (rest.takeWhile Char.isDigit).isEmpty then ([], '.' :: rest)
    else (rest.takeWhile Char.isDigit, rest.dropWhile Char.isDigit)
  | cs => ([], cs)

/-- Splits off the exponent of a number, if one follows. -/
def takeExponent (cs : List Char) : Option Int × List Char :=
  match cs with
  | e :: rest =>
    if e = 'e' ∨ e = 'E' then
      let (negative, digits) := Decimal.takeSign rest
      let ds := digits.takeWhile Char.isDigit
      if ds.isEmpty then (none, cs)
      else
        let n : Int := digitsValue ds
        (some (if negative then -n else n), digits.dropWhile Char.isDigit)
    else (none, cs)
  | [] => (none, cs)

/-- Reads a number after its sign. A point or an exponent makes it a double; an integer may have
only so many digits. -/
def number? (digits : Nat) (negative : Bool) (cs : List Char) : Option (Number × List Char) :=
  let whole := wholePart cs
  if whole.isEmpty then none
  else
    let (part, rest) := takeFraction (cs.drop whole.length)
    let (exponent, rest) := takeExponent rest
    if part.isEmpty && exponent.isNone then
      if digits < whole.length then none
      else
        let n : Int := digitsValue whole
        some (.int (if negative then -n else n), rest)
    else
      let x := Decimal.toFloat negative (digitsValue (whole ++ part))
        (exponent.getD 0 - part.length)
      some (.double x, rest)

/-- What follows a given beginning. -/
def after? : List Char → List Char → Option (List Char)
  | [], cs => some cs
  | _ :: _, [] => none
  | p :: ps, c :: cs => if p = c then after? ps cs else none

/-- Reads a word or a number. -/
def scalar? (digits : Nat) (cs : List Char) : Option (Value × List Char) :=
  match cs with
  | 'n' :: _ => (after? "null".toList cs).map fun rest => (.null, rest)
  | 't' :: _ => (after? "true".toList cs).map fun rest => (.bool true, rest)
  | 'f' :: _ => (after? "false".toList cs).map fun rest => (.bool false, rest)
  | 'N' :: _ => (after? "NaN".toList cs).map fun rest => (.double (0 / 0), rest)
  | 'I' :: _ => (after? "Infinity".toList cs).map fun rest => (.double (1 / 0), rest)
  | '-' :: 'I' :: _ => (after? "-Infinity".toList cs).map fun rest => (.double (-1 / 0), rest)
  | '-' :: rest => (number? digits true rest).map fun (n, rest) => (.number n, rest)
  | _ => (number? digits false cs).map fun (n, rest) => (.number n, rest)

/-- Why a text is not read. -/
inductive Refusal where
  /-- It is no JSON. -/
  | malformed
  /-- Its lists and objects lie too deep in each other. -/
  | tooDeep
  deriving DecidableEq, Repr

/-- What must be there for a text to be well formed. -/
def required {α : Type} : Option α → Except Refusal α
  | some a => .ok a
  | none => .error .malformed

mutual

/-- Reads a value that starts at the first character. Every step uses up fuel, and two steps use up
at least one character; `room` is how deep lists and objects may still go. -/
def value (digits : Nat) : Nat → Nat → List Char → Except Refusal (Value × List Char)
  | 0, _, _ => .error .malformed
  | fuel + 1, room, cs =>
    match cs, room with
    | '"' :: rest, _ => do
      let (s, rest) ← required (stringBody? (fuel + 1) [] rest)
      return (.text (String.ofList s), rest)
    | '[' :: _, 0 | '\x7b' :: _, 0 => .error .tooDeep
    | '[' :: rest, room + 1 =>
      match skipSpace rest with
      | ']' :: rest => .ok (.list [], rest)
      | rest => do
        let (items, rest) ← items digits fuel room rest
        return (.list items, rest)
    | '\x7b' :: rest, room + 1 =>
      match skipSpace rest with
      | '\x7d' :: rest => .ok (.object [], rest)
      | rest => do
        let (fields, rest) ← fields digits fuel room rest
        return (.object (OrderedMap.ofPairs fields), rest)
    | _, _ => required (scalar? digits cs)

/-- Reads the items of a list up to its closing bracket. -/
def items (digits : Nat) : Nat → Nat → List Char → Except Refusal (List Value × List Char)
  | 0, _, _ => .error .malformed
  | fuel + 1, room, cs => do
    let (v, rest) ← value digits fuel room cs
    match skipSpace rest with
    | ']' :: rest => return ([v], rest)
    | ',' :: rest => do
      let (more, rest) ← items digits fuel room (skipSpace rest)
      return (v :: more, rest)
    | _ => throw .malformed

/-- Reads the fields of an object up to its closing brace. -/
def fields (digits : Nat) :
    Nat → Nat → List Char → Except Refusal (List (String × Value) × List Char)
  | 0, _, _ => .error .malformed
  | fuel + 1, room, cs =>
    match cs with
    | '"' :: rest => do
      let (key, rest) ← required (stringBody? (fuel + 1) [] rest)
      match skipSpace rest with
      | ':' :: rest => do
        let (v, rest) ← value digits fuel room (skipSpace rest)
        match skipSpace rest with
        | '\x7d' :: rest => return ([(String.ofList key, v)], rest)
        | ',' :: rest => do
          let (more, rest) ← fields digits fuel room (skipSpace rest)
          return ((String.ofList key, v) :: more, rest)
        | _ => throw .malformed
      | _ => throw .malformed
    | _ => .error .malformed

end

/-- Reads a whole text as one value. -/
def parse (s : String) (limits : Limits := {}) : Except Refusal Value := do
  let cs := skipSpace s.toList
  let (v, rest) ← value limits.digits (2 * cs.length + 2) limits.depth cs
  if (skipSpace rest).isEmpty then return v else throw .malformed

end HostWatch.Json
