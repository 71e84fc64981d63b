import HostWatch.Numeric.Binary64

/-!
# Dates and times

A `Timestamp` is a time of day on a date of the Gregorian calendar, with its offset from universal
time where one is known. `Timestamp.micros` is the instant it names and `Timestamp.parse?` reads
what `Timestamp.iso` writes.
-/

namespace HostWatch

/-- A date and time to the microsecond; `offset` is in microseconds east of universal time. -/
structure Timestamp where
  year : Nat
  month : Nat
  day : Nat
  hour : Nat
  minute : Nat
  second : Nat
  micro : Nat
  offset : Option Int
  deriving DecidableEq, Repr

namespace Timestamp

/-- Days from 1970-01-01 to a date of the Gregorian calendar. -/
def daysFromCivil (year month day : Nat) : Int :=
  let y : Int := if month ≤ 2 then (year : Int) - 1 else year
  let era := Int.fdiv y 400
  let yearOfEra := y - era * 400
  let shifted : Int := (month + 9) % 12
  let dayOfYear := (153 * shifted + 2) / 5 + day - 1
  let dayOfEra := yearOfEra * 365 + yearOfEra / 4 - yearOfEra / 100 + dayOfYear
  era * 146097 + dayOfEra - 719468

/-- The date so many days after 1970-01-01, as year, month and day. -/
def civilFromDays (days : Int) : Nat × Nat × Nat :=
  let z := days + 719468
  let era := Int.fdiv z 146097
  let dayOfEra := (z - era * 146097).toNat
  let yearOfEra := (dayOfEra - dayOfEra / 1460 + dayOfEra / 36524 - dayOfEra / 146096) / 365
  let dayOfYear := dayOfEra - (365 * yearOfEra + yearOfEra / 4 - yearOfEra / 100)
  let shifted := (5 * dayOfYear + 2) / 153
  let day := dayOfYear - (153 * shifted + 2) / 5 + 1
  let month := if shifted < 10 then shifted + 3 else shifted - 9
  let year := (era * 400 + yearOfEra + if month ≤ 2 then 1 else 0).toNat
  (year, month, day)

/-- The shown date and time in seconds since 1970-01-01, whatever the offset. -/
def localSeconds (t : Timestamp) : Int :=
  daysFromCivil t.year t.month t.day * 86400 + (t.hour * 3600 + t.minute * 60 + t.second : Nat)

/-- Microseconds since 1970-01-01 in universal time; a time without offset is universal time. -/
def micros (t : Timestamp) : Int := t.localSeconds * 1000000 + t.micro - t.offset.getD 0

/-- Seconds since 1970-01-01 as a double. With a known offset the exact instant is rounded once; the
time of a timestamp without one is added to its fraction. -/
def seconds (t : Timestamp) : Float :=
  if t.offset.isSome then
    Binary64.nearest (decide (t.micros < 0)) t.micros.natAbs 1000000
  else
    Binary64.ofInt t.localSeconds + Binary64.nearest false t.micro 1000000

/-- The universal time so many microseconds after 1970-01-01. -/
def ofMicros (n : Int) : Timestamp :=
  let seconds := Int.fdiv n 1000000
  let days := Int.fdiv seconds 86400
  let inDay := (seconds - days * 86400).toNat
  let (year, month, day) := civilFromDays days
  { year, month, day, hour := inDay / 3600, minute := inDay / 60 % 60, second := inDay % 60,
    micro := (n - seconds * 1000000).toNat, offset := some 0 }

/-- A number with at least `width` digits. -/
def padded (width n : Nat) : String :=
  let digits := toString n
  String.ofList (List.replicate (width - digits.length) '0') ++ digits

/-- A fraction of a second, shown only if there is one, with six digits. -/
def fraction (micro : Nat) : String := if micro = 0 then "" else "." ++ padded 6 micro

/-- An offset as hours and minutes, with seconds and fraction only if there are any. -/
def offsetText (offset : Int) : String :=
  let n := offset.natAbs
  let seconds := n / 1000000
  (if offset < 0 then "-" else "+") ++ padded 2 (seconds / 3600) ++ ":" ++
    padded 2 (seconds / 60 % 60) ++
    if n % 60000000 = 0 then "" else ":" ++ padded 2 (seconds % 60) ++ fraction (n % 1000000)

/-- Date, separator, time of day and offset. -/
def render (separator : String) (t : Timestamp) : String :=
  padded 4 t.year ++ "-" ++ padded 2 t.month ++ "-" ++ padded 2 t.day ++ separator ++
    padded 2 t.hour ++ ":" ++ padded 2 t.minute ++ ":" ++ padded 2 t.second ++ fraction t.micro ++
    (t.offset.map offsetText).getD ""

/-- The ISO 8601 form. -/
def iso (t : Timestamp) : String := render "T" t

/-- The form with a blank between date and time. -/
def display (t : Timestamp) : String := render " " t

/-- Takes exactly `count` digits. -/
def takeDigits? (count : Nat) (cs : List Char) : Option (Nat × List Char) :=
  let (ds, rest) := cs.splitAt count
  if ds.length = count ∧ ds.all Char.isDigit then
    some (ds.foldl (fun n c => 10 * n + (c.toNat - '0'.toNat)) 0, rest)
  else none

/-- Reads the fraction after a point to the microsecond; further digits are dropped. -/
def takeFraction (cs : List Char) : Nat × List Char :=
  let ds := cs.takeWhile Char.isDigit
  let six := (ds ++ List.replicate 6 '0').take 6
  (six.foldl (fun n c => 10 * n + (c.toNat - '0'.toNat)) 0, cs.dropWhile Char.isDigit)

/-- Reads `HH[:MM[:SS[.fraction]]]`, with or without colons. -/
def takeClock? (cs : List Char) : Option ((Nat × Nat × Nat × Nat) × List Char) := do
  let skipColon : List Char → List Char
    | ':' :: rest => rest
    | cs => cs
  let (hour, cs) ← takeDigits? 2 cs
  match takeDigits? 2 (skipColon cs) with
  | none => some ((hour, 0, 0, 0), cs)
  | some (minute, cs) =>
    match takeDigits? 2 (skipColon cs) with
    | none => some ((hour, minute, 0, 0), cs)
    | some (second, cs) =>
      match cs with
      | '.' :: cs | ',' :: cs =>
        let (micro, cs) := takeFraction cs
        some ((hour, minute, second, micro), cs)
      | _ => some ((hour, minute, second, 0), cs)

/-- Reads an offset that ends the text. One of less than a second counts as none at all. -/
def takeOffset? : List Char → Option (Option Int)
  | [] => some none
  | ['Z'] => some (some 0)
  | sign :: cs =>
    if sign = '+' ∨ sign = '-' then
      match takeClock? cs with
      | some ((hour, minute, second, micro), []) =>
        let seconds := hour * 3600 + minute * 60 + second
        let n : Int := if seconds = 0 then 0 else (seconds * 1000000 + micro : Nat)
        some (some (if sign = '-' then -n else n))
      | _ => none
    else none

/-- Reads a date, a separator of one character, a time of day and an optional offset. A date alone
is midnight. -/
def parse? (s : String) : Option Timestamp := do
  let (year, cs) ← takeDigits? 4 s.toList
  let '-' :: cs := cs | none
  let (month, cs) ← takeDigits? 2 cs
  let '-' :: cs := cs | none
  let (day, cs) ← takeDigits? 2 cs
  match cs with
  | [] => some { year, month, day, hour := 0, minute := 0, second := 0, micro := 0, offset := none }
  | _ :: cs =>
    let ((hour, minute, second, micro), cs) ← takeClock? cs
    let offset ← takeOffset? cs
    some { year, month, day, hour, minute, second, micro, offset }

end Timestamp

end HostWatch
