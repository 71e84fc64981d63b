import HostWatch.Numeric.Reading

/-!
# How much JSON there may be

Reading and writing stop at integers of too many digits and at lists and objects that lie too deep in each
other: a reader refuses such a text, and a writer such a value.
-/

namespace HostWatch.Json

/-- What is read and written at most. -/
structure Limits where
  /-- How many digits an integer may have. -/
  digits : Nat := maxIntegerDigits
  /-- How deep lists and objects may lie in each other. -/
  depth : Nat := 985

/-- What keeps a value from being written. -/
inductive Obstacle where
  /-- An integer of more digits than are written. -/
  | tooLong (digits : Nat)
  /-- Lists and objects too deep in each other. -/
  | tooDeep
  /-- They are too deep inside a record, which is written in its own words. -/
  | tooDeepInRecord
  /-- A time or a record where only JSON is written. -/
  | formless
  deriving DecidableEq, Repr

def Obstacle.message : Obstacle → String
  | tooLong digits => "Exceeds the limit (" ++ toString digits ++
      " digits) for integer string conversion; use sys.set_int_max_str_digits() to increase the limit"
  | tooDeep => "maximum recursion depth exceeded while encoding a JSON object"
  | tooDeepInRecord => "maximum recursion depth exceeded while getting the repr of an object"
  | formless => "a value has no JSON form"

end HostWatch.Json
