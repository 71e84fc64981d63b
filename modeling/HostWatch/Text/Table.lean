/-!
# Tables as text

`Table.rows` reads a text of rows of fields between commas. A field between double quotes may hold
commas, line breaks, and double quotes that are written twice. A carriage return ends a row and may
only be followed by the line feed. The length of a field is limited.
-/

namespace HostWatch.Text.Table

/-- Where the reader stands within a row. -/
inductive State where
  | rowStart
  | fieldStart
  | plain
  | quoted
  /-- After a quote within a quoted field: its end, or one half of a quote. -/
  | quoteSeen
  /-- After a carriage return or a line feed. -/
  | breakSeen
  deriving DecidableEq, Repr

/-- Why a text is no table. -/
inductive Problem where
  /-- A carriage return in the middle of a line. -/
  | strayBreak
  | fieldTooLong
  deriving DecidableEq, Repr

/-- The most characters of a field. -/
def maxField : Nat := 131072

/-- What was read so far, all in reverse. -/
structure Reader where
  state : State := .rowStart
  field : List Char := []
  /-- The number of characters of the field. -/
  size : Nat := 0
  row : List String := []
  rows : List (List String) := []

namespace Reader

/-- Ends the current field. -/
def endField (r : Reader) (state : State) : Reader :=
  { r with state, field := [], size := 0, row := String.ofList r.field.reverse :: r.row }

/-- Ends the current row. -/
def endRow (r : Reader) : Reader :=
  { r with state := .rowStart, row := [], rows := r.row.reverse :: r.rows }

def push (r : Reader) (c : Char) (state : State) : Reader :=
  { r with state, field := c :: r.field, size := r.size + 1 }

def isBreak (c : Char) : Bool := c == '\n' || c == '\r'

/-- A character at the start of a field. -/
def startField (r : Reader) (c : Char) : Reader :=
  if isBreak c then r.endField .breakSeen
  else if c = '"' then { r with state := .quoted }
  else if c = ',' then r.endField .fieldStart
  else r.push c .plain

/-- The reader after one character, if that may stand here. -/
def next? (r : Reader) (c : Char) : Option Reader :=
  match r.state with
  | .rowStart => some (if isBreak c then { r with state := .breakSeen } else r.startField c)
  | .fieldStart => some (r.startField c)
  | .plain =>
    some (if isBreak c then r.endField .breakSeen
      else if c = ',' then r.endField .fieldStart
      else r.push c .plain)
  | .quoted => some (if c = '"' then { r with state := .quoteSeen } else r.push c .quoted)
  | .quoteSeen =>
    some (if c = '"' then r.push c .quoted
      else if c = ',' then r.endField .fieldStart
      else if isBreak c then r.endField .breakSeen
      else r.push c .plain)
  | .breakSeen => if isBreak c then some r else none

/-- Takes one character. -/
def step (r : Reader) (c : Char) : Except Problem Reader :=
  match r.next? c with
  | none => .error .strayBreak
  | some r => if maxField < r.size then .error .fieldTooLong else .ok r

/-- The end of a line of the text. Only within quotes does the row go on. -/
def endLine (r : Reader) : Reader :=
  match r.state with
  | .rowStart | .breakSeen => r.endRow
  | .fieldStart | .plain | .quoteSeen => (r.endField .rowStart).endRow
  | .quoted => r

/-- The end of the text: a quoted field that is still open ends here. -/
def finish (r : Reader) : List (List String) :=
  match r.state with
  | .rowStart => r.rows.reverse
  | _ => ((r.endField .rowStart).endRow).rows.reverse

end Reader

/-- Reads the characters; a line feed ends a line. -/
def readAll : Reader → List Char → Except Problem Reader
  | r, [] => .ok r
  | r, c :: rest =>
    match r.step c with
    | .error p => .error p
    | .ok r => readAll (if c = '\n' then r.endLine else r) rest

/-- The rows of a text. -/
def rows (s : String) : Except Problem (List (List String)) :=
  (readAll {} s.toList).map fun r =>
    let r := if s.toList.getLast? = some '\n' || s.isEmpty then r else r.endLine
    r.finish

end HostWatch.Text.Table
