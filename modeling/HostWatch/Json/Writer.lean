import HostWatch.Json.Limits
import HostWatch.Value.Display

/-!
# Writing JSON

`Json.render` writes a value on one line or indented, and escapes characters outside ASCII if asked
to. The control characters are always escaped, so a one-line text holds no line break. A value that
holds an integer of too many digits, or whose lists and objects lie too deep in each other, is not
written at all.
-/

namespace HostWatch.Json

/-- How a JSON text is laid out: whether characters outside ASCII are escaped, and by how many
blanks a level is indented; without indentation all stands on one line. Times and records, which
JSON has no form for, are written as strings, unless the layout is strict. -/
structure Layout where
  ascii : Bool
  indent : Option Nat
  strict : Bool := false

/-- One line, escaped to ASCII. -/
def Layout.escaped : Layout := ⟨true, none, false⟩

/-- One line with all characters kept. -/
def Layout.plain : Layout := ⟨false, none, false⟩

/-- Indented, escaped to ASCII, and JSON only. -/
def Layout.indented : Layout := ⟨true, some 2, true⟩

/-- A UTF-16 code unit as an escape. -/
def escapeUnit (n : Nat) : List Char := '\\' :: 'u' :: Text.hex 4 n

/-- A character inside a JSON string. -/
def escapeChar (ascii : Bool) (c : Char) : List Char :=
  if c = '"' then ['\\', '"']
  else if c = '\\' then ['\\', '\\']
  else if c = '\n' then ['\\', 'n']
  else if c = '\r' then ['\\', 'r']
  else if c = '\t' then ['\\', 't']
  else if c = '\x08' then ['\\', 'b']
  else if c = '\x0c' then ['\\', 'f']
  else if c.toNat < 0x20 then escapeUnit c.toNat
  else if ascii && decide (0x7e < c.toNat) then
    if c.toNat < 0x10000 then escapeUnit c.toNat
    else
      let n := c.toNat - 0x10000
      escapeUnit (0xd800 + n / 0x400) ++ escapeUnit (0xdc00 + n % 0x400)
  else [c]

/-- A JSON string. -/
def quote (ascii : Bool) (s : List Char) : List Char := '"' :: s.flatMap (escapeChar ascii) ++ ['"']

/-- The text of a number, however long; `render` has asked before whether it is written. Doubles that
are not finite have names of their own, and so have truth values. -/
def number : Number → List Char
  | .int n => (toString n).toList
  | .truth b => if b then "true".toList else "false".toList
  | .double x =>
    match Binary64.parts x with
    | .nan => "NaN".toList
    | .infinite negative => if negative then "-Infinity".toList else "Infinity".toList
    | .finite .. => (Binary64.display x).toList

/-- The line break before an entry at a depth. -/
def lineBreak (layout : Layout) (depth : Nat) : List Char :=
  match layout.indent with
  | none => []
  | some width => '\n' :: List.replicate (width * depth) ' '

/-- What stands between two entries at a depth. -/
def separator (layout : Layout) (depth : Nat) : List Char :=
  match layout.indent with
  | none => [',', ' ']
  | some _ => ',' :: lineBreak layout depth

mutual

/-- The text of a value at a depth, whatever its size. Values without a JSON form are written as
strings. -/
def renderAt (layout : Layout) (depth : Nat) : Value → List Char
  | .null => "null".toList
  | .number n => number n
  | .text s => quote layout.ascii s.toList
  | .list [] => ['[', ']']
  | .list (v :: rest) =>
    '[' :: lineBreak layout (depth + 1) ++ renderAt layout (depth + 1) v ++
      renderItems layout (depth + 1) rest ++ lineBreak layout depth ++ [']']
  | .object [] => ['\x7b', '\x7d']
  | .object ((k, v) :: rest) =>
    '\x7b' :: lineBreak layout (depth + 1) ++ quote layout.ascii k.toList ++ ':' :: ' ' ::
      renderAt layout (depth + 1) v ++ renderFields layout (depth + 1) rest ++
      lineBreak layout depth ++ ['\x7d']
  | .moment t => quote layout.ascii t.display.toList
  | .record parts => quote layout.ascii (Value.inspect (.record parts)).toList

/-- Further items of a list. -/
def renderItems (layout : Layout) (depth : Nat) : List Value → List Char
  | [] => []
  | v :: rest => separator layout depth ++ renderAt layout depth v ++ renderItems layout depth rest

/-- Further fields of an object. -/
def renderFields (layout : Layout) (depth : Nat) : List (String × Value) → List Char
  | [] => []
  | (k, v) :: rest =>
    separator layout depth ++ quote layout.ascii k.toList ++ ':' :: ' ' ::
      renderAt layout depth v ++ renderFields layout depth rest

end

/-- The text of a value, whatever its size. -/
def textOf (layout : Layout) (v : Value) : String := String.ofList (renderAt layout 0 v)

/-- What a value is written as: as JSON only, as JSON with strings for times and records, or in the
words of the record that it is in. -/
inductive Manner where
  | strict
  | lenient
  | inRecord
  deriving DecidableEq, Repr

/-- What comes of lists and objects that lie too deep in each other. -/
def Manner.tooDeep : Manner → Obstacle
  | strict | lenient => .tooDeep
  | inRecord => .tooDeepInRecord

mutual

/-- What keeps a value from being written, as far as it is written; `room` is how deep lists and
objects may still go. -/
def obstacle? (manner : Manner) (digits room : Nat) : Value → Option Obstacle
  | .null | .text _ | .number (.truth _) | .number (.double _) => none
  | .number (.int n) =>
    if digits < (Nat.toDigits 10 n.natAbs).length then some (.tooLong digits) else none
  | .list items =>
    if room = 0 then some manner.tooDeep else obstacleInItems? manner digits (room - 1) items
  | .object fields =>
    if room = 0 then some manner.tooDeep else obstacleInFields? manner digits (room - 1) fields
  | .moment _ => if manner = .strict then some .formless else none
  | .record parts =>
    if manner = .strict then some .formless
    else if room = 0 then some .tooDeepInRecord
    else obstacleInParts? digits (room - 1) parts

def obstacleInItems? (manner : Manner) (digits room : Nat) : List Value → Option Obstacle
  | [] => none
  | v :: rest =>
    (obstacle? manner digits room v).or (obstacleInItems? manner digits room rest)

def obstacleInFields? (manner : Manner) (digits room : Nat) : List (String × Value) → Option Obstacle
  | [] => none
  | (_, v) :: rest =>
    (obstacle? manner digits room v).or (obstacleInFields? manner digits room rest)

/-- A part of a record without a name is not shown. -/
def obstacleInParts? (digits room : Nat) : List (String × Value) → Option Obstacle
  | [] => none
  | (k, v) :: rest =>
    (if k = "" then none else obstacle? .inRecord digits room v).or
      (obstacleInParts? digits room rest)

end

/-- The JSON text of a value, or what keeps it from being written. -/
def render (layout : Layout) (v : Value) (limits : Limits := {}) : Except Obstacle String :=
  match obstacle? (if layout.strict then .strict else .lenient) limits.digits limits.depth v with
  | some obstacle => .error obstacle
  | none => .ok (textOf layout v)

end HostWatch.Json
