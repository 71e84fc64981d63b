import HostWatch.Value.Basic
import HostWatch.Numeric.Notation
import HostWatch.Text.Quoted

/-!
# Values as text

`Value.display` is the text of a value in messages. Inside lists, objects and records texts stand
between quotes, and times show their parts; of a record, a part without a name is left out.
-/

namespace HostWatch

namespace Timestamp

/-- An offset by its days, seconds and microseconds, of which only the days may be negative. -/
def inspectOffset (offset : Int) : String :=
  let day := 86400000000
  let days := Int.fdiv offset day
  let rest := offset - days * day
  let parts := [("days", days), ("seconds", rest / 1000000), ("microseconds", rest % 1000000)]
  let shown := parts.filterMap fun (name, n) =>
    if n = 0 then none else some (name ++ "=" ++ toString n)
  "datetime.timezone(datetime.timedelta(" ++ ", ".intercalate shown ++ "))"

/-- A time by its parts; a second or a microsecond of zero at the end is left out. -/
def inspect (t : Timestamp) : String :=
  let exact :=
    if t.micro = 0 then (if t.second = 0 then [] else [t.second]) else [t.second, t.micro]
  let parts := [t.year, t.month, t.day, t.hour, t.minute] ++ exact
  let zone :=
    match t.offset with
    | none => []
    | some offset =>
      ["tzinfo=" ++ if offset = 0 then "datetime.timezone.utc" else inspectOffset offset]
  "datetime.datetime(" ++ ", ".intercalate (parts.map toString ++ zone) ++ ")"

end Timestamp

namespace Value

mutual

/-- The text of a value inside another one. -/
def inspect : Value → String
  | .null => "None"
  | .number n => n.display
  | .text s => Text.quoted s
  | .list items => "[" ++ inspectItems items ++ "]"
  | .object fields => "\x7b" ++ inspectFields fields ++ "\x7d"
  | .moment t => t.inspect
  | .record parts => "namespace(" ++ ", ".intercalate (inspectParts parts) ++ ")"

def inspectItems : List Value → String
  | [] => ""
  | [v] => inspect v
  | v :: rest => inspect v ++ ", " ++ inspectItems rest

def inspectFields : List (String × Value) → String
  | [] => ""
  | [(k, v)] => Text.quoted k ++ ": " ++ inspect v
  | (k, v) :: rest => Text.quoted k ++ ": " ++ inspect v ++ ", " ++ inspectFields rest

def inspectParts : List (String × Value) → List String
  | [] => []
  | (k, v) :: rest =>
    if k = "" then inspectParts rest else (k ++ "=" ++ inspect v) :: inspectParts rest

end

/-- The text of a value; a text stands for itself, and a time is written out. -/
def display : Value → String
  | .text s => s
  | .moment t => t.display
  | v => inspect v

end Value

end HostWatch
