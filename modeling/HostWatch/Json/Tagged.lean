import HostWatch.Json.Reader
import HostWatch.Json.Writer

/-!
# Tagged values

JSON has no form for dates, records, infinities and what is not a number. `Json.tag` writes each of
them as an object with a single field whose name is a tag, and `Json.untag` takes such objects
back.
-/

namespace HostWatch.Json

def floatTag : String := "$float"

def momentTag : String := "$datetime"

def recordTag : String := "$obj"

/-- The double without digits that a name stands for. -/
def floatNamed? (name : String) : Option Float :=
  if name = "nan" then some (0 / 0)
  else if name = "inf" then some (1 / 0)
  else if name = "-inf" then some (-1 / 0)
  else none

/-- The name of a double without digits. -/
def floatName? (x : Float) : Option String :=
  match Binary64.parts x with
  | .nan => some "nan"
  | .infinite negative => some (if negative then "-inf" else "inf")
  | .finite .. => none

/-- What an object with these fields stands for. -/
def ofTagged : List (String × Value) → Value
  | [(tag, v)] =>
    match v with
    | .text s =>
      if tag = floatTag then ((floatNamed? s).map Value.double).getD (.object [(tag, v)])
      else if tag = momentTag then
        ((Timestamp.parse? s).map Value.moment).getD (.object [(tag, v)])
      else .object [(tag, v)]
    | .object parts => if tag = recordTag then .record parts else .object [(tag, v)]
    | _ => .object [(tag, v)]
  | fields => .object fields

mutual

/-- Replaces all that JSON has no form for by objects with a tag. -/
def tag : Value → Value
  | .number (.double x) =>
    match floatName? x with
    | some name => .object [(floatTag, .text name)]
    | none => .double x
  | .moment t => .object [(momentTag, .text t.iso)]
  | .record parts => .object [(recordTag, .object (tagFields parts))]
  | .object fields => .object (tagFields fields)
  | .list items => .list (tagItems items)
  | v => v

def tagItems : List Value → List Value
  | [] => []
  | v :: items => tag v :: tagItems items

def tagFields : List (String × Value) → List (String × Value)
  | [] => []
  | (k, v) :: fields => (k, tag v) :: tagFields fields

end

mutual

/-- Replaces objects with a tag by what they stand for. -/
def untag : Value → Value
  | .object fields => ofTagged (untagFields fields)
  | .list items => .list (untagItems items)
  | v => v

def untagItems : List Value → List Value
  | [] => []
  | v :: items => untag v :: untagItems items

def untagFields : List (String × Value) → List (String × Value)
  | [] => []
  | (k, v) :: fields => (k, untag v) :: untagFields fields

end

/-- Reads a value in which tags may occur. -/
def readTagged? (s : String) : Option Value := (parse s).toOption.map untag

/-- Writes a value with tags on one line, whatever its size. -/
def writeTagged (v : Value) : String := textOf .escaped (tag v)

end HostWatch.Json
