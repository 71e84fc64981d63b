import HostWatch.Numeric.Number
import HostWatch.OrderedMap
import HostWatch.Timestamp

/-!
# Values

`Value` is the type of everything whose shape is not fixed in advance: alert evidence, the fields of
a snapshot, the contents of JSON files.
-/

namespace HostWatch

/-- A value of any shape; a truth value is a number of its own kind. Objects keep the order of their
keys; a `record` has named parts too, but is no object: it can be asked for a part and for nothing
else. -/
inductive Value where
  | null
  | number (n : Number)
  | text (s : String)
  | list (items : List Value)
  | object (fields : List (String × Value))
  | moment (t : Timestamp)
  | record (parts : List (String × Value))
  deriving Repr

namespace Value

instance : Inhabited Value := ⟨.null⟩

instance : Coe String Value := ⟨.text⟩

/-- A truth value. -/
@[match_pattern] abbrev bool (b : Bool) : Value := .number (.truth b)

/-- An integer. -/
abbrev int (n : Int) : Value := .number (.int n)

/-- A double. -/
abbrev double (x : Float) : Value := .number (.double x)

/-- Empty values: nothing, false, zero, and texts, lists and objects without content. -/
def isEmpty : Value → Bool
  | .null => true
  | .number n => n.isZero
  | .text s => s.isEmpty
  | .list items => items.isEmpty
  | .object fields => fields.isEmpty
  | .moment _ | .record _ => false

/-- The value, unless it is empty. -/
def nonempty? (v : Value) : Option Value := if v.isEmpty then none else some v

/-- What a loop over the value visits: the items of a list, the keys of an object, the characters
of a text. -/
def elements? : Value → Option (List Value)
  | .list items => some items
  | .object fields => some (fields.map fun (k, _) => .text k)
  | .text s => some (s.toList.map fun c => .text (String.singleton c))
  | _ => none

/-- The name of the kind of a value. -/
def kindName : Value → String
  | .null => "NoneType"
  | .number (.int _) => "int"
  | .number (.double _) => "float"
  | .number (.truth _) => "bool"
  | .text _ => "str"
  | .list _ => "list"
  | .object _ => "dict"
  | .moment _ => "datetime.datetime"
  | .record _ => "types.SimpleNamespace"

/-- The first value, unless it is empty. -/
def orElse (own base : Value) : Value := if own.isEmpty then base else own

/-- A named part of an object or a record. -/
def part? (v : Value) (name : String) : Option Value :=
  match v with
  | .object fields => OrderedMap.get? fields name
  | .record parts => OrderedMap.get? parts name
  | _ => none

mutual

/-- Equality by content: numbers by value, objects whatever their order. -/
def sameContent : Value → Value → Bool
  | .null, .null => true
  | .number a, .number b => a.sameValue b
  | .text a, .text b => a == b
  | .list as, .list bs => sameItems as bs
  | .object as, .object bs => as.length == bs.length && sameFields as bs
  | .moment a, .moment b => a.micros == b.micros && a.offset.isSome == b.offset.isSome
  | .record as, .record bs => as.length == bs.length && sameFields as bs
  | _, _ => false

def sameItems : List Value → List Value → Bool
  | [], [] => true
  | a :: as, b :: bs => sameContent a b && sameItems as bs
  | _, _ => false

def sameFields : List (String × Value) → List (String × Value) → Bool
  | [], _ => true
  | (k, a) :: as, bs =>
    (match OrderedMap.get? bs k with
      | some b => sameContent a b
      | none => false) && sameFields as bs

end

end Value

end HostWatch
