import HostWatch.Value.Basic

/-!
# Taking values apart

Readers that give a default where a value has another shape than the one asked for.
-/

namespace HostWatch.Value

/-- A named part, or `null`. -/
def get (v : Value) (name : String) : Value := (v.part? name).getD .null

/-- A named part, or a default where there is none. -/
def getOr (v : Value) (name : String) (default : Value) : Value := (v.part? name).getD default

/-- The fields of an object. -/
def entries : Value → List (String × Value)
  | .object fields => fields
  | _ => []

/-- The items of a list. -/
def items : Value → List Value
  | .list items => items
  | _ => []

def toText? : Value → Option String
  | .text s => some s
  | _ => none

def toText (v : Value) : String := v.toText?.getD ""

/-- The items of a list, as texts. -/
def toTexts (v : Value) : List String := v.items.map toText

def toNumber? : Value → Option Number
  | .number n => some n
  | _ => none

def toNumber (v : Value) (default : Number := 0) : Number := v.toNumber?.getD default

/-- An integer; a double counts as the integer next to it on the side of zero. -/
def toInt? (v : Value) : Option Int := do (← v.toNumber?).truncate?.toOption

def toInt (v : Value) (default : Int := 0) : Int := v.toInt?.getD default

/-- Whether there is content; `null` gives the default. -/
def toBool (v : Value) (default : Bool := false) : Bool :=
  match v with
  | .null => default
  | v => !v.isEmpty

/-- The text of a part. -/
def textAt (v : Value) (name : String) : String := (v.get name).toText

/-- The date and time that a value stands for, also as text. -/
def toMoment? : Value → Option Timestamp
  | .text s => Timestamp.parse? s
  | .moment t => some t
  | _ => none

end HostWatch.Value
