import HostWatch.Value.Reading

/-!
# Keys

Things are counted and looked up under keys. Two keys are equal if they stand for the same, however
they are spelled: numbers by what they are worth and times by the instant. Equality of keys is
symmetric and transitive; a number that is not equal to itself makes a key that is not either.
-/

namespace HostWatch

/-- What a key stands for, however it is spelled. -/
inductive Identity where
  | null
  | integer (n : Int)
  /-- A double that is no integer. -/
  | double (bits : UInt64)
  | text (s : String)
  | moment (micros : Int) (zoned : Bool)
  deriving DecidableEq, Repr

/-- What a number stands for; NaN stands for nothing. -/
def Number.identity? (n : Number) : Option Identity :=
  match n.integral?, n.worth with
  | some n, _ => some (.integer n)
  | none, .inl n => some (.integer n)
  | none, .inr x => if x.isNaN then none else some (.double x.toBits)

/-- A value without parts, in the place of a key. -/
structure Key where
  spelling : Value
  deriving Repr

namespace Key

/-- The key that a text is. -/
def ofText (s : String) : Key := ⟨.text s⟩

def identity? (k : Key) : Option Identity :=
  match k.spelling with
  | .null => some .null
  | .number n => n.identity?
  | .text s => some (.text s)
  | .moment t => some (.moment t.micros t.offset.isSome)
  | .list _ | .object _ | .record _ => none

instance : BEq Key where
  beq a b := a.identity?.isSome && a.identity? == b.identity?

theorem beq_iff {a b : Key} : a == b ↔ a.identity?.isSome ∧ a.identity? = b.identity? := by
  change (a.identity?.isSome && a.identity? == b.identity?) = true ↔ _
  simp

instance : PartialEquivBEq Key where
  symm h := by
    obtain ⟨some, same⟩ := beq_iff.mp h
    exact beq_iff.mpr ⟨same ▸ some, same.symm⟩
  trans h h' := by
    obtain ⟨some, same⟩ := beq_iff.mp h
    exact beq_iff.mpr ⟨some, same.trans (beq_iff.mp h').2⟩

@[simp] theorem ofText_beq_ofText {s t : String} : (ofText s == ofText t) = decide (s = t) := by
  rw [Bool.eq_iff_iff, beq_iff]
  simp [ofText, identity?]

end Key

namespace Value

/-- A value that things can be looked up by. -/
def toKey : Value → Except Fault Key
  | .list l => .error (.wrongType (.unhashable (kindName (.list l))))
  | .object l => .error (.wrongType (.unhashable (kindName (.object l))))
  | .record l => .error (.wrongType (.unhashable (kindName (.record l))))
  | v => .ok ⟨v⟩

/-- What a loop over the value visits, as things to look up. -/
def toKeys (v : Value) : Except Fault (List Key) := do (← v.elements).mapM toKey

end Value

end HostWatch
