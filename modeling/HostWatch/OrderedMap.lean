/-!
# Maps that keep their order

An `OrderedMap` lists its entries in the order in which their keys were first set. Setting a key
again changes its value and neither its place nor its spelling. Keys are compared by `==`, which has
to be symmetric and transitive; a key that is not even equal to itself is never found again.
-/

namespace HostWatch

abbrev OrderedMap (κ : Type) (α : Type) := List (κ × α)

namespace OrderedMap

variable {κ α : Type} [BEq κ]

/-- The value of a key. -/
def get? : OrderedMap κ α → κ → Option α
  | [], _ => none
  | (k, a) :: m, key => if k == key then some a else get? m key

/-- Gives a key a value. -/
def set : OrderedMap κ α → κ → α → OrderedMap κ α
  | [], key, b => [(key, b)]
  | (k, a) :: m, key, b => if k == key then (k, b) :: m else (k, a) :: set m key b

/-- Sets the pairs one after another; of a repeated key the last value stands in the first place. -/
def ofPairs (pairs : List (κ × α)) : OrderedMap κ α :=
  pairs.foldl (fun m (k, a) => set m k a) []

/-- Sets every entry of the second map in the first. -/
def update (m n : OrderedMap κ α) : OrderedMap κ α := n.foldl (fun m (k, a) => set m k a) m

def keys (m : OrderedMap κ α) : List κ := m.map Prod.fst

def contains (m : OrderedMap κ α) (key : κ) : Bool := (get? m key).isSome

@[simp] theorem get?_nil (key : κ) : get? ([] : OrderedMap κ α) key = none := rfl

theorem get?_set [PartialEquivBEq κ] (m : OrderedMap κ α) (key key' : κ) (b : α) :
    get? (set m key b) key' = if key == key' then some b else get? m key' := by
  induction m with
  | nil => rfl
  | cons e m ih =>
    obtain ⟨k, a⟩ := e
    by_cases h : k == key
    · have heq : (k == key') = (key == key') := BEq.congr_left h
      by_cases h' : key == key' <;> simp [set, get?, h, heq, h']
    · by_cases h' : k == key'
      · have hne : (key == key') = false :=
          Bool.eq_false_iff.mpr fun hk => h (BEq.trans h' (BEq.symm hk))
        simp [set, get?, h, h', hne]
      · simp [set, get?, h, h', ih]

theorem mem_keys_set [LawfulBEq κ] (m : OrderedMap κ α) (key key' : κ) (b : α) :
    key' ∈ keys (set m key b) ↔ key' = key ∨ key' ∈ keys m := by
  induction m with
  | nil => simp [set, keys]
  | cons e m ih =>
    obtain ⟨k, a⟩ := e
    by_cases h : k == key
    · obtain rfl := eq_of_beq h
      simp [set, keys]
    · simp only [set, h, keys, List.map_cons, List.mem_cons] at ih ⊢
      simp only [Bool.false_eq_true, if_false, List.map_cons, List.mem_cons]
      rw [ih]
      exact or_left_comm

end OrderedMap

end HostWatch
