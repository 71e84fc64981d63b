import HostWatch.Value.Key

/-!
# Comparing the other way round

Numbers compared the other way round give the swapped answer, also where there is none
(`Number.order_swap`). So equality by content does not depend on the order of its sides, for all
values that things can be looked up by (`Value.sameContent_comm`).
-/

namespace HostWatch

/-- The comparison of doubles, on the parts that a double consists of. -/
theorem unpacked_compare_swap (a b : Float.Model.UnpackedFloat) :
    b.compare a = (a.compare b).map Ordering.swap := by
  have finite (e e' : Int) (m m' : Nat) : ((compare e e').then (compare m m')).swap =
      (compare e' e).then (compare m' m) := by
    rw [Ordering.swap_then, ← Std.OrientedCmp.eq_swap, ← Std.OrientedCmp.eq_swap]
  rcases a with s | _ | s | ⟨s, m, e, _⟩ <;> rcases b with t | _ | t | ⟨t, n, f, _⟩
  case finite.finite =>
    cases s <;> cases t
    case negative.negative => exact congrArg (fun o => some o.swap) (finite e f m n).symm
    case positive.positive => exact congrArg some (finite e f m n).symm
    all_goals rfl
  case infinity.infinity => cases s <;> cases t <;> rfl
  all_goals first | rfl | (cases s <;> rfl) | (cases t <;> rfl)

namespace Number

/-- How two doubles compare. -/
def orderDoubles (x y : Float) : Option Ordering := x.toModel.compare y.toModel

theorem orderDoubles_swap (x y : Float) : orderDoubles y x = (orderDoubles x y).map Ordering.swap :=
  unpacked_compare_swap _ _

theorem double_lt_iff {x y : Float} : x < y ↔ orderDoubles x y = some .lt := by
  show decide (x.toModel.lt y.toModel = true) = true ↔ _
  simp [Float.Model.lt, Float.Model.UnpackedFloat.lt, orderDoubles, Float.Model.compare]

theorem double_beq_iff {x y : Float} : (x == y) = true ↔ orderDoubles x y = some .eq := by
  show (x.toModel.unpack.compare y.toModel.unpack == some .eq) = true ↔ _
  simp [orderDoubles, Float.Model.compare]

theorem order_of_doubles {a b : Number} {x y : Float} (ha : a.worth = .inr x)
    (hb : b.worth = .inr y) : order a b = orderDoubles x y := by
  have back : y < x ↔ orderDoubles x y = some .gt := by
    rw [double_lt_iff, orderDoubles_swap]
    rcases orderDoubles x y with _ | _ | _ | _ <;> decide
  simp only [order, ha, hb, double_lt_iff, double_beq_iff, back]
  rcases orderDoubles x y with _ | _ | _ | _ <;> rfl

theorem order_swap (a b : Number) : order b a = (order a b).map Ordering.swap := by
  have ints (m n : Int) : compare n m = (compare m n).swap := Std.OrientedCmp.eq_swap
  have twice (o : Option Ordering) : (o.map Ordering.swap).map Ordering.swap = o := by
    rcases o with _ | _ | _ | _ <;> rfl
  rcases ha : a.worth with m | x <;> rcases hb : b.worth with n | y
  · simp [order, ha, hb, ints m n]
  · simp [order, ha, hb]
  · simp only [order, ha, hb, twice]
  · rw [order_of_doubles ha hb, order_of_doubles hb ha, orderDoubles_swap]

theorem sameValue_comm (a b : Number) : a.sameValue b = b.sameValue a := by
  unfold sameValue
  rw [order_swap a b]
  rcases order a b with _ | _ | _ | _ <;> rfl

/-- What is at most an integer is at most any larger one. -/
theorem le_int_mono {x : Number} {m n : Int} (h : x ≤ .int m) (le : m ≤ n) : x ≤ .int n := by
  have asOrder (k : Int) :
      x ≤ .int k ↔ order x (.int k) = some .lt ∨ order x (.int k) = some .eq := by
    show (order x (.int k) == some .lt || order x (.int k) == some .eq) = true ↔ _
    simp
  have whole (k : Int) : (Number.int k).worth = .inl k := rfl
  have swapped (o : Ordering) : o.swap = .lt ∨ o.swap = .eq ↔ o ≠ .lt := by cases o <;> simp
  rw [asOrder] at h ⊢
  rcases hx : x.worth with k | y
  · simp only [order, hx, whole, Option.some.injEq, Int.compare_eq_lt, Int.compare_eq_eq] at h ⊢
    omega
  simp only [order, hx, whole, orderIntDouble] at h ⊢
  generalize Binary64.parts y = parts at h ⊢
  rcases parts with _ | negative | ⟨negative, mantissa, exponent⟩
  · exact h
  · exact h
  · dsimp only at h ⊢
    generalize Binary64.ratio negative mantissa exponent = r at h ⊢
    have step : m * (r.2 : Int) ≤ n * r.2 := Int.mul_le_mul_of_nonneg_right le (Int.natCast_nonneg _)
    simp only [Option.map_some, Option.some.injEq, swapped, ne_eq, Int.compare_eq_lt] at h ⊢
    omega

end Number

namespace Value

theorem sameContent_comm {a b : Value} {k l : Key} (ha : a.toKey = .ok k) (hb : b.toKey = .ok l) :
    a.sameContent b = b.sameContent a := by
  cases a <;> cases b <;>
    simp_all [toKey, sameContent, Number.sameValue_comm, Bool.beq_comm, eq_comm]

end Value

end HostWatch
