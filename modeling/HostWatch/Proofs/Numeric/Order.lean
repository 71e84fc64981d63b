import HostWatch.Proofs.Numeric.Equality

/-!
# The order of numbers

Numbers compare as the points do at which they stand (`Number.order_eq_compare`), integers and doubles
alike; what has no point is not a number and compares with nothing. So numbers that are equal by value
compare alike with everything (`Number.order_congr`).
-/

namespace HostWatch

open Float.Model Float.Model.UnpackedFloat

namespace Binary64

theorem scaled_lt {m n : Nat} {e f : Int} (hm : Canonical m e) (hn : Canonical n f) (less : e < f) :
    scaled m e < scaled n f := by
  have least := hm.least
  have short := hm.short
  have big : 2 ^ 52 ≤ n := hn.normal.resolve_right (by omega)
  have shift : (f + 1074).toNat = (f - e - 1).toNat + 1 + (e + 1074).toNat := by omega
  have one : 1 ≤ twoPow (f - e - 1).toNat := twoPow_pos _
  have double : n * 2 ≤ n * (twoPow (f - e - 1).toNat * 2) := Nat.mul_le_mul_left n (by omega)
  rw [scaled, scaled, shift, twoPow_add, ← Nat.mul_assoc, twoPow_add]
  exact Nat.mul_lt_mul_of_pos_right (Nat.lt_of_lt_of_le (by omega) double) (twoPow_pos _)

/-- Of two doubles the one with the larger exponent is the larger, and with equal exponents the one with the
larger mantissa. -/
theorem compare_scaled {m n : Nat} {e f : Int} (hm : Canonical m e) (hn : Canonical n f) :
    (compare e f).then (compare m n) = compare (scaled m e : Int) (scaled n f) := by
  rcases Int.lt_trichotomy e f with less | rfl | more
  · have below := scaled_lt hm hn less
    rw [Int.compare_eq_lt.2 less, Int.compare_eq_lt.2 (by exact_mod_cast below)]
    rfl
  · rw [Int.compare_eq_eq.2 rfl]
    have pos : 0 < twoPow (e + 1074).toNat := twoPow_pos _
    show compare m n = _
    rcases Nat.lt_trichotomy m n with less | rfl | more
    · have below : scaled m e < scaled n e := Nat.mul_lt_mul_of_pos_right less pos
      rw [Nat.compare_eq_lt.2 less, Int.compare_eq_lt.2 (by exact_mod_cast below)]
    · rw [Nat.compare_eq_eq.2 rfl, Int.compare_eq_eq.2 rfl]
    · have above : scaled n e < scaled m e := Nat.mul_lt_mul_of_pos_right more pos
      rw [Nat.compare_eq_gt.2 more, Int.compare_eq_gt.2 (by exact_mod_cast above)]
  · have above := scaled_lt hn hm more
    rw [Int.compare_eq_gt.2 more, Int.compare_eq_gt.2 (by exact_mod_cast above)]
    rfl

/-! ### Roundings are numbers -/

theorem parts_ofMagnitude_ne_nan {bits : Nat} (negative : Bool) (atMost : bits ≤ infinityBits) :
    parts (ofMagnitude negative bits) ≠ .nan := by
  have pow52 : twoPow 52 = 4503599627370496 := rfl
  have pow11 : twoPow 11 = 2048 := rfl
  have pow63 : twoPow 63 = 9223372036854775808 := rfl
  by_cases most : bits = infinityBits
  · subst most
    cases negative <;> decide
  have below : bits < 2047 * 4503599627370496 := by
    unfold infinityBits at most atMost
    rw [pow52] at most atMost
    omega
  have word : (UInt64.ofNat (bits + if negative then twoPow 63 else 0)).toNat =
      bits + if negative then twoPow 63 else 0 := by
    rw [UInt64.toNat_ofNat', Nat.mod_eq_of_lt (by split <;> omega)]
  have exponent : (UInt64.ofNat (bits + if negative then twoPow 63 else 0)).toNat / twoPow 52 % twoPow 11 ≠
      2047 := by
    rw [word, pow52, pow11, pow63]
    split <;> omega
  have same : (ofMagnitude negative bits).toBits = UInt64.ofNat (bits + if negative then twoPow 63 else 0) :=
    toBits_ofBits (valid_of_biased exponent)
  unfold parts
  dsimp only
  rw [same, if_neg exponent]
  split_ifs <;> exact Parts.noConfusion

theorem parts_ofInt_ne_nan (n : Int) : parts (ofInt n) ≠ .nan := by
  unfold ofInt nearest
  split
  · exact parts_ofMagnitude_ne_nan _ (Nat.zero_le _)
  · exact parts_ofMagnitude_ne_nan _ (Nat.min_le_right _ _)

/-! ### Points -/

/-- How two points compare; the infinities are below and above all others. -/
def comparePoints : Int ⊕ Bool → Int ⊕ Bool → Ordering
  | .inl m, .inl n => compare m n
  | .inl _, .inr negative => if negative then .gt else .lt
  | .inr negative, .inl _ => if negative then .lt else .gt
  | .inr negative, .inr negative' => compare negative' negative

theorem comparePoints_swap (p q : Int ⊕ Bool) : (comparePoints p q).swap = comparePoints q p := by
  have ints (m n : Int) : compare n m = (compare m n).swap := Std.OrientedCmp.eq_swap
  rcases p with m | a <;> rcases q with n | b
  · exact (ints m n).symm
  · cases b <;> rfl
  · cases a <;> rfl
  · cases a <;> cases b <;> rfl

end Binary64

namespace Number

open Binary64

theorem orderDoubles_eq_compare (x y : Float) : orderDoubles x y =
    (pointOf x.toModel.unpack).bind fun p => (pointOf y.toModel.unpack).map (comparePoints p) := by
  have opposite (a b : Int) : compare (-1 * a) (-1 * b) = (compare a b).swap := by
    rcases Int.lt_trichotomy a b with h | rfl | h
    · rw [Int.compare_eq_lt.2 h, Int.compare_eq_gt.2 (by omega)]
      rfl
    · rw [Int.compare_eq_eq.2 rfl, Int.compare_eq_eq.2 rfl]
      rfl
    · rw [Int.compare_eq_gt.2 h, Int.compare_eq_lt.2 (by omega)]
      rfl
  show x.toModel.unpack.compare y.toModel.unpack = _
  rcases ux : x.toModel.unpack with s | _ | s | ⟨s, m, e, pos⟩ <;>
    rcases uy : y.toModel.unpack with t | _ | t | ⟨t, n, f, pos'⟩
  case finite.finite =>
    have forward := compare_scaled (canonical_unpack ux) (canonical_unpack uy)
    have hm : (0 : Int) < scaled m e := by exact_mod_cast scaled_pos pos
    have hn : (0 : Int) < scaled n f := by exact_mod_cast scaled_pos pos'
    cases s <;> cases t
    case negative.negative =>
      exact congrArg some ((congrArg Ordering.swap forward).trans (opposite _ _).symm)
    case negative.positive =>
      exact congrArg some (Int.compare_eq_lt.2 (by simp [isNegative]; omega)).symm
    case positive.negative =>
      exact congrArg some (Int.compare_eq_gt.2 (by simp [isNegative]; omega)).symm
    case positive.positive =>
      refine congrArg some (forward.trans ?_)
      simp [isNegative, comparePoints]
  case finite.zero =>
    have hm : (0 : Int) < scaled m e := by exact_mod_cast scaled_pos pos
    cases s
    · exact congrArg some (Int.compare_eq_lt.2 (by simp [isNegative]; omega)).symm
    · exact congrArg some (Int.compare_eq_gt.2 (by simp [isNegative]; omega)).symm
  case zero.finite =>
    have hn : (0 : Int) < scaled n f := by exact_mod_cast scaled_pos pos'
    cases t
    · exact congrArg some (Int.compare_eq_gt.2 (by simp [isNegative]; omega)).symm
    · exact congrArg some (Int.compare_eq_lt.2 (by simp [isNegative]; omega)).symm
  case infinity.infinity => cases s <;> cases t <;> rfl
  case finite.infinity => cases s <;> cases t <;> rfl
  all_goals first | rfl | (cases s <;> rfl) | (cases t <;> rfl)

/-- An integer and a double compare as the multiples of the least double do. -/
theorem orderIntDouble_eq_compare (n : Int) (x : Float) : orderIntDouble n x =
    (pointOf x.toModel.unpack).map (comparePoints (.inl (n * (twoPow 1074 : Nat)))) := by
  have finite {negative : Bool} {m : Nat} {e : Int} (least : -1074 ≤ e) :
      compare (n * (ratio negative m e).2) (ratio negative m e).1 =
        compare (n * (twoPow 1074 : Nat)) ((if negative then -1 else 1) * (scaled m e : Int)) := by
    have unit : 0 < ((twoPow 1074 : Nat) : Int) := Int.natCast_pos.2 (twoPow_pos _)
    have denominator : 0 < ((ratio negative m e).2 : Int) := Int.natCast_pos.2 (ratio_pos negative m e)
    have value := @ratio_scaled negative m e least
    generalize (ratio negative m e).1 = a at value ⊢
    generalize ((ratio negative m e).2 : Int) = d at value denominator ⊢
    generalize ((twoPow 1074 : Nat) : Int) = p at value unit ⊢
    generalize (if negative then -1 else 1) * (scaled m e : Int) = v at value ⊢
    have below : n * d < a ↔ n * p < v := by
      rw [← Int.mul_lt_mul_right unit, value, Int.mul_right_comm, Int.mul_comm d v, Int.mul_lt_mul_right denominator]
    have above : a < n * d ↔ v < n * p := by
      rw [← Int.mul_lt_mul_right unit, value, Int.mul_right_comm, Int.mul_comm d v, Int.mul_lt_mul_right denominator]
    rcases Int.lt_trichotomy (n * d) a with h | h | h
    · rw [Int.compare_eq_lt.2 h, Int.compare_eq_lt.2 (below.1 h)]
    · have same : n * p = v := by omega
      rw [Int.compare_eq_eq.2 h, Int.compare_eq_eq.2 same]
    · rw [Int.compare_eq_gt.2 h, Int.compare_eq_gt.2 (above.1 h)]
  unfold orderIntDouble
  rw [parts_eq]
  rcases ux : x.toModel.unpack with s | _ | s | ⟨s, m, e, pos⟩
  case infinity => cases s <;> rfl
  case notANumber => rfl
  case zero =>
    have none : (if isNegative s then -1 else 1) * ((scaled 0 (-1074) : Nat) : Int) = 0 := by simp [scaled]
    have least : (-1074 : Int) ≤ -1074 := Int.le_refl _
    dsimp only [partsOf, pointOf]
    rw [finite least, none]
    generalize ((twoPow 1074 : Nat) : Int) = unit
    rfl
  case finite => exact congrArg some (finite (canonical_unpack ux).least)

/-- How two numbers compare, if both of them are numbers. -/
theorem order_eq_compare (a b : Number) :
    order a b = a.point?.bind fun p => b.point?.map (comparePoints p) := by
  have ints (m n : Int) : compare m n = compare (m * (twoPow 1074 : Nat)) (n * (twoPow 1074 : Nat)) := by
    have unit : 0 < ((twoPow 1074 : Nat) : Int) := Int.natCast_pos.2 (twoPow_pos _)
    generalize ((twoPow 1074 : Nat) : Int) = p at unit ⊢
    rcases Int.lt_trichotomy m n with h | rfl | h
    · rw [Int.compare_eq_lt.2 h, Int.compare_eq_lt.2 ((Int.mul_lt_mul_right unit).2 h)]
    · rw [Int.compare_eq_eq.2 rfl, Int.compare_eq_eq.2 rfl]
    · rw [Int.compare_eq_gt.2 h, Int.compare_eq_gt.2 ((Int.mul_lt_mul_right unit).2 h)]
  rcases ha : a.worth with m | x <;> rcases hb : b.worth with n | y
  · simp only [order, point?, ha, hb]
    exact congrArg some (ints m n)
  · simp only [order, point?, ha, hb]
    exact orderIntDouble_eq_compare m y
  · simp only [order, point?, ha, hb, orderIntDouble_eq_compare]
    rcases pointOf x.toModel.unpack with _ | p
    · rfl
    · exact congrArg some (comparePoints_swap _ _)
  · rw [order_of_doubles ha hb, orderDoubles_eq_compare]
    simp only [point?, ha, hb]

/-- Numbers that are equal by value compare alike with everything. -/
theorem order_congr {a b : Number} (same : a.sameValue b) (c : Number) : order a c = order b c := by
  obtain ⟨p, ha, hb⟩ := sameValue_iff.1 same
  rw [order_eq_compare, order_eq_compare, ha, hb]

/-! ### What is not a number -/

variable {a b t : Number} {x y : Float}

theorem lt_iff : a < b ↔ order a b = some .lt := by
  show (order a b == some .lt) = true ↔ _
  rw [beq_iff_eq]

theorem le_iff : a ≤ b ↔ order a b = some .lt ∨ order a b = some .eq := by
  show (order a b == some .lt || order a b == some .eq) = true ↔ _
  simp

theorem double_le_double : Number.double x ≤ .double y ↔ x ≤ y := by
  have floats : x ≤ y ↔ orderDoubles x y = some .lt ∨ orderDoubles x y = some .eq := by
    show decide ((x.toModel.unpack.compare y.toModel.unpack).any Ordering.isLE = true) = true ↔ _
    rw [decide_eq_true_iff]
    show (orderDoubles x y).any Ordering.isLE = true ↔ _
    rcases orderDoubles x y with _ | _ | _ | _ <;> decide
  rw [le_iff, floats, order_of_doubles rfl rfl]

theorem order_eq_none_iff : order a b = none ↔ a.point? = none ∨ b.point? = none := by
  rw [order_eq_compare]
  rcases a.point? with _ | p
  · simp
  · simp

/-- What is not below another number is at least that, unless they have no order. -/
theorem not_lt_iff : ¬ a < b ↔ b ≤ a ∨ order a b = none := by
  rw [lt_iff, le_iff, order_swap a b]
  rcases order a b with _ | _ | _ | _ <;> simp

theorem point?_double_eq_none_iff : (Number.double x).point? = none ↔ x.isNaN := by
  show pointOf x.toModel.unpack = none ↔ x.toModel.unpack.isNaN = true
  rcases x.toModel.unpack with s | _ | s | ⟨s, m, e, pos⟩ <;> simp [pointOf, UnpackedFloat.isNaN]

/-- A number and the nearest double are both numbers or both not. -/
theorem point?_eq_none_iff (range : t.toFloat? = some y) : t.point? = none ↔ y.isNaN := by
  rw [← point?_double_eq_none_iff]
  rcases ht : t.worth with n | x
  · have nearest : Binary64.ofInt n = y := by
      simp only [toFloat?, ht] at range
      split at range
      · cases range
      · exact Option.some.inj range
    have number : (Number.double y).point? ≠ none := by
      intro h
      rw [← nearest, point?_double_eq_none_iff] at h
      refine parts_ofInt_ne_nan n ?_
      rw [parts_eq]
      change (Binary64.ofInt n).toModel.unpack.isNaN = true at h
      rcases hu : (Binary64.ofInt n).toModel.unpack with s | _ | s | ⟨s, m, e, pos⟩ <;> rw [hu] at h
      case notANumber => rfl
      all_goals cases h
    have standing : t.point? ≠ none := by
      unfold point?
      rw [ht]
      nofun
    exact iff_of_false standing number
  · have same : x = y := by
      simp only [toFloat?, ht] at range
      exact Option.some.inj range
    subst same
    unfold point?
    rw [ht]
    rfl

end Number

end HostWatch
