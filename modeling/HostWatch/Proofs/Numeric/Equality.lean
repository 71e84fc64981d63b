import HostWatch.Proofs.Numeric.Encoding

/-!
# Equal numbers

Equality by value is transitive, also between integers and doubles: a double has one way to be encoded
(`Canonical.unique`), so two doubles that equal one integer equal each other. Zero alone has two, and these
are equal. Hence `Value.sameContent_trans`, for everything that things can be looked up by.
-/

namespace HostWatch

open Float.Model Float.Model.UnpackedFloat

namespace Binary64

/-- How the mantissa and the exponent of a double that is not zero are chosen. -/
structure Canonical (m : Nat) (e : Int) : Prop where
  pos : 0 < m
  short : m < 2 ^ 53
  least : -1074 ≤ e
  normal : 2 ^ 52 ≤ m ∨ e = -1074

theorem canonical_unpack {x : Float} {s : Sign} {m : Nat} {e : Int} {pos : 0 < m}
    (h : x.toModel.unpack = .finite s m e pos) : Canonical m e := by
  obtain ⟨⟨b, hb⟩⟩ := x
  let w : BitVec Format.binary64.numBits := b.toBitVec
  have fraction : (unpackMantissa w).toNat < 2 ^ 52 := (unpackMantissa w).isLt
  change UnpackedFloat.unpack .binary64 w = _ at h
  unfold UnpackedFloat.unpack at h
  dsimp only at h
  by_cases special : unpackExponent w = -1#_
  · rw [if_pos special] at h
    split at h <;> cases h
  rw [if_neg special] at h
  -- A subnormal double has the least exponent, and a normal one has the leading bit.
  by_cases small : unpackExponent w = 0#_
  · rw [if_pos small] at h
    split at h
    · cases h
    · rw [small] at h
      cases h
      exact ⟨pos, by omega, by decide, .inr (by decide)⟩
  · rw [if_neg small] at h
    have positive : (unpackExponent w).toNat ≠ 0 := fun h => small (BitVec.eq_of_toNat_eq h)
    have mantissa : (1#1 ++ unpackMantissa w).toNat = 2 ^ 52 + (unpackMantissa w).toNat := toNat_one_append _
    injection h with _ hm he
    have hm : m = 2 ^ 52 + (unpackMantissa w).toNat := hm.symm.trans mantissa
    have he : e = (unpackExponent w).toNat - 1075 := he.symm
    clear mantissa
    generalize (unpackMantissa w).toNat = fraction' at hm fraction
    generalize (unpackExponent w).toNat = exponent at he positive
    exact ⟨pos, by omega, by omega, .inl (by omega)⟩

/-- The mantissa of a double over the least exponent. -/
def scaled (m : Nat) (e : Int) : Nat := m * twoPow (e + 1074).toNat

theorem Canonical.exponent_le {m n : Nat} {e f : Int} (hm : Canonical m e) (hn : Canonical n f)
    (h : scaled m e = scaled n f) : f ≤ e := by
  refine Int.not_lt.1 fun less => ?_
  have he := hm.least
  have big : 2 ^ 52 ≤ n := hn.normal.resolve_right (by omega)
  have shift : (f + 1074).toNat = (f - e - 1).toNat + 1 + (e + 1074).toNat := by omega
  rw [scaled, scaled, shift, twoPow_add, ← Nat.mul_assoc, twoPow_add] at h
  have same : m = n * (twoPow (f - e - 1).toNat * 2) := Nat.eq_of_mul_eq_mul_right (twoPow_pos _) h
  have one : 1 ≤ twoPow (f - e - 1).toNat := twoPow_pos _
  have double : n * 2 ≤ n * (twoPow (f - e - 1).toNat * 2) := Nat.mul_le_mul_left n (by omega)
  have short := hm.short
  omega

theorem Canonical.unique {m n : Nat} {e f : Int} (hm : Canonical m e) (hn : Canonical n f)
    (h : scaled m e = scaled n f) : m = n ∧ e = f := by
  obtain rfl : e = f := Int.le_antisymm (hn.exponent_le hm h.symm) (hm.exponent_le hn h)
  exact ⟨Nat.eq_of_mul_eq_mul_right (twoPow_pos _) h, rfl⟩

theorem ratio_scaled {negative : Bool} {m : Nat} {e : Int} (least : -1074 ≤ e) :
    (ratio negative m e).1 * (twoPow 1074 : Nat) =
      (ratio negative m e).2 * ((if negative then -1 else 1) * (scaled m e : Int)) := by
  unfold ratio scaled
  dsimp only
  generalize (if negative then -1 else 1 : Int) = sign
  split
  · have shift : (e + 1074).toNat = e.toNat + 1074 := by omega
    rw [shift, twoPow_add]
    push_cast
    simp only [Int.one_mul, Int.mul_assoc]
  · have shift : 1074 = (-e).toNat + (e + 1074).toNat := by omega
    have power : twoPow 1074 = twoPow (-e).toNat * twoPow (e + 1074).toNat := by rw [← twoPow_add, ← shift]
    rw [power, Int.natCast_mul, Int.natCast_mul]
    dsimp only
    ac_rfl

theorem eq_ratio_iff {negative : Bool} {m : Nat} {e n : Int} (least : -1074 ≤ e) :
    n * (ratio negative m e).2 = (ratio negative m e).1 ↔
      n * (twoPow 1074 : Nat) = (if negative then -1 else 1) * (scaled m e : Int) := by
  have bottom : ((twoPow 1074 : Nat) : Int) ≠ 0 := Int.natCast_ne_zero.2 (Nat.ne_of_gt (twoPow_pos _))
  have denominator : ((ratio negative m e).2 : Int) ≠ 0 :=
    Int.natCast_ne_zero.2 (Nat.ne_of_gt (ratio_pos negative m e))
  have value := @ratio_scaled negative m e least
  generalize (ratio negative m e).1 = a at value ⊢
  generalize ((ratio negative m e).2 : Int) = d at value denominator ⊢
  generalize ((twoPow 1074 : Nat) : Int) = p at value bottom ⊢
  generalize (if negative then -1 else 1) * (scaled m e : Int) = v at value ⊢
  constructor
  · rintro rfl
    refine Int.eq_of_mul_eq_mul_left denominator ?_
    rw [← value]
    ac_rfl
  · rintro rfl
    refine Int.eq_of_mul_eq_mul_right bottom ?_
    rw [value]
    ac_rfl

/-- Where a double stands: among the multiples of the least one, or at one of the two infinities. -/
def pointOf : UnpackedFloat → Option (Int ⊕ Bool)
  | .notANumber => none
  | .infinity s => some (.inr (isNegative s))
  | .zero _ => some (.inl 0)
  | .finite s m e _ => some (.inl ((if isNegative s then -1 else 1) * (scaled m e : Int)))

theorem scaled_pos {m : Nat} {e : Int} (pos : 0 < m) : 0 < scaled m e :=
  Nat.mul_pos pos (twoPow_pos _)

/-- Doubles are equal if they stand at the same point. -/
theorem beq_iff_pointOf {x y : Float} :
    (x == y) = true ↔ ∃ p, pointOf x.toModel.unpack = some p ∧ pointOf y.toModel.unpack = some p := by
  show x.toModel.unpack.beq y.toModel.unpack = true ↔ _
  rw [beq_iff_ne_notANumber_and_eq]
  constructor
  · rintro ⟨number, -, same | ⟨hx, hy⟩ | ⟨hx, hy⟩⟩
    · rw [← same]
      rcases hx : x.toModel.unpack with s | _ | s | ⟨s, m, e, pos⟩
      case notANumber => exact absurd hx number
      all_goals exact ⟨_, rfl, rfl⟩
    all_goals
      rw [hx, hy]
      exact ⟨_, rfl, rfl⟩
  · rintro ⟨p, hx, hy⟩
    rcases ux : x.toModel.unpack with s | _ | s | ⟨s, m, e, pos⟩ <;>
      rcases uy : y.toModel.unpack with t | _ | t | ⟨t, n, f, pos'⟩ <;> rw [ux] at hx <;> rw [uy] at hy <;>
      simp only [pointOf, Option.some.injEq, reduceCtorEq] at hx hy <;> subst hx <;>
      simp only [Sum.inl.injEq, Sum.inr.injEq, reduceCtorEq] at hy
    case infinity.infinity => cases s <;> cases t <;> simp [isNegative] at hy ⊢
    case zero.zero => cases s <;> cases t <;> simp
    case zero.finite =>
      have := scaled_pos (e := f) pos'
      cases t <;> simp [isNegative] at hy <;> omega
    case finite.zero =>
      have := scaled_pos (e := e) pos
      cases s <;> simp [isNegative] at hy <;> omega
    case finite.finite =>
      have hm := canonical_unpack ux
      have hn := canonical_unpack uy
      have hpos := scaled_pos (e := e) pos
      have hpos' := scaled_pos (e := f) pos'
      have same : s = t ∧ scaled m e = scaled n f := by
        cases s <;> cases t <;> simp [isNegative] at hy ⊢ <;> omega
      obtain ⟨rfl, same⟩ := same
      obtain ⟨rfl, rfl⟩ := hm.unique hn same
      simp

theorem orderIntDouble_eq_iff {n : Int} {x : Float} :
    Number.orderIntDouble n x = some .eq ↔ pointOf x.toModel.unpack = some (.inl (n * (twoPow 1074 : Nat))) := by
  unfold Number.orderIntDouble
  rw [parts_eq]
  rcases ux : x.toModel.unpack with s | _ | s | ⟨s, m, e, pos⟩ <;> dsimp only [partsOf, pointOf]
  case infinity => exact iff_of_false (by cases s <;> decide) nofun
  case notANumber => exact iff_of_false nofun nofun
  case zero =>
    have zero : ((if isNegative s then -1 else 1 : Int) * (scaled 0 (-1074) : Int)) = 0 := by simp [scaled]
    rw [Option.some.injEq, Int.compare_eq_eq, eq_ratio_iff (by decide), zero, Option.some.injEq, Sum.inl.injEq]
    exact eq_comm
  case finite =>
    rw [Option.some.injEq, Int.compare_eq_eq, eq_ratio_iff (canonical_unpack ux).least, Option.some.injEq,
      Sum.inl.injEq]
    exact eq_comm

end Binary64

namespace Number

/-- Where a number stands. -/
def point? (n : Number) : Option (Int ⊕ Bool) :=
  match n.worth with
  | .inl n => some (.inl (n * (twoPow 1074 : Nat)))
  | .inr x => Binary64.pointOf x.toModel.unpack

theorem sameValue_iff {a b : Number} : a.sameValue b = true ↔ ∃ p, a.point? = some p ∧ b.point? = some p := by
  have whole (m n : Int) : compare m n = .eq ↔ m * (twoPow 1074 : Nat) = n * (twoPow 1074 : Nat) := by
    rw [Int.compare_eq_eq]
    have bottom : ((twoPow 1074 : Nat) : Int) ≠ 0 := Int.natCast_ne_zero.2 (Nat.ne_of_gt (Binary64.twoPow_pos _))
    exact ⟨fun h => h ▸ rfl, Int.eq_of_mul_eq_mul_right bottom⟩
  have swap (o : Option Ordering) : o.map Ordering.swap = some .eq ↔ o = some .eq := by
    rcases o with _ | _ | _ | _ <;> decide
  unfold sameValue
  rw [beq_iff_eq]
  rcases ha : a.worth with m | x <;> rcases hb : b.worth with n | y
  · simp only [order, point?, ha, hb, Option.some.injEq, whole]
    generalize ((twoPow 1074 : Nat) : Int) = unit
    simp [eq_comm]
  · simp only [order, point?, ha, hb, Binary64.orderIntDouble_eq_iff]
    generalize ((twoPow 1074 : Nat) : Int) = unit
    simp
  · simp only [order, point?, ha, hb, swap, Binary64.orderIntDouble_eq_iff]
    generalize ((twoPow 1074 : Nat) : Int) = unit
    simp [and_comm]
  · rw [order_of_doubles ha hb, ← double_beq_iff, Binary64.beq_iff_pointOf]
    simp only [point?, ha, hb]

theorem sameValue_trans {a b c : Number} (hab : a.sameValue b) (hbc : b.sameValue c) : a.sameValue c := by
  obtain ⟨p, ha, hb⟩ := sameValue_iff.1 hab
  obtain ⟨q, hb', hc⟩ := sameValue_iff.1 hbc
  obtain rfl : p = q := Option.some.inj (hb.symm.trans hb')
  exact sameValue_iff.2 ⟨p, ha, hc⟩

end Number

namespace Value

/-- Everything equal to what can be looked up is found the same way. -/
theorem sameContent_trans {a b c : Value} {k : Key} (hb : b.toKey = .ok k) (hab : a.sameContent b)
    (hbc : b.sameContent c) : a.sameContent c := by
  cases b <;> cases a <;> cases c <;> simp_all [toKey, sameContent]
  case number => exact Number.sameValue_trans hab hbc

/-- A value that things can be looked up by. -/
def Hashable (v : Value) : Prop := ∃ k, v.toKey = .ok k

theorem hashable_of_mapM {vs : List Value} {keys : List Key} (ok : vs.mapM toKey = .ok keys) :
    ∀ v ∈ vs, v.Hashable := by
  induction vs generalizing keys with
  | nil => simp
  | cons v vs ih =>
    rw [List.mapM_cons] at ok
    obtain ⟨k, hk, ok⟩ := ok_of_bind ok
    obtain ⟨ks, hks, -⟩ := ok_of_bind ok
    exact List.forall_mem_cons.2 ⟨⟨k, hk⟩, ih hks⟩

theorem sameItems_comm {as bs : List Value} (ha : ∀ a ∈ as, a.Hashable) (hb : ∀ b ∈ bs, b.Hashable) :
    sameItems as bs = sameItems bs as := by
  induction as generalizing bs with
  | nil => cases bs <;> rfl
  | cons a as ih =>
    rcases bs with _ | ⟨b, bs⟩
    · rfl
    · obtain ⟨⟨k, hk⟩, has⟩ := List.forall_mem_cons.1 ha
      obtain ⟨⟨l, hl⟩, hbs⟩ := List.forall_mem_cons.1 hb
      rw [sameItems, sameItems, sameContent_comm hk hl, ih has hbs]

theorem sameItems_trans {as bs cs : List Value} (hb : ∀ b ∈ bs, b.Hashable) (hab : sameItems as bs)
    (hbc : sameItems bs cs) : sameItems as cs := by
  induction bs generalizing as cs with
  | nil =>
    rcases as with _ | _
    · exact hbc
    · cases hab
  | cons b bs ih =>
    rcases as with _ | ⟨a, as⟩
    · cases hab
    rcases cs with _ | ⟨c, cs⟩
    · cases hbc
    obtain ⟨⟨k, hk⟩, hbs⟩ := List.forall_mem_cons.1 hb
    rw [sameItems, Bool.and_eq_true] at hab hbc ⊢
    exact ⟨sameContent_trans hk hab.1 hbc.1, ih hbs hab.2 hbc.2⟩

end Value

end HostWatch
