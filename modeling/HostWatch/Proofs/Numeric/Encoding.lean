import HostWatch.Proofs.Comparison
import Mathlib

/-!
# Doubles and the words that encode them

The parts of a double are the fields of its word (`Binary64.parts_eq`). A whole number below `2 ^ 53` is its own
nearest double (`Binary64.parts_ofInt`), so counts that were measured as doubles are read back as they were
(`Binary64.truncate?_ofInt`).
-/

namespace HostWatch

open Float.Model Float.Model.UnpackedFloat

namespace Binary64

theorem toNat_one_append (m : BitVec 52) : (1#1 ++ m).toNat = 2 ^ 52 + m.toNat := by
  rw [BitVec.toNat_append, ← Nat.shiftLeft_add_eq_or_of_lt m.isLt]
  rfl

def isNegative : Sign → Bool
  | .negative => true
  | .positive => false

section
variable (b : BitVec Format.binary64.numBits)

theorem toNat_unpackMantissa : (unpackMantissa b).toNat = b.toNat % twoPow 52 := by
  simp [unpackMantissa]
  rfl

theorem toNat_unpackExponent : (unpackExponent b).toNat = b.toNat / twoPow 52 % twoPow 11 := by
  have shifted : b.toNat / twoPow 52 = b.toNat >>> 52 := (Nat.shiftRight_eq_div_pow _ 52).symm
  rw [shifted]
  simp [unpackExponent]
  rfl

theorem isNegative_unpackSign : isNegative (Sign.ofBitVec (unpackSign b)) = decide (twoPow 63 ≤ b.toNat) := by
  have bits : b.toNat < 2 ^ 64 := b.isLt
  have value : (unpackSign b).toNat = b.toNat / 2 ^ 63 % 2 := by
    simp [unpackSign, Nat.shiftRight_eq_div_pow]
  have split : unpackSign b = 0#1 ∨ unpackSign b = 1#1 := by
    generalize unpackSign b = v
    revert v
    decide
  show _ = decide (2 ^ 63 ≤ b.toNat)
  rcases split with h | h
  · rw [h] at value ⊢
    have low : b.toNat < 2 ^ 63 := by simp at value; omega
    rw [decide_eq_false (by omega)]
    rfl
  · rw [h] at value ⊢
    have high : 2 ^ 63 ≤ b.toNat := by simp at value; omega
    rw [decide_eq_true high]
    rfl

end

/-- What a double stands for, taken apart. -/
def partsOf : UnpackedFloat → Parts
  | .notANumber => .nan
  | .infinity s => .infinite (isNegative s)
  | .zero s => .finite (isNegative s) 0 (-1074)
  | .finite s m e _ => .finite (isNegative s) m e

theorem parts_eq (x : Float) : parts x = partsOf x.toModel.unpack := by
  obtain ⟨⟨b, hb⟩⟩ := x
  let w : BitVec Format.binary64.numBits := b.toBitVec
  have mantissa : (unpackMantissa w).toNat = b.toNat % twoPow 52 := toNat_unpackMantissa w
  have exponent : (unpackExponent w).toNat = b.toNat / twoPow 52 % twoPow 11 := toNat_unpackExponent w
  have sign : isNegative (Sign.ofBitVec (unpackSign w)) = decide (twoPow 63 ≤ b.toNat) := isNegative_unpackSign w
  have specialIff : unpackExponent w = -1#_ ↔ b.toNat / twoPow 52 % twoPow 11 = 2047 := by
    rw [← exponent, ← BitVec.toNat_inj]
    rfl
  have smallIff : unpackExponent w = 0#_ ↔ b.toNat / twoPow 52 % twoPow 11 = 0 := by
    rw [← exponent, ← BitVec.toNat_inj]
    rfl
  have zeroIff : unpackMantissa w = 0#_ ↔ b.toNat % twoPow 52 = 0 := by
    rw [← mantissa, ← BitVec.toNat_inj]
    rfl
  show parts ⟨⟨b, hb⟩⟩ = partsOf (UnpackedFloat.unpack .binary64 w)
  unfold UnpackedFloat.unpack parts
  show (if b.toNat / twoPow 52 % twoPow 11 = 2047 then
      if b.toNat % twoPow 52 = 0 then Parts.infinite (decide (twoPow 63 ≤ b.toNat)) else .nan
    else if b.toNat / twoPow 52 % twoPow 11 = 0 then
      .finite (decide (twoPow 63 ≤ b.toNat)) (b.toNat % twoPow 52) (-1074)
    else .finite (decide (twoPow 63 ≤ b.toNat)) (b.toNat % twoPow 52 + twoPow 52)
      (((b.toNat / twoPow 52 % twoPow 11 : Nat) : Int) - 1075)) = _
  rw [← sign]
  by_cases special : unpackExponent w = -1#_
  · rw [if_pos (specialIff.1 special), if_pos special]
    by_cases infinite : unpackMantissa w = 0#_
    · rw [if_pos (zeroIff.1 infinite), if_pos infinite]
      rfl
    · rw [if_neg (mt zeroIff.2 infinite), if_neg infinite]
      rfl
  rw [if_neg (mt specialIff.2 special), if_neg special]
  by_cases small : unpackExponent w = 0#_
  · rw [if_pos (smallIff.1 small), if_pos small]
    by_cases zero : unpackMantissa w = 0#_
    · rw [zeroIff.1 zero, dif_pos zero]
      rfl
    · rw [dif_neg zero, ← mantissa, small]
      rfl
  · rw [if_neg (mt smallIff.2 small), if_neg small, ← exponent, ← mantissa, Nat.add_comm]
    exact congrArg (fun m => Parts.finite _ m _) (toNat_one_append _).symm

theorem toBits_ofBits {b : UInt64} (valid : Format.binary64.Valid b.toBitVec) : (Float.ofBits b).toBits = b :=
  UInt64.toBitVec_inj.1 (pack_unpack_of_valid valid)

/-! ### Whole numbers -/

theorem valid_of_biased {b : UInt64} (h : b.toNat / twoPow 52 % twoPow 11 ≠ 2047) :
    Format.binary64.Valid b.toBitVec := by
  refine ⟨fun special => absurd ?_ h⟩
  have exponent := toNat_unpackExponent b.toBitVec
  rw [special] at exponent
  exact exponent.symm

theorem parts_ofMagnitude {m k : Nat} (low : twoPow 52 ≤ m) (high : m < 2 * twoPow 52) (hk : k ≤ 2045) :
    parts (ofMagnitude false (m + k * twoPow 52)) = .finite false m (k - 1074) := by
  have pow52 : twoPow 52 = 4503599627370496 := rfl
  have pow11 : twoPow 11 = 2048 := rfl
  have pow63 : twoPow 63 = 9223372036854775808 := rfl
  have plain : ofMagnitude false (m + k * twoPow 52) = Float.ofBits (UInt64.ofNat (m + k * twoPow 52)) := by
    unfold ofMagnitude
    rw [if_neg Bool.false_ne_true, Nat.add_zero]
  rw [pow52] at low high plain ⊢
  have word : (UInt64.ofNat (m + k * 4503599627370496)).toNat = m + k * 4503599627370496 := by
    rw [UInt64.toNat_ofNat', Nat.mod_eq_of_lt (by omega)]
  generalize hw : UInt64.ofNat (m + k * 4503599627370496) = w at plain word
  have exponent : w.toNat / twoPow 52 % twoPow 11 = k + 1 := by
    rw [word, pow52, pow11]
    omega
  have fraction : w.toNat % twoPow 52 + twoPow 52 = m := by
    rw [word, pow52]
    omega
  have same : (Float.ofBits w).toBits = w := toBits_ofBits (valid_of_biased (by omega))
  rw [plain]
  unfold parts
  dsimp only
  rw [same, exponent, fraction, if_neg (by omega), if_neg (by omega), decide_eq_false (by rw [pow63]; omega)]
  congr 1
  omega

theorem roundHalfEven_one (n : Nat) : roundHalfEven n 1 = n := by
  simp [roundHalfEven, Nat.mod_one]

theorem log2Ratio_one {n : Nat} (pos : n ≠ 0) : log2Ratio n 1 = n.log2 := by
  have reached : 1 * twoPow n.log2 ≤ n := by
    rw [Nat.one_mul]
    exact Nat.log2_self_le pos
  have guess : ((n.log2 : Int) - (Nat.log2 1 : Nat)) = n.log2 := by
    rw [show Nat.log2 1 = 0 by decide]
    omega
  unfold log2Ratio
  rw [guess]
  dsimp only
  rw [if_pos (Int.natCast_nonneg _), Int.toNat_natCast, decide_eq_true reached]
  rfl

theorem twoPow_pos (n : Nat) : 0 < twoPow n := Nat.pow_pos (by decide)

theorem ratio_pos (negative : Bool) (mantissa : Nat) (exponent : Int) :
    0 < (ratio negative mantissa exponent).2 := by
  unfold ratio
  dsimp only
  split
  · exact Nat.one_pos
  · exact Nat.pow_pos (by decide)

theorem twoPow_add (k l : Nat) : twoPow (k + l) = twoPow k * twoPow l := Nat.pow_add 2 k l

/-- A whole number of at most 53 bits is its own nearest double. -/
theorem parts_ofInt {n : Nat} (pos : n ≠ 0) (small : n < twoPow 53) :
    parts (ofInt n) = .finite false (n * twoPow (52 - n.log2)) (n.log2 - 52) := by
  have log : n.log2 ≤ 52 := Nat.le_of_lt_succ ((Nat.log2_lt pos).2 small)
  have below : twoPow n.log2 ≤ n := Nat.log2_self_le pos
  have above : n < 2 * twoPow n.log2 := by
    rw [Nat.mul_comm]
    exact Nat.lt_log2_self
  have width : twoPow 52 = twoPow n.log2 * twoPow (52 - n.log2) := by
    rw [← twoPow_add]
    congr 1
    omega
  have low : twoPow 52 ≤ n * twoPow (52 - n.log2) := by
    rw [width]
    exact Nat.mul_le_mul_right _ below
  have high : n * twoPow (52 - n.log2) < 2 * twoPow 52 := by
    rw [width, ← Nat.mul_assoc]
    exact Nat.mul_lt_mul_of_pos_right above (twoPow_pos _)
  have exponent : max (log2Ratio n 1 - 52) (-1074) = (n.log2 : Int) - 52 := by
    rw [log2Ratio_one pos]
    omega
  have mantissa : (if 0 ≤ (n.log2 : Int) - 52 then roundHalfEven n (1 * twoPow ((n.log2 : Int) - 52).toNat)
      else roundHalfEven (n * twoPow (-((n.log2 : Int) - 52)).toNat) 1) = n * twoPow (52 - n.log2) := by
    split
    · have whole : n.log2 = 52 := by omega
      rw [whole]
      exact (roundHalfEven_one n).trans (Nat.mul_one n).symm
    · have shift : (-((n.log2 : Int) - 52)).toNat = 52 - n.log2 := by omega
      rw [roundHalfEven_one, shift]
  have finite : n * twoPow (52 - n.log2) + (n.log2 + 1022) * twoPow 52 ≤ infinityBits := by
    unfold infinityBits
    have pow52 : twoPow 52 = 4503599627370496 := rfl
    rw [pow52] at high ⊢
    omega
  have place : ((n.log2 : Int) - 52 + 1074).toNat = n.log2 + 1022 := by omega
  have sign : decide ((n : Int) < 0) = false := decide_eq_false (by omega)
  have magnitude : ofInt n = ofMagnitude false (n * twoPow (52 - n.log2) + (n.log2 + 1022) * twoPow 52) := by
    unfold ofInt nearest
    rw [Int.natAbs_natCast, sign, if_neg pos]
    dsimp only
    rw [exponent, mantissa, place, Nat.min_eq_left finite]
  have shifted : ((n.log2 + 1022 : Nat) : Int) - 1074 = n.log2 - 52 := by omega
  rw [magnitude, parts_ofMagnitude low high (by omega), shifted]

theorem toInt?_of_parts {round : Int → Nat → Int} {x : Float} {negative : Bool} {m : Nat} {e : Int}
    (h : parts x = .finite negative m e) :
    toInt? round x = .ok (round (ratio negative m e).1 (ratio negative m e).2) := by
  unfold toInt?
  rw [h]

/-- Whole numbers below `2 ^ 53` survive being measured as doubles. -/
theorem truncate?_ofInt {n : Nat} (small : n < twoPow 53) : truncate? (ofInt n) = .ok n := by
  by_cases zero : n = 0
  · rw [zero]
    have parts : parts (ofInt 0) = .finite false 0 (-1074) := by decide
    refine (toInt?_of_parts parts).trans (congrArg Except.ok ?_)
    have none : (ratio false 0 (-1074)).1 = 0 := rfl
    rw [none, Int.zero_tdiv]
    rfl
  have log : n.log2 ≤ 52 := Nat.le_of_lt_succ ((Nat.log2_lt zero).2 small)
  refine (toInt?_of_parts (parts_ofInt zero small)).trans (congrArg Except.ok ?_)
  simp only [ratio, Bool.false_eq_true, if_false, Int.one_mul]
  split
  · have whole : n.log2 = 52 := by omega
    have one : twoPow (52 - n.log2) = 1 := by rw [whole]; rfl
    have one' : twoPow ((n.log2 : Int) - 52).toNat = 1 := by rw [whole]; rfl
    rw [one, one', Nat.mul_one]
    exact (Int.tdiv_one _).trans (Int.mul_one _)
  · have shift : (-((n.log2 : Int) - 52)).toNat = 52 - n.log2 := by omega
    have pos : ((twoPow (52 - n.log2) : Nat) : Int) ≠ 0 :=
      Int.natCast_ne_zero.2 (Nat.ne_of_gt (twoPow_pos _))
    rw [shift, Int.natCast_mul]
    exact Int.mul_tdiv_cancel _ pos

end Binary64
end HostWatch
