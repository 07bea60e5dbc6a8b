import AccessHistory.Sizing
import Mathlib

/-!
Normal doubles, which are positive and have a mantissa of full length. Packing one into 64 bits loses
nothing of it while its exponent is in range, and rounding to full length gives one. Words other
than zero are converted to normal doubles, and so are their quotients, far from both ends of the
range.
-/

set_option autoImplicit false
set_option relaxedAutoImplicit false

namespace AccessHistory.Number

open Float.Model (Format UnpackedFloat totalExponent)
open Float.Model.UnpackedFloat

/-- A positive mantissa of 53 bits, and an exponent between two others. -/
def IsNormal (least most : Int) (x : UnpackedFloat) : Prop :=
  ∃ m e, ∃ h : 0 < m, x = .finite .positive m e h ∧ m.log2 = 52 ∧ least ≤ e ∧ e ≤ most

variable {least most : Int}

theorem IsNormal.mono {x : UnpackedFloat} (h : IsNormal least most x) {least' most' : Int}
    (lower : least' ≤ least) (upper : most ≤ most') : IsNormal least' most' x := by
  obtain ⟨m, e, positive, rfl, full, above, below⟩ := h
  exact ⟨m, e, positive, rfl, full, by omega, by omega⟩

/-! ### Packing -/

theorem toNat_one_append (m : Nat) (full : m.log2 = 52) : (1#1 ++ BitVec.ofNat 52 m).toNat = m := by
  have some_bit : m ≠ 0 := by
    rintro rfl
    simp at full
  have bounds := (Nat.log2_eq_iff some_bit).mp full
  rw [BitVec.toNat_append, ← Nat.shiftLeft_add_eq_or_of_lt (BitVec.isLt _), BitVec.toNat_ofNat]
  simp only [Nat.shiftLeft_eq]
  change 1 * 2 ^ 52 + m % 2 ^ 52 = m
  omega

theorem ofNat_exponent {b : Nat} (inside : 0 < b ∧ b < 2047) :
    (BitVec.ofNat 11 b).toNat = b ∧ BitVec.ofNat 11 b ≠ -1#11 ∧ BitVec.ofNat 11 b ≠ 0#11 := by
  have value : (BitVec.ofNat 11 b).toNat = b := by
    rw [BitVec.toNat_ofNat]
    omega
  refine ⟨value, ?_, ?_⟩
  · intro same
    have all_ones : (-1#11).toNat = 2047 := rfl
    rw [same, all_ones] at value
    omega
  · intro same
    have no_ones : (0#11).toNat = 0 := rfl
    rw [same, no_ones] at value
    omega

theorem unpackSign_packComponents (s : Sign) (e : BitVec 11) (m : BitVec 52) :
    unpackSign (packComponents Format.binary64 s e m) = s.toBitVec := by
  change (s.toBitVec ++ e ++ m).extractLsb' 63 1 = s.toBitVec
  rw [BitVec.extractLsb'_append_eq_of_le (by decide),
    BitVec.extractLsb'_append_eq_of_le (by decide)]
  cases s <;> rfl

theorem ofBitVec_toBitVec (s : Sign) : Sign.ofBitVec s.toBitVec = s := by
  cases s <;> rfl

theorem unpack_pack_of_full (s : Sign) {m : Nat} {e : Int} (positive : 0 < m) (full : m.log2 = 52)
    (above : -1074 ≤ e) (below : e ≤ 971) :
    (Float.Model.pack (.finite s m e positive)).unpack = .finite s m e positive := by
  -- The biased exponent is neither of the two that mark other kinds of numbers.
  obtain ⟨b, rfl⟩ : ∃ b : Nat, e = b - 1075 := ⟨(e + 1075).toNat, by omega⟩
  obtain ⟨value, not_largest, not_zero⟩ := ofNat_exponent (b := b) ⟨by omega, by omega⟩
  have bias : ((Format.binary64.exponentBias : Nat) : Int) = 1023 := rfl
  have biased : ((b : Int) - 1075 + Format.binary64.exponentBias + (52 : Nat)).toNat = b := by
    omega
  have packed : UnpackedFloat.pack Format.binary64 (.finite s m (b - 1075) positive) =
      packComponents Format.binary64 s (BitVec.ofNat 11 b) (BitVec.ofNat 52 m) := by
    simp only [UnpackedFloat.pack, biased, full]
    rw [if_neg (by omega)]
    exact if_pos rfl
  change UnpackedFloat.unpack Format.binary64 (UnpackedFloat.pack Format.binary64 _) = _
  rw [packed, UnpackedFloat.unpack]
  simp only [unpackMantissa_packComponents, unpackExponent_packComponents,
    unpackSign_packComponents, if_neg not_largest, if_neg not_zero, value, toNat_one_append m full,
    bias, ofBitVec_toBitVec]
  exact congrArg (UnpackedFloat.finite s m · positive) (by omega)

/-- A normal double in range is what its 64 bits stand for. -/
theorem unpack_pack {x : UnpackedFloat} (h : IsNormal (-1074) 971 x) :
    (Float.Model.pack x).unpack = x := by
  obtain ⟨m, e, positive, rfl, full, above, below⟩ := h
  exact unpack_pack_of_full .positive positive full above below

/-! ### Rounding -/

theorem mantissa_shiftRight (em : ExtendedMantissa) (k : Nat) :
    (em >>> k).mantissa = em.mantissa / 2 ^ k := by
  induction k with
  | zero => exact (Nat.div_one _).symm
  | succ k ih =>
    change (em >>> k).mantissa / 2 = _
    rw [ih, Nat.div_div_eq_div_mul, Nat.pow_succ]

/-- Rounding goes to one of the two nearest mantissas. -/
theorem roundedMantissa_bounds (em : ExtendedMantissa) :
    em.mantissa ≤ em.roundedMantissa ∧ em.roundedMantissa ≤ em.mantissa + 1 := by
  obtain ⟨m, roundBit, stickyBit⟩ := em
  have parity := Nat.mod_lt m (show 0 < 2 by decide)
  cases roundBit <;> cases stickyBit <;>
    simp only [ExtendedMantissa.roundedMantissa, ExtendedMantissa.accuracy,
      Accuracy.roundToNearestEven] <;> omega

/-- Where bits beyond the 53rd are dropped. -/
theorem shiftToTargetExponent_of_log2 {m k : Nat} {e : Int} (long : m.log2 = 52 + k)
    (inside : -1074 ≤ e + k) (accuracy : Accuracy) :
    shiftToTargetExponent Format.binary64 m e accuracy =
      (ExtendedMantissa.ofMantissaAndAccuracy m accuracy >>> k, e + k) := by
  have target : Format.binary64.targetExponent (totalExponent m e) = e + k := by
    simp only [Format.targetExponent, totalExponent, long, Format.mantissaBits, Format.minExponent]
    omega
  have shift : (e + (k : Int) - e).toNat = k := by omega
  simp only [shiftToTargetExponent, shiftToExponent, target, shift]

theorem mantissa_ofMantissaAndAccuracy (m : Nat) (accuracy : Accuracy) :
    (ExtendedMantissa.ofMantissaAndAccuracy m accuracy).mantissa = m := by
  rcases accuracy with _ | order
  · rfl
  · cases order <;> rfl

/-- Rounding up may carry into one more bit, which one more shift drops. -/
private theorem isNormal_carried {m : Nat} {e : Int} (long : 2 ^ 52 ≤ m) (short : m ≤ 2 ^ 53)
    (inside : -1074 ≤ e) :
    IsNormal e (e + 1)
      (let shifted := shiftToTargetExponent Format.binary64 m e .exact
      if h : shifted.1.mantissa = 0 then .zero .positive
      else .finite .positive shifted.1.mantissa shifted.2 (Nat.pos_of_ne_zero h)) := by
  rcases Nat.lt_or_eq_of_le short with fits | carry
  · have full : m.log2 = 52 := (Nat.log2_eq_iff (by omega)).mpr ⟨long, fits⟩
    have some_bit : m ≠ 0 := by omega
    rw [shiftToTargetExponent_of_log2 (k := 0) full (by omega)]
    exact ⟨m, e + (0 : Nat), by omega, dif_neg some_bit, full, by omega, by omega⟩
  · have full : m.log2 = 52 + 1 := by rw [carry, Nat.log2_two_pow]
    rw [shiftToTargetExponent_of_log2 full (by omega)]
    have halved : (ExtendedMantissa.ofMantissaAndAccuracy m .exact >>> 1).mantissa = 2 ^ 52 := by
      rw [carry]
      rfl
    simp only [halved]
    exact ⟨2 ^ 52, e + (1 : Nat), by decide, dif_neg (by decide), Nat.log2_two_pow, by omega,
      by omega⟩

theorem isNormal_roundWithAccuracy {m k : Nat} {e : Int} (long : m.log2 = 52 + k)
    (inside : -1074 ≤ e + k) (accuracy : Accuracy) :
    IsNormal (e + k) (e + k + 1)
      (roundWithAccuracy Format.binary64 .positive m e accuracy) := by
  have some_bit : m ≠ 0 := by
    rintro rfl
    simp at long
    omega
  obtain ⟨above, below⟩ := (Nat.log2_eq_iff some_bit).mp long
  have shifted : (ExtendedMantissa.ofMantissaAndAccuracy m accuracy >>> k).mantissa = m / 2 ^ k := by
    rw [mantissa_shiftRight, mantissa_ofMantissaAndAccuracy]
  have long_enough : 2 ^ 52 ≤ m / 2 ^ k := by
    rw [Nat.le_div_iff_mul_le (Nat.two_pow_pos k), ← Nat.pow_add]
    exact above
  have short_enough : m / 2 ^ k < 2 ^ 53 := by
    rw [Nat.div_lt_iff_lt_mul (Nat.two_pow_pos k), ← Nat.pow_add]
    rwa [show 53 + k = 52 + k + 1 by omega]
  obtain ⟨kept, next⟩ :=
    roundedMantissa_bounds (ExtendedMantissa.ofMantissaAndAccuracy m accuracy >>> k)
  rw [roundWithAccuracy, shiftToTargetExponent_of_log2 long inside]
  exact isNormal_carried (by omega) (by omega) inside

/-! ### Words and their quotients -/

theorem log2_shiftLeft {m : Nat} (h : m ≠ 0) (k : Nat) : (m <<< k).log2 = m.log2 + k := by
  induction k with
  | zero => rfl
  | succ k ih =>
    have shifted : m <<< k ≠ 0 := by
      rw [Nat.shiftLeft_eq]
      exact Nat.mul_ne_zero h (Nat.ne_of_gt (Nat.two_pow_pos k))
    rw [Nat.shiftLeft_succ, Nat.log2_two_mul shifted, ih, Nat.add_assoc]

theorem isNormal_toFloat {x : UInt64} (h : x ≠ 0) : IsNormal (-52) 12 x.toFloat.toModel.unpack := by
  have some_bit : x.toNat ≠ 0 := fun zero => h (UInt64.toNat_inj.mp zero)
  have short : x.toNat.log2 < 64 := (Nat.log2_lt some_bit).mpr x.toNat_lt
  have target : Format.binary64.targetExponent (totalExponent x.toNat 0) = x.toNat.log2 - 52 := by
    simp only [Format.targetExponent, totalExponent, Format.mantissaBits, Format.minExponent]
    omega
  have rounded : IsNormal (-52) 12 (UnpackedFloat.round Format.binary64 .positive x.toNat 0) := by
    -- Short words are moved to the left until they have 53 bits.
    have missing : (0 - ((x.toNat.log2 : Int) - 52)).toNat = 52 - x.toNat.log2 := by omega
    have long : (x.toNat <<< (52 - x.toNat.log2)).log2 = 52 + (x.toNat.log2 - 52) := by
      rw [log2_shiftLeft some_bit]
      omega
    simp only [UnpackedFloat.round, target, decreaseExponent, missing]
    exact (isNormal_roundWithAccuracy long (by omega) .exact).mono (by omega) (by omega)
  have positive : compare (x.toNat : Int) 0 = .gt := Int.compare_eq_gt.mpr (by omega)
  have converted :
      x.toFloat.toModel = .pack (UnpackedFloat.round Format.binary64 .positive x.toNat 0) := by
    change Float.Model.pack
      (UnpackedFloat.normalize Format.binary64 (x.toNat : Int) 0 .positive) = _
    rw [UnpackedFloat.normalize, positive]
    rfl
  rw [converted, unpack_pack (rounded.mono (by decide) (by decide))]
  exact rounded

/-- The quotient of two full mantissas, one of them moved up, has as many bits or one more. -/
theorem log2_quotient {m m' : Nat} (positive' : 0 < m') (full : m.log2 = 52) (full' : m'.log2 = 52) :
    ∃ k, ((m <<< 53) / m').log2 = 52 + k ∧ k ≤ 1 := by
  have positive : m ≠ 0 := by
    rintro rfl
    simp at full
  obtain ⟨long, short⟩ := (Nat.log2_eq_iff positive).mp full
  obtain ⟨long', short'⟩ := (Nat.log2_eq_iff (by omega)).mp full'
  have least_quotient : 2 ^ 52 ≤ (m <<< 53) / m' := by
    rw [Nat.le_div_iff_mul_le positive', Nat.shiftLeft_eq]
    omega
  have most_quotient : (m <<< 53) / m' < 2 ^ 54 := by
    rw [Nat.div_lt_iff_lt_mul positive', Nat.shiftLeft_eq]
    omega
  have above := (Nat.le_log2 (by omega)).mpr least_quotient
  have below := (Nat.log2_lt (by omega)).mpr most_quotient
  exact ⟨((m <<< 53) / m').log2 - 52, by omega, by omega⟩

/-- Full mantissas are divided to 53 bits and the rest, unless the quotient is too small for that. -/
theorem divCore_of_full {m m' : Nat} {e e' : Int} (full : m.log2 = 52) (full' : m'.log2 = 52)
    (inside : -1021 ≤ e - e') :
    divCore Format.binary64 m e m' e' =
      ((m <<< 53) / m', e - e' - 53, accuracyOfFraction ((m <<< 53) % m') m') := by
  have target : Format.binary64.targetExponent (totalExponent m e - totalExponent m' e') =
      e - e' - 53 := by
    simp only [Format.targetExponent, totalExponent, full, full', Format.mantissaBits,
      Format.minExponent]
    omega
  have back : min (e - e') (e - e' - 53) = e - e' - 53 := by omega
  have shift : (e - e' - (e - e' - 53)).toNat = 53 := by omega
  simp only [divCore, target, back, shift]

/-- A quotient neither vanishes nor overflows while the exponents stay close to each other. -/
theorem isNormal_div {x y : Float} {least' most' : Int} (hx : IsNormal least most x.toModel.unpack)
    (hy : IsNormal least' most' y.toModel.unpack) (lower : -1021 ≤ least - most')
    (upper : most - least' ≤ 1022) :
    IsNormal (least - most' - 53) (most - least' - 51) (x / y).toModel.unpack := by
  obtain ⟨m, e, positive, unpacked, full, above, below⟩ := hx
  obtain ⟨m', e', positive', unpacked', full', above', below'⟩ := hy
  obtain ⟨k, long, few⟩ := log2_quotient positive' full full'
  have core := divCore_of_full full full' (show -1021 ≤ e - e' by omega)
  have rounded : IsNormal (least - most' - 53) (most - least' - 51)
      (roundWithAccuracy Format.binary64 .positive ((m <<< 53) / m') (e - e' - 53)
        (accuracyOfFraction ((m <<< 53) % m') m')) :=
    (isNormal_roundWithAccuracy long (by omega) _).mono (by omega) (by omega)
  have divided : (x / y).toModel = .pack (roundWithAccuracy Format.binary64 .positive
      ((m <<< 53) / m') (e - e' - 53) (accuracyOfFraction ((m <<< 53) % m') m')) := by
    change Float.Model.pack (UnpackedFloat.div _ x.toModel.unpack y.toModel.unpack) = _
    rw [unpacked, unpacked', UnpackedFloat.div, core]
    rfl
  rw [divided, unpack_pack (rounded.mono (by omega) (by omega))]
  exact rounded

/-! ### Signs -/

theorem pos_iff {x : Float} :
    0 < x ↔ UnpackedFloat.lt (.zero .positive) x.toModel.unpack = true := by
  change decide (UnpackedFloat.lt (.zero .positive) x.toModel.unpack = true) = true ↔ _
  exact decide_eq_true_iff

theorem IsNormal.isMargin {x : Float} (h : IsNormal least most x.toModel.unpack) :
    Sizing.IsMargin x := by
  obtain ⟨m, e, positive, unpacked, -⟩ := h
  constructor
  · rw [pos_iff, unpacked]
    rfl
  · change x.toModel.unpack.isFinite = true
    rw [unpacked]
    rfl

theorem not_pos_zero_div {y : Float} (h : IsNormal least most y.toModel.unpack) :
    ¬ 0 < (0 : UInt64).toFloat / y := by
  obtain ⟨m, e, positive, unpacked, -⟩ := h
  have divided : ((0 : UInt64).toFloat / y).toModel = .pack (.zero .positive) := by
    change Float.Model.pack (UnpackedFloat.div _ (.zero .positive) y.toModel.unpack) = _
    rw [unpacked]
    rfl
  rw [pos_iff, divided]
  decide

end AccessHistory.Number
