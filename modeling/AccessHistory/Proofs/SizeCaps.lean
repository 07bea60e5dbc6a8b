import AccessHistory.Proofs.Construction
import AccessHistory.Proofs.RoundedDoubles
import Mathlib

/-!
The caps of sketch sizes. A row count is capped as a word, and no cap is exceeded. A row width is
capped as a double, and the double of a long cap may be larger than the cap: a width goes up to the
nearest number of 53 bits, and no further.
-/

set_option autoImplicit false
set_option relaxedAutoImplicit false

namespace AccessHistory.Number

open Float.Model (Format UnpackedFloat)
open Float.Model.UnpackedFloat

/-! ### Doubles cut off to words -/

theorem roundToInt_positive (m : ℕ) (e : ℤ) :
    roundToInt .positive m e = (⌊(m : ℚ) * 2 ^ e⌋₊ : ℤ) := by
  rcases le_total 0 e with whole | fraction
  · obtain ⟨k, rfl⟩ := Int.eq_ofNat_of_zero_le whole
    have value : (m : ℚ) * 2 ^ (k : ℤ) = (m * 2 ^ k : ℕ) := by
      rw [zpow_natCast]
      push_cast
      rfl
    have cut : roundToInt .positive m k = (m <<< k : ℕ) := by
      simp only [roundToInt, decreaseExponent, shiftToExponent, sub_zero, Int.toNat_natCast,
        sub_self, Int.toNat_zero]
      rfl
    rw [cut, value, Nat.floor_natCast, Nat.shiftLeft_eq]
  · obtain ⟨k, rfl⟩ : ∃ k : ℕ, e = -k := ⟨(-e).toNat, by omega⟩
    have value : (m : ℚ) * 2 ^ (-(k : ℤ)) = (m : ℚ) / (2 ^ k : ℕ) := by
      rw [zpow_neg, zpow_natCast, div_eq_mul_inv]
      push_cast
      rfl
    have cut : roundToInt .positive m (-k) = (m / 2 ^ k : ℕ) := by
      have no_shift : (-(k : ℤ)).toNat = 0 := by omega
      simp only [roundToInt, decreaseExponent, shiftToExponent, sub_zero, no_shift,
        Nat.shiftLeft_zero, Int.natCast_zero, zero_sub, neg_neg, Int.toNat_natCast, Sign.apply,
        mantissa_shiftRight, mantissa_ofMantissaAndAccuracy]
    rw [cut, value, Nat.floor_div_eq_div]

theorem toNat_ofNatClamp (n : ℕ) : (UInt64.ofNatClamp n).toNat = min n maxWord := by
  have words : UInt64.size = maxWord + 1 := rfl
  rw [UInt64.ofNatClamp]
  split
  · next word =>
    rw [Nat.min_eq_left (by omega)]
    rfl
  · next long =>
    rw [Nat.min_eq_right (by omega)]
    rfl

/-- A positive double is cut off to its whole part, and to the largest word. -/
theorem toNat_toUInt64 {x : Float} {d : Scaled} (h : Binary64.ofFloat x = .finite d)
    (positive : d.negative = false) : x.toUInt64.toNat = min ⌊d.magnitude⌋₊ maxWord := by
  have cut : x.toUInt64 = UInt64.ofNatClamp (d.unpacked.toInt 0 (UInt64.size - 1)).toNat := by
    change (UnpackedFloat.toUInt64 x.toModel.unpack) = _
    rw [unpack_eq, h]
    rfl
  rw [cut, toNat_ofNatClamp, Scaled.unpacked, positive]
  split
  · next zero =>
    rw [Scaled.magnitude, zero]
    simp [toInt]
  · rw [toInt, signOf, if_neg Bool.false_ne_true, roundToInt_positive, Int.toNat_natCast]
    rfl

/-- What is no positive number is cut off to zero. -/
theorem toUInt64_cases (x : Float) : x.toUInt64 = 0 ∨ Binary64.ofFloat x = .infinite false ∨
    ∃ d, Binary64.ofFloat x = .finite d ∧ d.negative = false ∧ d.mantissa ≠ 0 := by
  have cut (h : (Binary64.ofFloat x).unpacked.toInt 0 (UInt64.size - 1) ≤ 0) : x.toUInt64 = 0 := by
    change UInt64.ofNatClamp (x.toModel.unpack.toInt 0 (UInt64.size - 1)).toNat = 0
    rw [unpack_eq, Int.toNat_of_nonpos h]
    rfl
  cases decoded : Binary64.ofFloat x with
  | nan =>
    rw [decoded] at cut
    exact .inl (cut (Int.le_refl 0))
  | infinite negative =>
    rw [decoded] at cut
    cases negative with
    | false => exact .inr (.inl rfl)
    | true => exact .inl (cut (Int.le_refl 0))
  | finite d =>
    rw [decoded, Binary64.unpacked, Scaled.unpacked] at cut
    by_cases no_bit : d.mantissa = 0
    · rw [dif_pos no_bit] at cut
      exact .inl (cut (Int.le_refl 0))
    · rw [dif_neg no_bit] at cut
      cases sign : d.negative with
      | false => exact .inr (.inr ⟨d, rfl, sign, no_bit⟩)
      | true =>
        rw [sign] at cut
        exact .inl (cut (Int.neg_nonpos_of_nonneg (Int.natCast_nonneg _)))

theorem le_iff {x y : Float} :
    x ≤ y ↔ UnpackedFloat.le x.toModel.unpack y.toModel.unpack = true := by
  change decide (UnpackedFloat.le x.toModel.unpack y.toModel.unpack = true) = true ↔ _
  exact decide_eq_true_iff

/-- A canonical number that is compared as less, by its exponent first, is less. -/
theorem Scaled.IsCanonical.magnitude_le {d d' : Scaled} (h : d.IsCanonical) (h' : d'.IsCanonical)
    (ordered : d.exponent < d'.exponent ∨ d.exponent = d'.exponent ∧ d.mantissa ≤ d'.mantissa) :
    d.magnitude ≤ d'.magnitude := by
  rcases ordered with less | ⟨equal, less⟩
  · have long := h'.full.resolve_left (by have := h.least; omega)
    calc (d.mantissa : ℚ) * 2 ^ d.exponent ≤ 2 ^ 53 * 2 ^ d.exponent := by
          gcongr
          exact_mod_cast Nat.le_of_lt h.short
      _ = 2 ^ 52 * 2 ^ (d.exponent + 1) := by
        rw [zpow_add_one₀ (by norm_num)]
        ring
      _ ≤ d'.mantissa * 2 ^ d'.exponent := by
        gcongr
        · exact_mod_cast long
        · norm_num
        · omega
  · rw [magnitude, magnitude, equal]
    gcongr

/-- Smaller doubles are cut off to smaller words. -/
theorem toUInt64_le {x y : Float} {d : Scaled} (hy : Binary64.ofFloat y = .finite d)
    (positive : d.negative = false) (some_bit : d.mantissa ≠ 0) (h : x ≤ y) :
    x.toUInt64 ≤ y.toUInt64 := by
  rw [le_iff, unpack_eq, unpack_eq, hy, Binary64.unpacked, Scaled.unpacked, dif_neg some_bit,
    positive] at h
  rcases toUInt64_cases x with zero | infinite | ⟨d', decoded, sign, some_bit'⟩
  · rw [zero]
    exact UInt64.zero_le
  · rw [infinite] at h
    cases h
  · rw [decoded, Binary64.unpacked, Scaled.unpacked, dif_neg some_bit', sign] at h
    have ordered : d'.exponent < d.exponent ∨
        d'.exponent = d.exponent ∧ d'.mantissa ≤ d.mantissa := by
      change ((compare d'.exponent d.exponent).then
        (compare d'.mantissa d.mantissa)).isLE = true at h
      rcases Int.lt_trichotomy d'.exponent d.exponent with less | equal | more
      · exact .inl less
      · rw [equal, Int.compare_eq_eq.mpr rfl, Ordering.eq_then, Nat.isLE_compare] at h
        exact .inr ⟨equal, h⟩
      · rw [Int.compare_eq_gt.mpr more] at h
        cases h
    rw [UInt64.le_iff_toNat_le, toNat_toUInt64 decoded sign, toNat_toUInt64 hy positive]
    have := Nat.floor_mono ((isCanonical_of_ofFloat decoded).magnitude_le
      (isCanonical_of_ofFloat hy) ordered)
    omega

/-! ### Caps as doubles -/

/-- The multiple of a unit that is nearest to `n`, where the unit leaves `n` 53 bits; the even
multiple of two. -/
def nearestOf53Bits (n : ℕ) : ℕ :=
  let unit := 2 ^ (n.log2 - 52)
  let rest := n % unit
  if 2 * rest < unit ∨ 2 * rest = unit ∧ n / unit % 2 = 0 then n - rest else n - rest + unit

theorem nearestOf53Bits_of_le {n : ℕ} (short : n ≤ 2 ^ 53) : nearestOf53Bits n = n := by
  rcases Nat.lt_or_eq_of_le short with fewer | rfl
  · have no_bits : n.log2 - 52 = 0 := by
      rcases Nat.eq_zero_or_pos n with rfl | positive
      · rfl
      · have := (Nat.log2_lt (by omega)).mpr fewer
        omega
    simp only [nearestOf53Bits, no_bits, Nat.pow_zero, Nat.mod_one]
    simp
  · decide

theorem nearestOf53Bits_pos {n : ℕ} (positive : 0 < n) : 0 < nearestOf53Bits n := by
  have whole := ((Nat.log2_eq_iff (by omega)).mp (rfl : n.log2 = n.log2)).1
  have unit_le : 2 ^ (n.log2 - 52) ≤ 2 ^ n.log2 := Nat.pow_le_pow_right Nat.two_pos (by omega)
  have rest_lt := Nat.mod_lt n (Nat.two_pow_pos (n.log2 - 52))
  simp only [nearestOf53Bits]
  split <;> omega

/-- The nearest multiple is no farther than half a unit. -/
theorem nearestOf53Bits_le {n : ℕ} (word : n < 2 ^ 64) : nearestOf53Bits n ≤ n + 2 ^ 10 := by
  have unit_le : 2 ^ (n.log2 - 52) ≤ 2 ^ 11 := by
    refine Nat.pow_le_pow_right Nat.two_pos ?_
    rcases Nat.eq_zero_or_pos n with rfl | positive
    · decide
    · have := (Nat.log2_lt (by omega)).mpr word
      omega
  have rest_le := Nat.mod_le n (2 ^ (n.log2 - 52))
  simp only [nearestOf53Bits]
  split <;> omega

/-- A whole number and a share are rounded by the share, and by the whole number where that is a
half. -/
theorem IsNearest.eq_of_share {whole r : ℕ} {share : ℚ} (some_share : 0 ≤ share) (not_all : share < 1)
    (nearest : IsNearest (whole + share) r) :
    r = if share < 1 / 2 ∨ share = 1 / 2 ∧ whole % 2 = 0 then whole else whole + 1 := by
  split_ifs with down
  · have most : share ≤ 1 / 2 := down.elim le_of_lt fun half => le_of_eq half.1
    refine nearest.unique ⟨by linarith, by linarith, ?_⟩
    rintro (tie | tie)
    · exact (down.resolve_left (by linarith)).2
    · linarith
  · rw [not_or, not_lt] at down
    refine nearest.unique ⟨by push_cast; linarith, by push_cast; linarith, ?_⟩
    push_cast
    rintro (tie | tie)
    · linarith
    · have odd : whole % 2 ≠ 0 := fun even => down.2 ⟨by linarith, even⟩
      omega

theorem IsNearest.mul_eq {n unit r : ℕ} (positive : 0 < unit)
    (nearest : IsNearest ((n : ℚ) / unit) r) :
    r * unit = if 2 * (n % unit) < unit ∨ 2 * (n % unit) = unit ∧ n / unit % 2 = 0
      then n - n % unit else n - n % unit + unit := by
  have some_unit : (0 : ℚ) < unit := by exact_mod_cast positive
  have split : n = n / unit * unit + n % unit := (Nat.div_add_mod' n unit).symm
  have rest_lt := Nat.mod_lt n positive
  generalize n / unit = whole at split
  generalize n % unit = rest at split rest_lt
  have parts : (n : ℚ) / unit = whole + rest / unit := by
    rw [div_eq_iff (ne_of_gt some_unit), add_mul, div_mul_cancel₀ _ (ne_of_gt some_unit)]
    exact_mod_cast split
  have not_all : (rest : ℚ) / unit < 1 := (div_lt_one some_unit).mpr (by exact_mod_cast rest_lt)
  have half : (rest : ℚ) / unit = 1 / 2 ↔ 2 * rest = unit := by
    rw [div_eq_div_iff (ne_of_gt some_unit) two_ne_zero, one_mul, mul_comm]
    norm_cast
  have less : (rest : ℚ) / unit < 1 / 2 ↔ 2 * rest < unit := by
    rw [div_lt_div_iff₀ some_unit two_pos, one_mul, mul_comm]
    norm_cast
  rw [parts] at nearest
  have rounded := nearest.eq_of_share (by positivity) not_all
  simp only [less, half] at rounded
  rw [rounded]
  split
  · omega
  · rw [Nat.succ_mul]
    omega

theorem toNat_toUInt64_toFloat {cap : UInt64} (h : cap ≠ 0) :
    cap.toFloat.toUInt64.toNat = min (nearestOf53Bits cap.toNat) maxWord := by
  obtain ⟨t, r, unit, nearest, decoded, -⟩ := exists_ofFloat_toFloat h
  have some_bit : cap.toNat ≠ 0 := fun zero => h (UInt64.toNat_inj.mp zero)
  have rounded : (r : ℚ) * 2 ^ t = nearestOf53Bits cap.toNat := by
    generalize cap.toNat = n at unit nearest some_bit
    rcases Nat.lt_or_ge n (2 ^ 53) with short | long
    · rw [unit.exact nearest short, nearestOf53Bits_of_le (by omega)]
    · obtain ⟨above, below⟩ := (Nat.log2_eq_iff some_bit).mp rfl
      have many : 53 ≤ n.log2 := (Nat.le_log2 some_bit).mpr long
      obtain ⟨k, bits⟩ : ∃ k, n.log2 = k + 52 := ⟨n.log2 - 52, by omega⟩
      rw [bits] at above below
      have place : HasUnit n k := by
        refine ⟨by omega, ?_, .inr ?_⟩
        · rw [zpow_natCast, ← pow_add, Nat.add_comm]
          exact_mod_cast below
        · rw [zpow_natCast, ← pow_add, Nat.add_comm]
          exact_mod_cast above
      obtain rfl := unit.unique place
      have power : (2 : ℚ) ^ (k : ℤ) = (2 ^ k : ℕ) := by
        rw [zpow_natCast]
        push_cast
        rfl
      rw [power] at nearest ⊢
      have multiple := nearest.mul_eq (Nat.two_pow_pos k)
      rw [nearestOf53Bits, bits, Nat.add_sub_cancel]
      exact_mod_cast multiple
  rw [toNat_toUInt64 decoded (negative_carried _ _ _), magnitude_carried, rounded, Nat.floor_natCast]

end AccessHistory.Number

namespace AccessHistory.Sizing

open Number (nearestOf53Bits maxWord)

theorem toNat_le_of_rowWidth {margin : Float} {cap width : UInt64} (capped : cap ≠ 0)
    (h : rowWidth margin cap = .ok width) :
    width.toNat ≤ min (nearestOf53Bits cap.toNat) maxWord := by
  obtain ⟨t, r, -, -, decoded, some_units⟩ := Number.exists_ofFloat_toFloat capped
  rw [← Number.toNat_toUInt64_toFloat capped, ← UInt64.le_iff_toNat_le]
  simp only [rowWidth, capped, false_and, if_false, false_or] at h
  split_ifs at h with margin ideal
  · cases h
    refine Number.toUInt64_le decoded (Number.negative_carried _ _ _) ?_ ideal
    rw [Ne, Number.mantissa_carried_eq_zero_iff]
    omega
  · cases h
    exact UInt64.le_refl _

/-- The smallest margin of all asks for more than any cap. -/
theorem rowWidth_of_least_margin {cap : UInt64} (capped : cap ≠ 0) :
    rowWidth (Float.ofBits 1) cap = .ok cap.toFloat.toUInt64 := by
  have margin : IsMargin (Float.ofBits 1) := by decide +kernel
  have ideal : Number.Binary64.ofFloat (2 / Float.ofBits 1) = .infinite false := by decide +kernel
  obtain ⟨t, r, -, -, decoded, some_units⟩ := Number.exists_ofFloat_toFloat capped
  have beyond : ¬ 2 / Float.ofBits 1 ≤ cap.toFloat := by
    have some_bit : (Number.carried false r t).mantissa ≠ 0 := by
      rw [Ne, Number.mantissa_carried_eq_zero_iff]
      omega
    rw [Number.le_iff, Number.unpack_eq, Number.unpack_eq, ideal, decoded,
      Number.Binary64.unpacked, Number.Binary64.unpacked, Number.Scaled.unpacked, dif_neg some_bit]
    exact Bool.false_ne_true
  have some_width : cap.toFloat.toUInt64 ≠ 0 := by
    intro zero
    have value := Number.toNat_toUInt64_toFloat capped
    have some_cap := Number.nearestOf53Bits_pos
      (Nat.pos_of_ne_zero fun zero => capped (UInt64.toNat_inj.mp zero))
    rw [zero, UInt64.toNat_zero, maxWord] at value
    omega
  simp only [rowWidth, capped, margin, beyond, some_width, false_and, not_true_eq_false, if_false,
    or_self]

theorem rowCount_bounds {certainty : Float} {cap rows : UInt64}
    (h : rowCount certainty cap = .ok rows) : 0 < rows ∧ (0 < cap → rows ≤ cap) := by
  have one : (1 : UInt64).toNat = 1 := rfl
  simp only [rowCount] at h
  split_ifs at h with proportion uncapped
  · cases h
    simp only [UInt64.lt_iff_toNat_lt, UInt64.le_iff_toNat_le, UInt64.toNat_zero, uncapped,
      Number.toNat_max, one]
    omega
  · cases h
    have some_cap : cap.toNat ≠ 0 := fun zero => uncapped (UInt64.toNat_inj.mp zero)
    simp only [UInt64.lt_iff_toNat_lt, UInt64.le_iff_toNat_le, UInt64.toNat_zero, Number.toNat_min,
      Number.toNat_max, one]
    omega

theorem rowWidth_pos {margin : Float} {cap width : UInt64} (h : rowWidth margin cap = .ok width) :
    0 < width := by
  simp only [rowWidth] at h
  split_ifs at h with _ _ _ nothing nothing
  all_goals
    cases h
    rw [UInt64.lt_iff_toNat_lt]
    exact Nat.pos_of_ne_zero fun zero => nothing (UInt64.toNat_inj.mp zero)

/-- Sizes are never zero. A row width goes up to the nearest number of 53 bits to its cap, so that
exactly those caps are honoured by all margins that are rounded down, or kept, or are the largest
word; a row count honours every cap. -/
theorem sizes_up_to_caps (widest deepest : UInt64) :
    (∀ margin width, rowWidth margin widest = .ok width →
      0 < width ∧ (0 < widest → width.toNat ≤ nearestOf53Bits widest.toNat ∧
        width.toNat ≤ widest.toNat + 2 ^ 10 ∧ (widest.toNat ≤ 2 ^ 53 → width ≤ widest))) ∧
    (0 < widest → ((∀ margin width, rowWidth margin widest = .ok width → width ≤ widest) ↔
      nearestOf53Bits widest.toNat ≤ widest.toNat ∨ widest.toNat = maxWord)) ∧
    ∀ certainty rows, rowCount certainty deepest = .ok rows →
      0 < rows ∧ (0 < deepest → rows ≤ deepest) := by
  have nonzero (capped : 0 < widest) : widest ≠ 0 := by
    rintro rfl
    exact absurd capped (by decide)
  refine ⟨fun margin width h => ⟨rowWidth_pos h, fun capped => ?_⟩, fun capped => ?_,
    fun certainty rows h => rowCount_bounds h⟩
  · have most := toNat_le_of_rowWidth (nonzero capped) h
    have rounded := Number.nearestOf53Bits_le widest.toNat_lt
    refine ⟨by omega, by omega, fun short => ?_⟩
    rw [Number.nearestOf53Bits_of_le short] at most
    rw [UInt64.le_iff_toNat_le]
    omega
  · constructor
    · intro honoured
      have reached := honoured _ _ (rowWidth_of_least_margin (nonzero capped))
      rw [UInt64.le_iff_toNat_le, Number.toNat_toUInt64_toFloat (nonzero capped)] at reached
      have word := widest.toNat_lt
      rw [maxWord] at reached ⊢
      omega
    · intro kept margin width h
      have most := toNat_le_of_rowWidth (nonzero capped) h
      rw [UInt64.le_iff_toNat_le]
      omega

/-- The first cap above `2 ^ 53` that is exceeded; and a cap of one row, which is reached. -/
theorem sizes_up_to_caps_exceeded :
    rowWidth (Float.ofBits 1) 9007199254740995 = .ok 9007199254740996 ∧
      nearestOf53Bits 9007199254740995 = 9007199254740996 ∧
      (0 < (9007199254740996 : UInt64) ∧
        (9007199254740996 : UInt64).toNat ≤ (9007199254740995 : UInt64).toNat + 2 ^ 10) ∧
      (¬ ∀ margin width, rowWidth margin 9007199254740995 = .ok width →
        width ≤ 9007199254740995) ∧
      rowCount 0.99 1 = .ok 1 ∧ 0 < (1 : UInt64) ∧ (1 : UInt64) ≤ 1 := by
  obtain ⟨widths, honoured, depths⟩ := sizes_up_to_caps 9007199254740995 1
  have wide : rowWidth (Float.ofBits 1) 9007199254740995 = .ok 9007199254740996 := by
    rw [rowWidth_of_least_margin (by decide)]
    exact congrArg Except.ok (by decide +kernel)
  have rows : rowCount 0.99 1 = .ok 1 := rowCount_of_cap_one (by decide +kernel)
  obtain ⟨positive, most⟩ := widths _ _ wide
  obtain ⟨some_row, few⟩ := depths _ _ rows
  refine ⟨wide, by decide +kernel, ⟨positive, (most (by decide)).2.1⟩, ?_, rows, some_row,
    few (by decide)⟩
  rw [honoured (by decide)]
  decide +kernel

end AccessHistory.Sizing
