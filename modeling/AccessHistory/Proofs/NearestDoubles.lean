import AccessHistory.Decimal.Nearest
import AccessHistory.Proofs.RoundedDoubles
import Mathlib

/-!
The double nearest to a decimal. The numbers that round to a double form an interval around it, and
a decimal in that interval is read as the double, however it is written.
-/

set_option autoImplicit false
set_option relaxedAutoImplicit false

namespace AccessHistory.Number

open Float.Model (Format UnpackedFloat)
open Float.Model.UnpackedFloat
open Decimal (quartersBelow)

/-! ### The interval of a double -/

/-- The numbers within half a unit of the magnitude, and no farther below it than the next double
allows. The ends belong to even mantissas. -/
def Scaled.Covers (d : Scaled) (x : ℚ) : Prop :=
  if d.mantissa % 2 = 0 then
    (4 * d.mantissa - quartersBelow d : ℕ) ≤ 4 * (x / 2 ^ d.exponent) ∧
      4 * (x / 2 ^ d.exponent) ≤ (4 * d.mantissa + 2 : ℕ)
  else
    (4 * d.mantissa - quartersBelow d : ℕ) < 4 * (x / 2 ^ d.exponent) ∧
      4 * (x / 2 ^ d.exponent) < (4 * d.mantissa + 2 : ℕ)

theorem quartersBelow_cases (d : Scaled) :
    quartersBelow d = 1 ∧ d.mantissa = 2 ^ 52 ∧ -1074 < d.exponent ∨
      quartersBelow d = 2 ∧ ¬ (d.mantissa = 2 ^ 52 ∧ -1074 < d.exponent) := by
  have hidden : hiddenBit = 2 ^ 52 := rfl
  rw [quartersBelow, hidden]
  split
  · next h => exact .inl ⟨rfl, h⟩
  · next h => exact .inr ⟨rfl, h⟩

variable {d : Scaled} {x : ℚ}

theorem quartersBelow_le (some_bit : d.mantissa ≠ 0) :
    quartersBelow d ≤ 2 ∧ quartersBelow d ≤ 4 * d.mantissa := by
  rcases quartersBelow_cases d with ⟨one, -⟩ | ⟨two, -⟩ <;> omega

theorem Scaled.Covers.bounds (h : d.Covers x) (some_bit : d.mantissa ≠ 0) :
    4 * (d.mantissa : ℚ) - quartersBelow d ≤ 4 * (x / 2 ^ d.exponent) ∧
      4 * (x / 2 ^ d.exponent) ≤ 4 * d.mantissa + 2 := by
  have few := (quartersBelow_le some_bit).2
  rw [Covers] at h
  split at h
  · obtain ⟨lower, upper⟩ := h
    push_cast [few] at lower upper
    exact ⟨lower, upper⟩
  · obtain ⟨lower, upper⟩ := h
    push_cast [few] at lower upper
    exact ⟨le_of_lt lower, le_of_lt upper⟩

/-- Odd mantissas have no ties. -/
theorem Scaled.Covers.even (h : d.Covers x) (some_bit : d.mantissa ≠ 0)
    (tie : 4 * (d.mantissa : ℚ) - quartersBelow d = 4 * (x / 2 ^ d.exponent) ∨
      4 * (x / 2 ^ d.exponent) = 4 * d.mantissa + 2) : d.mantissa % 2 = 0 := by
  have few := (quartersBelow_le some_bit).2
  by_contra odd
  rw [Covers, if_neg odd] at h
  obtain ⟨lower, upper⟩ := h
  push_cast [few] at lower upper
  rcases tie with tie | tie <;> linarith

/-- Most numbers in the interval are rounded in the unit of the double. -/
theorem Scaled.Covers.isNearest (h : d.Covers x) (some_bit : d.mantissa ≠ 0) :
    IsNearest (x / 2 ^ d.exponent) d.mantissa := by
  obtain ⟨lower, upper⟩ := h.bounds some_bit
  have few : (quartersBelow d : ℚ) ≤ 2 := by exact_mod_cast (quartersBelow_le some_bit).1
  refine ⟨by linarith, by linarith, ?_⟩
  rintro (above | below)
  · exact h.even some_bit (.inr (by linarith))
  · exact h.even some_bit (.inl (by linarith))

/-- How many units a number in the interval is. -/
theorem Scaled.Covers.exists_units (h : d.Covers x) (some_bit : d.mantissa ≠ 0) : ∃ y : ℚ,
    x = y * 2 ^ d.exponent ∧ 4 * (d.mantissa : ℚ) - quartersBelow d ≤ 4 * y ∧
      4 * y ≤ 4 * d.mantissa + 2 := by
  have unit_pos : (0 : ℚ) < 2 ^ d.exponent := zpow_pos (by norm_num) _
  exact ⟨x / 2 ^ d.exponent, (div_mul_cancel₀ _ (ne_of_gt unit_pos)).symm, h.bounds some_bit⟩

/-- Below a power of two, numbers have half its unit, and are rounded up to it. -/
theorem Scaled.Covers.below_power (h : d.Covers x) (some_bit : d.mantissa ≠ 0)
    (long : 2 ^ 52 ≤ d.mantissa) (least : -1074 < d.exponent) (below : x < 2 ^ 52 * 2 ^ d.exponent) :
    d.mantissa = 2 ^ 52 ∧ HasUnit x (d.exponent - 1) ∧
      IsNearest (x / 2 ^ (d.exponent - 1)) (2 ^ 53) := by
  obtain ⟨y, rfl, lower, -⟩ := h.exists_units some_bit
  have unit_pos : (0 : ℚ) < 2 ^ d.exponent := zpow_pos (by norm_num) _
  have fewer : y < 2 ^ 52 := lt_of_mul_lt_mul_right below (le_of_lt unit_pos)
  have power : d.mantissa = 2 ^ 52 := by
    have few : (quartersBelow d : ℚ) ≤ 2 := by exact_mod_cast (quartersBelow_le some_bit).1
    have : (d.mantissa : ℚ) < 2 ^ 52 + 1 := by linarith
    have : d.mantissa < 2 ^ 52 + 1 := by exact_mod_cast this
    omega
  have close : quartersBelow d = 1 := by
    rcases quartersBelow_cases d with ⟨one, -⟩ | ⟨-, other⟩
    · exact one
    · exact absurd ⟨power, least⟩ other
  rw [close, power] at lower
  push_cast at lower
  have half_pos : (0 : ℚ) < 2 ^ (d.exponent - 1) := zpow_pos (by norm_num) _
  have halves : y * 2 ^ d.exponent = 2 * y * 2 ^ (d.exponent - 1) := by
    rw [← sub_add_cancel d.exponent 1, zpow_add_one₀ (by norm_num), sub_add_cancel]
    ring
  rw [halves, mul_div_cancel_right₀ _ (ne_of_gt half_pos)]
  refine ⟨power, ⟨by omega, ?_, .inr ?_⟩, ⟨?_, ?_, fun _ => by decide⟩⟩
  · exact mul_lt_mul_of_pos_right (by linarith) half_pos
  · exact mul_le_mul_of_nonneg_right (by linarith) (le_of_lt half_pos)
  · push_cast
    linarith
  · push_cast
    linarith

theorem Scaled.Covers.lt (h : d.Covers x) (canonical : d.IsCanonical) (some_bit : d.mantissa ≠ 0) :
    x < 2 ^ 53 * 2 ^ d.exponent := by
  obtain ⟨y, rfl, -, upper⟩ := h.exists_units some_bit
  have short : (d.mantissa : ℚ) + 1 ≤ 2 ^ 53 := by exact_mod_cast canonical.short
  exact mul_lt_mul_of_pos_right (by linarith) (zpow_pos (by norm_num) _)

theorem RoundsTo.eq_of_covers {f : UnpackedFloat} (canonical : d.IsCanonical)
    (some_bit : d.mantissa ≠ 0) (covers : d.Covers x) (rounds : RoundsTo x d.negative f) :
    f = d.unpacked := by
  obtain ⟨t, r, unit, nearest, rfl⟩ := rounds
  by_cases full : d.exponent = -1074 ∨ 2 ^ 52 * 2 ^ d.exponent ≤ x
  · obtain rfl := unit.unique ⟨canonical.least, covers.lt canonical some_bit, full⟩
    obtain rfl := nearest.unique (covers.isNearest some_bit)
    rw [carried, if_neg (by have := canonical.short; omega)]
  · rw [not_or, not_le] at full
    have long := canonical.full.resolve_left full.1
    have least : -1074 < d.exponent := lt_of_le_of_ne canonical.least (Ne.symm full.1)
    obtain ⟨power, finer, up⟩ := covers.below_power some_bit long least full.2
    obtain rfl := unit.unique finer
    obtain rfl := nearest.unique up
    rw [carried, if_pos rfl, sub_add_cancel, ← power]

theorem Scaled.Covers.range (h : d.Covers x) (canonical : d.IsCanonical)
    (some_bit : d.mantissa ≠ 0) : 2 ^ (-1075 : ℤ) ≤ x ∧ x < 2 ^ (1024 : ℤ) := by
  constructor
  · obtain ⟨y, rfl, lower, -⟩ := h.exists_units some_bit
    have few : (quartersBelow d : ℚ) ≤ 2 := by exact_mod_cast (quartersBelow_le some_bit).1
    have whole : (1 : ℚ) ≤ d.mantissa := by exact_mod_cast Nat.one_le_iff_ne_zero.mpr some_bit
    calc (2 : ℚ) ^ (-1075 : ℤ) ≤ 2 ^ (d.exponent - 1) :=
          zpow_le_zpow_right₀ (by norm_num) (by have := canonical.least; omega)
      _ = 1 / 2 * 2 ^ d.exponent := by rw [zpow_sub_one₀ (by norm_num)]; ring
      _ ≤ y * 2 ^ d.exponent := by
        gcongr
        linarith
  · calc x < 2 ^ 53 * 2 ^ d.exponent := h.lt canonical some_bit
      _ ≤ 2 ^ 53 * 2 ^ (971 : ℤ) := by
        gcongr
        · norm_num
        · exact canonical.most
      _ = 2 ^ (1024 : ℤ) := by
        rw [← zpow_natCast, ← zpow_add₀ (by norm_num)]
        norm_num

/-! ### Converting decimals -/

/-- The double is the positive number `x`, with all bits of its mantissa. -/
def IsFull (f : Float) (x : ℚ) : Prop :=
  ∃ m e, Binary64.ofFloat f = .finite ⟨false, m, e⟩ ∧ 2 ^ 52 ≤ m ∧ m * 2 ^ e = x

theorem IsFull.unpack {f : Float} (h : IsFull f x) :
    ∃ m e, ∃ positive : 0 < m, f.toModel.unpack = .finite .positive m e positive ∧
      52 ≤ m.log2 ∧ m * 2 ^ e = x := by
  obtain ⟨m, e, decoded, long, value⟩ := h
  have some_bit : m ≠ 0 := by omega
  refine ⟨m, e, Nat.pos_of_ne_zero some_bit, ?_, (Nat.le_log2 some_bit).mpr long, value⟩
  rw [unpack_eq, decoded, Binary64.unpacked, Scaled.unpacked, dif_neg some_bit]
  rfl

/-- Whole numbers of at most 53 bits are converted exactly. -/
theorem isFull_toFloat {n : ℕ} (positive : 0 < n) (short : n < 2 ^ 53) :
    IsFull n.toUInt64.toFloat n := by
  have word : n.toUInt64.toNat = n := UInt64.toNat_ofNat_of_lt' (by rw [UInt64.size]; omega)
  have nonzero : n.toUInt64 ≠ 0 := fun zero => by
    rw [zero, UInt64.toNat_zero] at word
    omega
  obtain ⟨t, r, unit, nearest, decoded, -⟩ := exists_ofFloat_toFloat nonzero
  rw [word] at unit nearest
  have short' : (n : ℚ) < 2 ^ (53 : ℤ) := by exact_mod_cast short
  have small := unit.lt_of_lt short' (by decide)
  have canonical := unit.isCanonical_carried nearest (by omega) false
  have value : (carried false r t).magnitude = n := by
    rw [magnitude_carried, unit.exact nearest short]
  have full := canonical.full_of_one_le (by rw [value]; exact_mod_cast positive)
  refine ⟨_, _, decoded.trans (congrArg Binary64.finite ?_), full, value⟩
  rw [carried]
  split <;> rfl

/-- The tabulated powers of ten are whole numbers of 53 bits and a power of two. -/
theorem ofFloat_powerOfTen : ∀ k : Fin 23,
    Binary64.ofFloat Float.exactlyRepresentablePowersOfTen[k] =
      .finite ⟨false, 10 ^ k.val * 2 ^ 52 / 2 ^ (10 ^ k.val).log2, (10 ^ k.val).log2 - 52⟩ ∧
    2 ^ (10 ^ k.val).log2 ∣ 10 ^ k.val * 2 ^ 52 := by
  decide +kernel

theorem isFull_powerOfTen {k : ℕ} (h : k < Float.exactlyRepresentablePowersOfTen.size) :
    IsFull Float.exactlyRepresentablePowersOfTen[k] (10 ^ k) := by
  obtain ⟨decoded, divides⟩ := ofFloat_powerOfTen ⟨k, h⟩
  have positive : 10 ^ k ≠ 0 := Nat.ne_of_gt (Nat.pow_pos (by decide))
  have long := ((Nat.log2_eq_iff positive).mp rfl).1
  refine ⟨_, _, decoded, ?_, ?_⟩
  · rw [Nat.le_div_iff_mul_le (Nat.two_pow_pos _), Nat.mul_comm]
    exact Nat.mul_le_mul_right _ long
  · rw [Nat.cast_div divides (by positivity), zpow_sub₀ (by norm_num)]
    push_cast
    rw [zpow_natCast]
    field_simp

theorem IsFull.roundsTo_mul {f g : Float} {y : ℚ} (hf : IsFull f x) (hg : IsFull g y) :
    ∃ u, (f * g).toModel = .pack u ∧ RoundsTo (x * y) false u := by
  obtain ⟨m, e, positive, unpacked, long, rfl⟩ := hf.unpack
  obtain ⟨m', e', positive', unpacked', long', rfl⟩ := hg.unpack
  refine ⟨_, rfl, ?_⟩
  rw [unpacked, unpacked']
  refine Number.roundsTo_mul positive positive' ?_
  have full := (Nat.le_log2 (Nat.ne_of_gt positive)).mp long
  exact (Nat.le_log2 (by positivity)).mpr (Nat.le_trans full (Nat.le_mul_of_pos_right _ positive'))

theorem IsFull.roundsTo_div {f g : Float} {y : ℚ} (hf : IsFull f x) (hg : IsFull g y) :
    ∃ u, (f / g).toModel = .pack u ∧ RoundsTo (x / y) false u := by
  obtain ⟨m, e, positive, unpacked, -, rfl⟩ := hf.unpack
  obtain ⟨m', e', positive', unpacked', -, rfl⟩ := hg.unpack
  refine ⟨_, rfl, ?_⟩
  rw [unpacked, unpacked']
  exact Number.roundsTo_div positive positive'

/-- The exponents of decimals in the range of doubles are never cut off. -/
theorem exponent_bounds {n : ℕ} {k : ℤ} (some_digit : n ≠ 0)
    (lower : 2 ^ (-1075 : ℤ) ≤ (n * 10 ^ k : ℚ)) (upper : (n * 10 ^ k : ℚ) < 2 ^ (1024 : ℤ)) :
    k < 1024 ∧ -(1076 + n.log2 : ℤ) < k := by
  constructor
  · by_contra huge
    have whole : (1 : ℚ) ≤ n := by exact_mod_cast Nat.one_le_iff_ne_zero.mpr some_digit
    have : (2 : ℚ) ^ (1024 : ℤ) ≤ n * 10 ^ k := by
      calc (2 : ℚ) ^ (1024 : ℤ) ≤ 2 ^ k := zpow_le_zpow_right₀ (by norm_num) (by omega)
        _ ≤ 10 ^ k := zpow_le_zpow_left₀ (by omega) (by norm_num) (by norm_num)
        _ ≤ n * 10 ^ k := le_mul_of_one_le_left (by positivity) whole
    linarith
  · by_contra tiny
    obtain ⟨j, rfl⟩ : ∃ j : ℕ, k = -j := ⟨(-k).toNat, by omega⟩
    have bits : (n : ℚ) < 2 ^ (n.log2 + 1) := by
      exact_mod_cast ((Nat.log2_eq_iff some_digit).mp rfl).2
    have below : (n * 10 ^ (-j : ℤ) : ℚ) < 2 ^ (-1075 : ℤ) := by
      calc (n * 10 ^ (-j : ℤ) : ℚ) = n / 10 ^ j := by
            rw [zpow_neg, zpow_natCast, div_eq_mul_inv]
        _ ≤ n / 2 ^ j := by
          gcongr
          norm_num
        _ < 2 ^ (n.log2 + 1) / 2 ^ j := div_lt_div_of_pos_right bits (by positivity)
        _ = 2 ^ ((n.log2 : ℤ) + 1 - j) := by
          rw [zpow_sub₀ (by norm_num), zpow_natCast, zpow_add_one₀ (by norm_num), zpow_natCast,
            pow_succ]
        _ ≤ 2 ^ (-1075 : ℤ) := zpow_le_zpow_right₀ (by norm_num) (by omega)
    linarith

theorem roundsTo_whole {n k : ℕ} (positive : 0 < n) (wide : 0 < n <<< 53) (power : 0 < 10 ^ k) :
    RoundsTo (n * 10 ^ k) false (UnpackedFloat.mul Format.binary64
      (.finite .positive (n <<< 53) (-53) wide) (.finite .positive (10 ^ k) 0 power)) := by
  have long : 52 ≤ (n <<< 53 * 10 ^ k).log2 := by
    refine (Nat.le_log2 (Nat.ne_of_gt (Nat.mul_pos wide power))).mpr ?_
    calc 2 ^ 52 ≤ n * 2 ^ 53 := by omega
      _ = n <<< 53 := (Nat.shiftLeft_eq _ _).symm
      _ ≤ n <<< 53 * 10 ^ k := Nat.le_mul_of_pos_right _ power
  have rounds : RoundsTo ((n <<< 53 : ℕ) * 2 ^ (-53 : ℤ) * ((10 ^ k : ℕ) * 2 ^ (0 : ℤ))) false _ :=
    roundsTo_mul wide power long
  have value : ((n <<< 53 : ℕ) * 2 ^ (-53 : ℤ) * ((10 ^ k : ℕ) * 2 ^ (0 : ℤ)) : ℚ) =
      n * 10 ^ k := by
    rw [Nat.shiftLeft_eq]
    push_cast
    norm_num
    ring
  rwa [value] at rounds

theorem roundsTo_fraction {n k : ℕ} (positive : 0 < n) (power : 0 < 10 ^ k) :
    RoundsTo (n / 10 ^ k) false (UnpackedFloat.div Format.binary64
      (.finite .positive n 0 positive) (.finite .positive (10 ^ k) 0 power)) := by
  have rounds : RoundsTo (n * 2 ^ (0 : ℤ) / ((10 ^ k : ℕ) * 2 ^ (0 : ℤ))) false _ :=
    roundsTo_div positive power
  have value : (n * 2 ^ (0 : ℤ) / ((10 ^ k : ℕ) * 2 ^ (0 : ℤ)) : ℚ) = n / 10 ^ k := by
    push_cast
    norm_num
  rwa [value] at rounds

/-- A power of ten as a factor or as a divisor. -/
theorem mul_zpow_ten_eq (n : ℕ) (k : ℤ) :
    (n * 10 ^ k : ℚ) =
      if k < 0 then (n : ℚ) / 10 ^ k.natAbs else (n : ℚ) * 10 ^ k.natAbs := by
  split
  · next negative =>
    obtain ⟨j, rfl⟩ : ∃ j : ℕ, k = -j := ⟨(-k).toNat, by omega⟩
    rw [zpow_neg, zpow_natCast, Int.natAbs_neg, Int.natAbs_natCast, div_eq_mul_inv]
  · next whole =>
    obtain ⟨j, rfl⟩ := Int.eq_ofNat_of_zero_le (Int.not_lt.mp whole)
    rw [zpow_natCast, Int.natAbs_natCast]

theorem roundsTo_ofScientific {n : ℕ} {k : ℤ} (some_digit : n ≠ 0)
    (lower : 2 ^ (-1075 : ℤ) ≤ (n * 10 ^ k : ℚ)) (upper : (n * 10 ^ k : ℚ) < 2 ^ (1024 : ℤ)) :
    RoundsTo (n * 10 ^ k) false (UnpackedFloat.ofScientific Format.binary64 n k) := by
  have positive : 0 < n := Nat.pos_of_ne_zero some_digit
  obtain ⟨not_huge, not_tiny⟩ := exponent_bounds some_digit lower upper
  have cut : (2 : ℤ) ^ Format.binary64.exponentBits = 2048 := rfl
  rw [UnpackedFloat.ofScientific, dif_neg some_digit, cut, if_neg (by omega), if_neg (by omega),
    mul_zpow_ten_eq]
  by_cases negative : k < 0
  · have size : (-k).toNat = k.natAbs := by omega
    rw [if_pos negative, if_neg (by omega)]
    simp only [size]
    exact roundsTo_fraction positive _
  · have size : k.toNat = k.natAbs := by omega
    rw [if_neg negative, if_pos (by omega)]
    simp only [size]
    exact roundsTo_whole positive _ _

/-- Both ways of converting a decimal round it once. -/
theorem exists_toModel_ofScientific {n : ℕ} {k : ℤ} (some_digit : n ≠ 0)
    (lower : 2 ^ (-1075 : ℤ) ≤ (n * 10 ^ k : ℚ)) (upper : (n * 10 ^ k : ℚ) < 2 ^ (1024 : ℤ)) :
    ∃ u, (Float.ofScientific n (decide (k < 0)) k.natAbs).toModel = .pack u ∧
      RoundsTo (n * 10 ^ k) false u := by
  by_cases short : n < 2 ^ 53 ∧ k.natAbs ≤ 22
  · have whole := isFull_toFloat (Nat.pos_of_ne_zero some_digit) short.1
    have tabulated : k.natAbs < Float.exactlyRepresentablePowersOfTen.size :=
      Nat.lt_succ_of_le short.2
    have power := isFull_powerOfTen tabulated
    rw [Float.ofScientific, dif_pos short, mul_zpow_ten_eq]
    by_cases negative : k < 0
    · rw [if_pos negative, if_pos (decide_eq_true negative)]
      exact whole.roundsTo_div power
    · rw [if_neg negative, if_neg (by simpa using negative)]
      exact whole.roundsTo_mul power
  · refine ⟨UnpackedFloat.ofScientific Format.binary64 n k, ?_,
      roundsTo_ofScientific some_digit lower upper⟩
    have exponent : (if decide (k < 0) = true then Int.negOfNat k.natAbs else Int.ofNat k.natAbs) =
        k := by
      split
      · next negative =>
        rw [decide_eq_true_eq] at negative
        rw [Int.negOfNat_eq]
        change -(k.natAbs : ℤ) = k
        omega
      · next whole =>
        rw [decide_eq_true_eq] at whole
        exact Int.natAbs_of_nonneg (by omega)
    rw [Float.ofScientific, dif_neg short]
    simp only [exponent]
    rfl

theorem ofFloat_neg {f : Float} (decoded : Binary64.ofFloat f = .finite d)
    (some_bit : d.mantissa ≠ 0) :
    Binary64.ofFloat (-f) = .finite { d with negative := !d.negative } := by
  have canonical := isCanonical_of_ofFloat decoded
  refine ofFloat_of_toModel (canonical.signed _) some_bit ?_
  change Float.Model.pack f.toModel.unpack.neg = _
  rw [unpack_eq, decoded, Binary64.unpacked, Scaled.unpacked, Scaled.unpacked, dif_neg some_bit,
    dif_neg some_bit]
  cases d.negative <;> rfl

end AccessHistory.Number

namespace AccessHistory.Decimal

open Number (Binary64 Scaled)

/-- The number that a decimal writes. -/
def value (n : Decimal) : ℚ := n.digits * 10 ^ n.exponent

theorem lt_pow_digitCount (n : ℕ) : n < 10 ^ digitCount n :=
  (Nat.length_toDigits_le_iff (by decide) Nat.length_toDigits_pos).mp (Nat.le_refl _)

theorem pow_digitCount_sub_one_le {n : ℕ} (some_digit : n ≠ 0) : 10 ^ (digitCount n - 1) ≤ n := by
  rcases Nat.eq_zero_or_pos (digitCount n - 1) with one | more
  · rw [one]
    exact Nat.one_le_iff_ne_zero.mpr some_digit
  · by_contra less
    have short := (Nat.length_toDigits_le_iff (by decide : 1 < 10) more).mpr
      (Nat.lt_of_not_le less)
    rw [← digitCount] at short
    omega

/-- A number with so many digits, between two powers of ten. -/
theorem digitCount_bounds {n : ℕ} (some_digit : n ≠ 0) :
    (10 : ℚ) ^ (digitCount n - 1 : ℤ) ≤ n ∧ (n : ℚ) < 10 ^ (digitCount n : ℤ) := by
  have some_count : 1 ≤ digitCount n := Nat.length_toDigits_pos
  constructor
  · rw [← Nat.cast_pred some_count, zpow_natCast]
    exact_mod_cast pow_digitCount_sub_one_le some_digit
  · rw [zpow_natCast]
    exact_mod_cast lt_pow_digitCount n

/-- The highest digit of a decimal is not far off the range of doubles. -/
theorem top_bounds {n : Decimal} (some_digit : n.digits ≠ 0) (lower : 2 ^ (-1075 : ℤ) ≤ n.value)
    (upper : n.value < 2 ^ (1024 : ℤ)) :
    -330 ≤ digitCount n.digits + n.exponent ∧ digitCount n.digits + n.exponent ≤ 310 := by
  rw [value] at lower upper
  obtain ⟨least, most⟩ := digitCount_bounds some_digit
  have powers : (2 : ℚ) ^ (1075 : ℤ) ≤ 10 ^ (330 : ℤ) ∧ (2 : ℚ) ^ (1024 : ℤ) ≤ 10 ^ (310 : ℤ) := by
    have small : 2 ^ 1075 ≤ 10 ^ 330 := by decide +kernel
    have large : 2 ^ 1024 ≤ 10 ^ 310 := by decide +kernel
    exact ⟨by exact_mod_cast small, by exact_mod_cast large⟩
  have power_pos : (0 : ℚ) < 10 ^ n.exponent := zpow_pos (by norm_num) _
  constructor
  · by_contra tiny
    have : (2 : ℚ) ^ (-1075 : ℤ) < 2 ^ (-1075 : ℤ) := by
      calc (2 : ℚ) ^ (-1075 : ℤ) ≤ n.digits * 10 ^ n.exponent := lower
        _ < 10 ^ (digitCount n.digits : ℤ) * 10 ^ n.exponent :=
          mul_lt_mul_of_pos_right most power_pos
        _ = 10 ^ (digitCount n.digits + n.exponent) := (zpow_add₀ (by norm_num) _ _).symm
        _ ≤ 10 ^ (-330 : ℤ) := zpow_le_zpow_right₀ (by norm_num) (by omega)
        _ ≤ 2 ^ (-1075 : ℤ) := by
          rw [zpow_neg, zpow_neg]
          exact inv_anti₀ (by positivity) powers.1
    exact lt_irrefl _ this
  · by_contra huge
    have : (2 : ℚ) ^ (1024 : ℤ) < 2 ^ (1024 : ℤ) := by
      calc (2 : ℚ) ^ (1024 : ℤ) ≤ 10 ^ (310 : ℤ) := powers.2
        _ ≤ 10 ^ (digitCount n.digits - 1 + n.exponent) :=
          zpow_le_zpow_right₀ (by norm_num) (by omega)
        _ = 10 ^ (digitCount n.digits - 1 : ℤ) * 10 ^ n.exponent := zpow_add₀ (by norm_num) _ _
        _ ≤ n.digits * 10 ^ n.exponent := mul_le_mul_of_nonneg_right least (le_of_lt power_pos)
        _ < 2 ^ (1024 : ℤ) := upper
    exact lt_irrefl _ this

theorem nearest?_zero {x : Float} {d : Scaled} (decoded : Binary64.ofFloat x = .finite d)
    (zero : d.mantissa = 0) (exponent : ℤ) : nearest? d.negative ⟨0, exponent⟩ = some x := by
  have canonical := Number.isCanonical_of_ofFloat decoded
  have least := canonical.full.resolve_right (by omega)
  rw [nearest?, if_pos (.inl rfl), Option.some_inj]
  obtain ⟨negative, m, e⟩ := d
  obtain rfl : m = 0 := zero
  obtain rfl : e = -1074 := least
  refine Number.eq_of_ofFloat ?_ decoded
  cases negative <;> decide +kernel

theorem digits_ne_zero_of_covers {d : Scaled} {n : Decimal} (covers : d.Covers n.value)
    (canonical : d.IsCanonical) (some_bit : d.mantissa ≠ 0) : n.digits ≠ 0 := by
  intro zero
  have lower := (covers.range canonical some_bit).1
  have positive : (0 : ℚ) < 2 ^ (-1075 : ℤ) := zpow_pos (by norm_num) _
  rw [value, zero, Nat.cast_zero, zero_mul] at lower
  linarith

/-- A decimal in the interval of a double is read as that double, however it is written. -/
theorem nearest?_of_covers {x : Float} {d : Scaled} {n : Decimal}
    (decoded : Binary64.ofFloat x = .finite d) (some_bit : d.mantissa ≠ 0)
    (covers : d.Covers n.value) : nearest? d.negative n = some x := by
  have canonical := Number.isCanonical_of_ofFloat decoded
  obtain ⟨lower, upper⟩ := covers.range canonical some_bit
  have some_digit := digits_ne_zero_of_covers covers canonical some_bit
  obtain ⟨not_tiny, not_huge⟩ := top_bounds some_digit lower upper
  obtain ⟨u, packed, rounds⟩ := Number.exists_toModel_ofScientific some_digit lower upper
  -- The magnitude is read first, and then its sign.
  have read : Binary64.ofFloat (Float.ofScientific n.digits (decide (n.exponent < 0))
      n.exponent.natAbs) = .finite { d with negative := false } := by
    refine Number.ofFloat_of_toModel (canonical.signed false) some_bit ?_
    rw [packed]
    exact congrArg _ (Number.RoundsTo.eq_of_covers (canonical.signed false) some_bit covers rounds)
  have finite := Number.isFinite_iff.mpr ⟨_, read⟩
  rw [nearest?, if_neg (by omega), if_neg (by omega)]
  simp only [finite, if_true, Option.some_inj]
  refine Number.eq_of_ofFloat ?_ decoded
  split
  · next negative =>
    rw [Number.ofFloat_neg read some_bit]
    exact congrArg Binary64.finite (by rw [Bool.not_false, ← negative])
  · next positive =>
    rw [read, ← Bool.eq_false_of_not_eq_true positive]

end AccessHistory.Decimal
