import AccessHistory.Proofs.DecodedDoubles
import Mathlib

/-!
Rounding to doubles, on exact rational numbers. A number has one unit in which it takes at most 53
bits, and all of them unless the unit is the least one; it is rounded to the nearest multiple of
that unit, and to the even one of two. Products, quotients and conversions of words are rounded this
way.
-/

set_option autoImplicit false
set_option relaxedAutoImplicit false

namespace AccessHistory.Number

open Float.Model (Format UnpackedFloat totalExponent)
open Float.Model.UnpackedFloat

/-! ### The nearest whole number -/

/-- A whole number nearest to `x`, and an even one if another is as near. -/
structure IsNearest (x : ℚ) (r : ℕ) : Prop where
  below : x ≤ r + 1 / 2
  above : r ≤ x + 1 / 2
  even : x = r + 1 / 2 ∨ r = x + 1 / 2 → r % 2 = 0

theorem IsNearest.le_of {x : ℚ} {r r' : ℕ} (h : IsNearest x r) (h' : IsNearest x r') : r ≤ r' := by
  by_contra larger
  have next : (r' : ℚ) + 1 ≤ r := by exact_mod_cast Nat.lt_of_not_le larger
  have tie : (r : ℚ) = x + 1 / 2 := le_antisymm h.above (by linarith [h'.below])
  have tie' : x = r' + 1 / 2 := le_antisymm h'.below (by linarith [h.above])
  have adjacent : r = r' + 1 := by
    have : (r : ℚ) = r' + 1 := by linarith
    exact_mod_cast this
  have := h.even (.inr tie)
  have := h'.even (.inl tie')
  omega

theorem IsNearest.unique {x : ℚ} {r r' : ℕ} (h : IsNearest x r) (h' : IsNearest x r') : r = r' :=
  Nat.le_antisymm (h.le_of h') (h'.le_of h)

theorem IsNearest.pos {x : ℚ} {r : ℕ} (h : IsNearest x r) (large : 1 / 2 < x) : 0 < r := by
  rcases Nat.eq_zero_or_pos r with rfl | positive
  · exact absurd h.below (by push_cast; linarith)
  · exact positive

theorem isNearest_natCast (n : ℕ) : IsNearest n n where
  below := by linarith
  above := by linarith
  even := by
    rintro (tie | tie) <;> linarith

/-! ### Mantissas with two more bits -/

/-- What a mantissa and its accuracy say about a number, in units of the mantissa. -/
def Pins (x : ℚ) (m : ℕ) : Accuracy → Prop
  | .exact => x = m
  | .inexact .lt => m < x ∧ x < m + 1 / 2
  | .inexact .eq => x = m + 1 / 2
  | .inexact .gt => m + 1 / 2 < x ∧ x < m + 1

theorem Pins.bounds {x : ℚ} {m : ℕ} {accuracy : Accuracy} (h : Pins x m accuracy) :
    m ≤ x ∧ x < m + 1 := by
  rcases accuracy with _ | order
  · constructor <;> linarith [show x = m from h]
  · cases order with
    | lt => constructor <;> linarith [h.1, h.2]
    | eq => constructor <;> linarith [show x = m + 1 / 2 from h]
    | gt => constructor <;> linarith [h.1, h.2]

theorem Pins.shiftRightOne {x : ℚ} {em : ExtendedMantissa}
    (h : Pins x em.mantissa em.accuracy) :
    Pins (x / 2) em.shiftRightOne.mantissa em.shiftRightOne.accuracy := by
  obtain ⟨m, roundBit, stickyBit⟩ := em
  have halves : (m : ℚ) = 2 * (m / 2 : ℕ) + (m % 2 : ℕ) := by
    exact_mod_cast (Nat.div_add_mod m 2).symm
  simp only [ExtendedMantissa.shiftRightOne]
  generalize m / 2 = half at halves
  -- The bit that is dropped becomes the round bit, and that one is kept in the sticky bit.
  rcases Nat.mod_two_eq_zero_or_one m with parity | parity <;>
    rw [parity] at halves ⊢ <;> push_cast at halves <;>
    cases roundBit <;> cases stickyBit <;>
    simp only [ExtendedMantissa.accuracy, Pins, bne_self_eq_false, Bool.or_false, Bool.or_true,
      show (1 != 0) = true from rfl] at h ⊢
  all_goals first
    | linarith
    | constructor <;> linarith [h.1, h.2]
    | constructor <;> linarith

theorem Pins.shiftRight {x : ℚ} {em : ExtendedMantissa} (h : Pins x em.mantissa em.accuracy)
    (k : ℕ) : Pins (x / 2 ^ k) (em >>> k).mantissa (em >>> k).accuracy := by
  induction k with
  | zero =>
    rw [pow_zero, div_one]
    exact h
  | succ k ih =>
    rw [pow_succ, ← div_div]
    exact ih.shiftRightOne

theorem accuracy_ofMantissaAndAccuracy (m : ℕ) (accuracy : Accuracy) :
    (ExtendedMantissa.ofMantissaAndAccuracy m accuracy).accuracy = accuracy := by
  rcases accuracy with _ | order
  · rfl
  · cases order <;> rfl

/-- Two bits are enough to find the nearest mantissa. -/
theorem Pins.isNearest {x : ℚ} {em : ExtendedMantissa} (h : Pins x em.mantissa em.accuracy) :
    IsNearest x em.roundedMantissa := by
  obtain ⟨m, roundBit, stickyBit⟩ := em
  cases roundBit <;> cases stickyBit <;>
    simp only [ExtendedMantissa.roundedMantissa, ExtendedMantissa.accuracy, Pins,
      Accuracy.roundToNearestEven] at h ⊢
  · exact h ▸ isNearest_natCast m
  · refine ⟨by linarith [h.2], by linarith [h.1], ?_⟩
    rintro (tie | tie) <;> linarith [h.1, h.2]
  · rcases Nat.mod_two_eq_zero_or_one m with parity | parity <;> rw [parity]
    · exact ⟨by rw [h]; simp, by rw [h]; push_cast; linarith, fun _ => by omega⟩
    · exact ⟨by rw [h]; push_cast; linarith, by rw [h]; push_cast; linarith, fun _ => by omega⟩
  · refine ⟨by push_cast; linarith [h.2], by push_cast; linarith [h.1], ?_⟩
    push_cast
    rintro (tie | tie) <;> linarith [h.1, h.2]

/-! ### Units -/

/-- The unit `2 ^ t` in which `x` has at most 53 bits, and no fewer unless it is the least one. -/
structure HasUnit (x : ℚ) (t : ℤ) : Prop where
  least : -1074 ≤ t
  short : x < 2 ^ 53 * 2 ^ t
  full : t = -1074 ∨ 2 ^ 52 * 2 ^ t ≤ x

theorem HasUnit.le_of {x : ℚ} {t t' : ℤ} (h : HasUnit x t) (h' : HasUnit x t') : t ≤ t' := by
  rcases h.full with least | long
  · exact least ▸ h'.least
  · by_contra larger
    have two_pos : (0 : ℚ) < 2 := by norm_num
    have next : (2 : ℚ) ^ (t' + 1) ≤ 2 ^ t := zpow_le_zpow_right₀ (by norm_num) (by omega)
    rw [zpow_add_one₀ (ne_of_gt two_pos)] at next
    linarith [h'.short]

theorem HasUnit.unique {x : ℚ} {t t' : ℤ} (h : HasUnit x t) (h' : HasUnit x t') : t = t' :=
  le_antisymm (h.le_of h') (h'.le_of h)

theorem HasUnit.lt_of_lt {x : ℚ} {t k : ℤ} (h : HasUnit x t) (small : x < 2 ^ k)
    (normal : -1022 < k) : t + 52 < k := by
  rcases h.full with least | long
  · omega
  · have powers : (2 : ℚ) ^ (t + 52) < 2 ^ k := by
      rw [zpow_add₀ (by norm_num), mul_comm]
      exact_mod_cast lt_of_le_of_lt long small
    exact (zpow_lt_zpow_iff_right₀ (by norm_num)).mp powers

theorem targetExponent_binary64 (t : ℤ) : Format.binary64.targetExponent t = max (t - 53) (-1074) := by
  simp only [Format.targetExponent, Format.mantissaBits, Format.minExponent]
  omega

theorem lt_zpow_of_lt {x : ℚ} {m : ℕ} {e : ℤ} (upper : x < (m + 1) * 2 ^ e) :
    x < 2 ^ (m.log2 + 1 + e : ℤ) := by
  have bits : m + 1 ≤ 2 ^ (m.log2 + 1) := by
    rcases Nat.eq_zero_or_pos m with rfl | positive
    · decide
    · exact ((Nat.log2_eq_iff (by omega)).mp rfl).2
  calc x < (m + 1) * 2 ^ e := upper
    _ ≤ 2 ^ (m.log2 + 1) * 2 ^ e := by
      gcongr
      exact_mod_cast bits
    _ = 2 ^ (m.log2 + 1 + e : ℤ) := by
      rw [zpow_add₀ (by norm_num)]
      norm_cast

theorem zpow_le_of_le {x : ℚ} {m : ℕ} {e : ℤ} (positive : 0 < m) (lower : m * 2 ^ e ≤ x) :
    2 ^ (m.log2 + e : ℤ) ≤ x := by
  have bits := ((Nat.log2_eq_iff (by omega)).mp (rfl : m.log2 = m.log2)).1
  calc (2 : ℚ) ^ (m.log2 + e : ℤ) = 2 ^ m.log2 * 2 ^ e := by
        rw [zpow_add₀ (by norm_num)]
        norm_cast
    _ ≤ m * 2 ^ e := by
      gcongr
      exact_mod_cast bits
    _ ≤ x := lower

/-- The target of a mantissa is the unit of all numbers that it is the whole part of. -/
theorem hasUnit_targetExponent {x : ℚ} {m : ℕ} {e : ℤ} (lower : m * 2 ^ e ≤ x)
    (upper : x < (m + 1) * 2 ^ e)
    (enough : e ≤ Format.binary64.targetExponent (totalExponent m e)) :
    HasUnit x (Format.binary64.targetExponent (totalExponent m e)) := by
  rw [targetExponent_binary64, totalExponent] at *
  have scale (k t : ℤ) : (2 : ℚ) ^ k * 2 ^ t = 2 ^ (k + t) := (zpow_add₀ (by norm_num) k t).symm
  refine ⟨by omega, ?_, ?_⟩
  · calc x < 2 ^ (m.log2 + 1 + e : ℤ) := lt_zpow_of_lt upper
      _ ≤ 2 ^ (53 + max ((m.log2 : ℤ) + 1 + e - 53) (-1074)) :=
        zpow_le_zpow_right₀ (by norm_num) (by omega)
      _ = 2 ^ 53 * 2 ^ max ((m.log2 : ℤ) + 1 + e - 53) (-1074) := (scale 53 _).symm
  · rcases Nat.eq_zero_or_pos m with rfl | positive
    · left
      simp only [Nat.log2_zero] at enough ⊢
      omega
    · rcases le_total ((m.log2 : ℤ) + 1 + e - 53) (-1074) with small | large
      · exact .inl (max_eq_right small)
      · right
        rw [max_eq_left large]
        calc (2 : ℚ) ^ 52 * 2 ^ ((m.log2 : ℤ) + 1 + e - 53) =
            2 ^ (52 + ((m.log2 : ℤ) + 1 + e - 53)) := scale 52 _
          _ = 2 ^ (m.log2 + e : ℤ) := by
            congr 1
            ring
          _ ≤ x := zpow_le_of_le positive lower

/-- Whole numbers of at most 53 bits are kept: their unit divides one. -/
theorem HasUnit.exact {n r : ℕ} {t : ℤ} (unit : HasUnit n t) (nearest : IsNearest (n / 2 ^ t) r)
    (short : n < 2 ^ 53) : (r : ℚ) * 2 ^ t = n := by
  have short' : (n : ℚ) < 2 ^ (53 : ℤ) := by exact_mod_cast short
  have small := unit.lt_of_lt short' (by decide)
  obtain ⟨k, rfl⟩ : ∃ k : ℕ, t = -k := ⟨(-t).toNat, by omega⟩
  have whole : (n : ℚ) / 2 ^ (-k : ℤ) = (n * 2 ^ k : ℕ) := by
    rw [zpow_neg, zpow_natCast, div_inv_eq_mul]
    push_cast
    rfl
  rw [whole] at nearest
  rw [nearest.unique (isNearest_natCast _), ← whole, div_mul_cancel₀ _ (zpow_ne_zero _ (by norm_num))]

/-! ### Rounding -/

/-- So many units: a full 54th bit is carried into the exponent. -/
def carried (negative : Bool) (r : ℕ) (t : ℤ) : Scaled :=
  if r = 2 ^ 53 then ⟨negative, 2 ^ 52, t + 1⟩ else ⟨negative, r, t⟩

theorem magnitude_carried (negative : Bool) (r : ℕ) (t : ℤ) :
    (carried negative r t).magnitude = r * 2 ^ t := by
  rw [carried]
  split
  · next full =>
    rw [full, Scaled.magnitude, zpow_add_one₀ (by norm_num)]
    push_cast
    ring
  · rfl

theorem negative_carried (negative : Bool) (r : ℕ) (t : ℤ) :
    (carried negative r t).negative = negative := by
  rw [carried]
  split <;> rfl

theorem mantissa_carried_eq_zero_iff {negative : Bool} {r : ℕ} {t : ℤ} :
    (carried negative r t).mantissa = 0 ↔ r = 0 := by
  rw [carried]
  split
  · next full => simp [full]
  · rfl

/-- The number `x`, rounded and given a sign. -/
def RoundsTo (x : ℚ) (negative : Bool) (f : UnpackedFloat) : Prop :=
  ∃ t r, HasUnit x t ∧ IsNearest (x / 2 ^ t) r ∧ f = (carried negative r t).unpacked

theorem HasUnit.nearest_le {x : ℚ} {t : ℤ} {r : ℕ} (h : HasUnit x t)
    (nearest : IsNearest (x / 2 ^ t) r) : r ≤ 2 ^ 53 := by
  have unit_pos : (0 : ℚ) < 2 ^ t := zpow_pos (by norm_num) t
  have short : x / 2 ^ t < 2 ^ 53 := (div_lt_iff₀ unit_pos).mpr h.short
  have close : (r : ℚ) < 2 ^ 53 + 1 := by linarith [nearest.above]
  have : r < 2 ^ 53 + 1 := by exact_mod_cast close
  omega

theorem shiftToTargetExponent_exact {r : ℕ} {t : ℤ} (short : r < 2 ^ 53) (least : -1074 ≤ t) :
    shiftToTargetExponent Format.binary64 r t .exact =
      (ExtendedMantissa.ofMantissaAndAccuracy r .exact, t) := by
  have bits : r.log2 ≤ 52 := by
    rcases Nat.eq_zero_or_pos r with rfl | positive
    · decide
    · exact Nat.le_of_lt_succ ((Nat.log2_lt (by omega)).mpr short)
  have shift : (Format.binary64.targetExponent (totalExponent r t) - t).toNat = 0 := by
    rw [targetExponent_binary64, totalExponent]
    omega
  simp only [shiftToTargetExponent, shiftToExponent, shift]
  exact Prod.ext rfl (by simp)

/-- The second shift of rounding only carries. -/
theorem unpacked_carried {r : ℕ} {t : ℤ} (short : r ≤ 2 ^ 53) (least : -1074 ≤ t)
    (negative : Bool) :
    (let shifted := shiftToTargetExponent Format.binary64 r t .exact
      if h : shifted.1.mantissa = 0 then .zero (signOf negative)
      else .finite (signOf negative) shifted.1.mantissa shifted.2 (Nat.pos_of_ne_zero h)) =
      (carried negative r t).unpacked := by
  rcases Nat.lt_or_eq_of_le short with fits | rfl
  · rw [carried, if_neg (Nat.ne_of_lt fits), shiftToTargetExponent_exact fits least]
    rfl
  · have full : (2 ^ 53 : ℕ).log2 = 52 + 1 := Nat.log2_two_pow
    rw [shiftToTargetExponent_of_log2 full (by omega), carried, if_pos rfl]
    rfl

theorem roundsTo_roundWithAccuracy {x : ℚ} {m : ℕ} {e : ℤ} {accuracy : Accuracy}
    (pins : Pins (x / 2 ^ e) m accuracy)
    (enough : e ≤ Format.binary64.targetExponent (totalExponent m e)) (negative : Bool) :
    RoundsTo x negative (roundWithAccuracy Format.binary64 (signOf negative) m e accuracy) := by
  have unit_pos : (0 : ℚ) < 2 ^ e := zpow_pos (by norm_num) e
  obtain ⟨lower, upper⟩ := pins.bounds
  have unit := hasUnit_targetExponent ((le_div_iff₀ unit_pos).mp lower)
    ((div_lt_iff₀ unit_pos).mp upper) enough
  rw [roundWithAccuracy, shiftToTargetExponent, shiftToExponent]
  generalize Format.binary64.targetExponent (totalExponent m e) = t at unit enough ⊢
  obtain ⟨k, rfl⟩ : ∃ k : ℕ, t = e + k := ⟨(t - e).toNat, by omega⟩
  have shift : (e + (k : ℤ) - e).toNat = k := by omega
  have shifted : Pins (x / 2 ^ (e + k : ℤ))
      (ExtendedMantissa.ofMantissaAndAccuracy m accuracy >>> k).mantissa
      (ExtendedMantissa.ofMantissaAndAccuracy m accuracy >>> k).accuracy := by
    have split : x / 2 ^ (e + k : ℤ) = x / 2 ^ e / 2 ^ k := by
      rw [zpow_add₀ (by norm_num), zpow_natCast, div_div]
    rw [split]
    refine Pins.shiftRight ?_ k
    rwa [mantissa_ofMantissaAndAccuracy, accuracy_ofMantissaAndAccuracy]
  have nearest := shifted.isNearest
  simp only [shift]
  exact ⟨e + k, _, unit, nearest, unpacked_carried (unit.nearest_le nearest) unit.least negative⟩

/-- A number that is not too large rounds to a canonical one. -/
theorem HasUnit.isCanonical_carried {x : ℚ} {t : ℤ} {r : ℕ} (unit : HasUnit x t)
    (nearest : IsNearest (x / 2 ^ t) r) (most : t ≤ 970) (negative : Bool) :
    (carried negative r t).IsCanonical := by
  have fits := unit.nearest_le nearest
  have least := unit.least
  rw [carried]
  split
  · exact ⟨by simp, by simp only; omega, by simp only; omega, .inr (Nat.le_refl _)⟩
  · refine ⟨by simp only; omega, least, by simp only; omega, unit.full.imp_right fun long => ?_⟩
    have unit_pos : (0 : ℚ) < 2 ^ t := zpow_pos (by norm_num) t
    have enough : (2 ^ 52 : ℚ) ≤ x / 2 ^ t := (le_div_iff₀ unit_pos).mpr long
    -- The whole number `2 ^ 52` is no farther than `r` where `x` is at least that.
    have close : (2 ^ 52 : ℚ) < r + 1 := by linarith [nearest.below]
    have : 2 ^ 52 < r + 1 := by exact_mod_cast close
    simp only
    omega

/-! ### Products, quotients and words -/

theorem pins_natCast (m : ℕ) : Pins m m .exact := rfl

theorem roundsTo_mul {m m' : ℕ} {e e' : ℤ} (positive : 0 < m) (positive' : 0 < m')
    (long : 52 ≤ (m * m').log2) :
    RoundsTo (m * 2 ^ e * (m' * 2 ^ e')) false
      (UnpackedFloat.mul Format.binary64 (.finite .positive m e positive)
        (.finite .positive m' e' positive')) := by
  refine roundsTo_roundWithAccuracy ?_ ?_ false
  · have value : (m * 2 ^ e * (m' * 2 ^ e') : ℚ) / 2 ^ (e + e') = (m * m' : ℕ) := by
      rw [zpow_add₀ (by norm_num)]
      have : (2 : ℚ) ^ e ≠ 0 := zpow_ne_zero e (by norm_num)
      have : (2 : ℚ) ^ e' ≠ 0 := zpow_ne_zero e' (by norm_num)
      push_cast
      field_simp
    rw [value]
    exact pins_natCast _
  · rw [targetExponent_binary64, totalExponent]
    omega

theorem pins_quotient (n : ℕ) {d : ℕ} (positive : 0 < d) :
    Pins ((n : ℚ) / d) (n / d) (accuracyOfFraction (n % d) d) := by
  have some_parts : (0 : ℚ) < d := by exact_mod_cast positive
  have split : (n : ℚ) = d * (n / d : ℕ) + (n % d : ℕ) := by
    exact_mod_cast (Nat.div_add_mod n d).symm
  have quotient : (n : ℚ) / d = (n / d : ℕ) + (n % d : ℕ) / d := by
    rw [div_eq_iff (ne_of_gt some_parts), add_mul, div_mul_cancel₀ _ (ne_of_gt some_parts), mul_comm]
    exact split
  have rest : ((n % d : ℕ) : ℚ) < d := by exact_mod_cast Nat.mod_lt n positive
  rw [quotient, accuracyOfFraction]
  generalize n % d = r at rest
  split
  · next zero => simp [Pins, zero]
  · next nonzero =>
    have some_rest : (0 : ℚ) < r := by exact_mod_cast Nat.pos_of_ne_zero nonzero
    rcases Nat.lt_trichotomy (2 * r) d with less | equal | more
    · have less' : 2 * (r : ℚ) < d := by exact_mod_cast less
      rw [Nat.compare_eq_lt.mpr less]
      constructor
      · linarith [div_pos some_rest some_parts]
      · have : (r : ℚ) / d < 1 / 2 := by rw [div_lt_iff₀ some_parts]; linarith
        linarith
    · have equal' : 2 * (r : ℚ) = d := by exact_mod_cast equal
      rw [Nat.compare_eq_eq.mpr equal]
      have : (r : ℚ) / d = 1 / 2 := by rw [div_eq_iff (ne_of_gt some_parts)]; linarith
      exact this ▸ rfl
    · have more' : (d : ℚ) < 2 * r := by exact_mod_cast more
      rw [Nat.compare_eq_gt.mpr more]
      constructor
      · have : 1 / 2 < (r : ℚ) / d := by rw [lt_div_iff₀ some_parts]; linarith
        linarith
      · have : (r : ℚ) / d < 1 := (div_lt_one some_parts).mpr rest
        linarith

theorem log2_quotient_ge {m m' k : ℕ} (positive : 0 < m) (positive' : 0 < m')
    (enough : m'.log2 + 53 ≤ m.log2 + k) : 52 ≤ ((m <<< k) / m').log2 := by
  have above := ((Nat.log2_eq_iff (by omega)).mp (rfl : m.log2 = m.log2)).1
  have below := ((Nat.log2_eq_iff (by omega)).mp (rfl : m'.log2 = m'.log2)).2
  have long : 2 ^ 52 ≤ (m <<< k) / m' := by
    rw [Nat.le_div_iff_mul_le positive', Nat.shiftLeft_eq]
    calc 2 ^ 52 * m' ≤ 2 ^ 52 * 2 ^ (m'.log2 + 1) := Nat.mul_le_mul_left _ (Nat.le_of_lt below)
      _ = 2 ^ (m'.log2 + 53) := by rw [← Nat.pow_add, Nat.add_comm, Nat.add_assoc]
      _ ≤ 2 ^ (m.log2 + k) := Nat.pow_le_pow_right Nat.two_pos enough
      _ = 2 ^ m.log2 * 2 ^ k := Nat.pow_add _ _ _
      _ ≤ m * 2 ^ k := Nat.mul_le_mul_right _ above
  exact (Nat.le_log2 (by omega)).mpr long

theorem roundsTo_div {m m' : ℕ} {e e' : ℤ} (positive : 0 < m) (positive' : 0 < m') :
    RoundsTo (m * 2 ^ e / (m' * 2 ^ e')) false
      (UnpackedFloat.div Format.binary64 (.finite .positive m e positive)
        (.finite .positive m' e' positive')) := by
  change RoundsTo _ _ (let core := divCore Format.binary64 m e m' e'
    roundWithAccuracy Format.binary64 .positive core.1 core.2.1 core.2.2)
  simp only [divCore]
  obtain ⟨t, target⟩ : ∃ t, t = min (e - e')
    (Format.binary64.targetExponent (totalExponent m e - totalExponent m' e')) := ⟨_, rfl⟩
  rw [← target]
  obtain ⟨k, shift⟩ : ∃ k : ℕ, e - e' - t = k := ⟨(e - e' - t).toNat, by omega⟩
  rw [shift, Int.toNat_natCast]
  rw [targetExponent_binary64, totalExponent, totalExponent] at target
  refine roundsTo_roundWithAccuracy ?_ ?_ false
  · have value : (m * 2 ^ e / (m' * 2 ^ e') : ℚ) / 2 ^ t = (m <<< k : ℕ) / m' := by
      have unit : (2 : ℚ) ^ e = 2 ^ k * 2 ^ t * 2 ^ e' := by
        rw [← zpow_natCast, ← zpow_add₀ (by norm_num), ← zpow_add₀ (by norm_num)]
        congr 1
        omega
      have : (2 : ℚ) ^ t ≠ 0 := zpow_ne_zero t (by norm_num)
      have : (2 : ℚ) ^ e' ≠ 0 := zpow_ne_zero e' (by norm_num)
      rw [unit, Nat.shiftLeft_eq]
      push_cast
      field_simp
    rw [value]
    exact pins_quotient _ positive'
  · rw [targetExponent_binary64, totalExponent]
    rcases le_or_gt t (-1074) with least | more
    · omega
    · have := log2_quotient_ge (k := k) positive positive' (by omega)
      omega

theorem converted_toFloat {x : UInt64} (h : x ≠ 0) : x.toFloat.toModel =
    .pack (UnpackedFloat.round Format.binary64 .positive x.toNat 0) := by
  have some_bit : x.toNat ≠ 0 := fun zero => h (UInt64.toNat_inj.mp zero)
  have positive : compare (x.toNat : Int) 0 = .gt := Int.compare_eq_gt.mpr (by omega)
  change Float.Model.pack
    (UnpackedFloat.normalize Format.binary64 (x.toNat : Int) 0 .positive) = _
  rw [UnpackedFloat.normalize, positive]
  rfl

theorem roundsTo_round {n : ℕ} (positive : 0 < n) :
    RoundsTo n false (UnpackedFloat.round Format.binary64 .positive n 0) := by
  have target : Format.binary64.targetExponent (totalExponent n 0) =
      max ((n.log2 : ℤ) - 52) (-1074) := by
    rw [targetExponent_binary64, totalExponent]
    omega
  obtain ⟨k, shift⟩ : ∃ k : ℕ, (0 - max ((n.log2 : ℤ) - 52) (-1074)).toNat = k := ⟨_, rfl⟩
  simp only [UnpackedFloat.round, target, decreaseExponent, shift]
  refine roundsTo_roundWithAccuracy ?_ ?_ false
  · have value : (n : ℚ) / 2 ^ (0 - (k : ℤ)) = (n <<< k : ℕ) := by
      rw [zero_sub, zpow_neg, zpow_natCast, div_inv_eq_mul, Nat.shiftLeft_eq]
      push_cast
      rfl
    rw [value]
    exact pins_natCast _
  · rw [targetExponent_binary64, totalExponent, log2_shiftLeft (by omega)]
    omega

/-- Words other than zero are converted to canonical numbers. -/
theorem exists_ofFloat_toFloat {x : UInt64} (h : x ≠ 0) :
    ∃ t r, HasUnit x.toNat t ∧ IsNearest ((x.toNat : ℚ) / 2 ^ t) r ∧
      Binary64.ofFloat x.toFloat = .finite (carried false r t) ∧ 0 < r := by
  have positive : 0 < x.toNat := Nat.pos_of_ne_zero fun zero => h (UInt64.toNat_inj.mp zero)
  have word : (x.toNat : ℚ) < 2 ^ (64 : ℤ) := by exact_mod_cast x.toNat_lt
  obtain ⟨t, r, unit, nearest, rounded⟩ := roundsTo_round positive
  have small := unit.lt_of_lt word (by decide)
  have some_units : 0 < r := by
    have unit_pos : (0 : ℚ) < 2 ^ t := zpow_pos (by norm_num) t
    have whole : (1 : ℚ) ≤ x.toNat := by exact_mod_cast positive
    refine nearest.pos ?_
    rw [lt_div_iff₀ unit_pos]
    rcases unit.full with least | long
    · have : (2 : ℚ) ^ t ≤ 1 := zpow_le_one_of_nonpos₀ (by norm_num) (by omega)
      linarith
    · linarith
  refine ⟨t, r, unit, nearest, ?_, some_units⟩
  refine ofFloat_of_toModel (unit.isCanonical_carried nearest (by omega) false) ?_ ?_
  · rw [Ne, mantissa_carried_eq_zero_iff]
    omega
  · rw [converted_toFloat h, rounded]

end AccessHistory.Number
