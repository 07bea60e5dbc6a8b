import AccessHistory.Proofs.NearestDoubles
import Mathlib

/-!
The shortest decimal of a double. A grid of decimals that is fine enough has a point in the interval
of the double, with seventeen digits at the latest; a point in the interval is read as the double;
and so the shortest decimal is, in whatever form its value is written.
-/

set_option autoImplicit false
set_option relaxedAutoImplicit false

namespace AccessHistory.Decimal

open Number (Binary64 Scaled)

variable {d : Scaled} {k : ℤ}

/-! ### Grid points -/

/-- The quarter of the unit in the last place and the step of the grid, as whole numbers. -/
def quarter (d : Scaled) (k : ℤ) : ℕ := (Scale.ofExponent d.exponent).up * tenTo (-k).toNat

def step (d : Scaled) (k : ℤ) : ℕ := (Scale.ofExponent d.exponent).down * tenTo k.toNat

/-- The grid point rounds to the magnitude. -/
abbrev Inside (d : Scaled) (k : ℤ) (point : ℕ) : Prop :=
  if d.mantissa % 2 = 0 then
    (4 * d.mantissa - quartersBelow d) * quarter d k ≤ point * step d k ∧
      point * step d k ≤ (4 * d.mantissa + 2) * quarter d k
  else
    (4 * d.mantissa - quartersBelow d) * quarter d k < point * step d k ∧
      point * step d k < (4 * d.mantissa + 2) * quarter d k

/-- The grid point at or below the magnitude. -/
def pointBelow (d : Scaled) (k : ℤ) : ℕ := 4 * d.mantissa * quarter d k / step d k

theorem onGrid?_eq (d : Scaled) (k : ℤ) :
    onGrid? d k =
      if Inside d k (pointBelow d k) then
        if Inside d k (pointBelow d k + 1) ∧
            (pointBelow d k + 1) * step d k - 4 * d.mantissa * quarter d k ≤
              4 * d.mantissa * quarter d k - pointBelow d k * step d k then
          some ⟨pointBelow d k + 1, k⟩
        else some ⟨pointBelow d k, k⟩
      else if Inside d k (pointBelow d k + 1) then some ⟨pointBelow d k + 1, k⟩
      else none := rfl

theorem tenTo_eq (k : ℕ) : tenTo k = 10 ^ k := Nat.pow_eq

theorem quarter_pos (d : Scaled) (k : ℤ) : 0 < quarter d k := by
  simp only [quarter, Scale.ofExponent, Nat.shiftLeft_eq, tenTo_eq]
  positivity

theorem step_pos (d : Scaled) (k : ℤ) : 0 < step d k := by
  simp only [step, Scale.ofExponent, Nat.shiftLeft_eq, tenTo_eq]
  positivity

theorem zpow_eq_div {b : ℚ} (h : b ≠ 0) (k : ℤ) : b ^ k = b ^ k.toNat / b ^ (-k).toNat := by
  rw [← zpow_natCast, ← zpow_natCast, ← zpow_sub₀ h]
  congr 1
  omega

/-- How many quarters a step of the grid is. -/
theorem step_div_quarter (d : Scaled) (k : ℤ) :
    (step d k : ℚ) / quarter d k = 4 * (10 ^ k / 2 ^ d.exponent) := by
  rw [zpow_eq_div (by norm_num) k, zpow_eq_div (by norm_num) d.exponent, step, quarter,
    Scale.ofExponent, tenTo_eq, tenTo_eq, Nat.shiftLeft_eq, Nat.shiftLeft_eq]
  push_cast
  field_simp

theorem inside_iff {point : ℕ} : Inside d k point ↔ d.Covers (point * 10 ^ k) := by
  have some_quarter : (0 : ℚ) < quarter d k := by exact_mod_cast quarter_pos d k
  have size : 4 * (point * 10 ^ k / 2 ^ d.exponent) = (point * step d k : ℕ) / (quarter d k : ℚ) := by
    rw [Nat.cast_mul, mul_div_assoc (point : ℚ) (step d k : ℚ), step_div_quarter]
    ring
  rw [Inside, Scaled.Covers, size, le_div_iff₀ some_quarter, div_le_iff₀ some_quarter,
    lt_div_iff₀ some_quarter, div_lt_iff₀ some_quarter]
  norm_cast

theorem covers_of_onGrid? {n : Decimal} (h : onGrid? d k = some n) : d.Covers n.value := by
  rw [onGrid?_eq] at h
  split_ifs at h with below above above
  · cases h
    exact inside_iff.mp above.1
  · cases h
    exact inside_iff.mp below
  · cases h
    exact inside_iff.mp above

/-- What lies strictly between the ends rounds to any mantissa. -/
theorem covers_of_lt {x : ℚ} (some_bit : d.mantissa ≠ 0)
    (lower : 4 * (d.mantissa : ℚ) - quartersBelow d < 4 * (x / 2 ^ d.exponent))
    (upper : 4 * (x / 2 ^ d.exponent) < 4 * d.mantissa + 2) : d.Covers x := by
  have few := (Number.quartersBelow_le some_bit).2
  rw [Scaled.Covers]
  push_cast [few]
  split
  · exact ⟨le_of_lt lower, le_of_lt upper⟩
  · exact ⟨lower, upper⟩

/-- The grid points around the magnitude, in quarters. -/
theorem pointBelow_bounds (d : Scaled) (k : ℤ) :
    pointBelow d k * (4 * (10 ^ k / 2 ^ d.exponent) : ℚ) ≤ 4 * d.mantissa ∧
      4 * (d.mantissa : ℚ) < (pointBelow d k + 1) * (4 * (10 ^ k / 2 ^ d.exponent)) := by
  have some_quarter : (0 : ℚ) < quarter d k := by exact_mod_cast quarter_pos d k
  rw [← step_div_quarter, ← mul_div_assoc, ← mul_div_assoc, div_le_iff₀ some_quarter,
    lt_div_iff₀ some_quarter]
  constructor
  · exact_mod_cast Nat.div_mul_le_self _ _
  · exact_mod_cast Nat.lt_mul_of_div_lt (Nat.lt_succ_self _) (step_pos d k)

/-- With seventeen digits up to the magnitude, the grid point below or the one above rounds to it:
a step as long as the interval would be too long for 53 bits. -/
theorem covers_pointBelow_or (some_bit : d.mantissa ≠ 0) (short : d.mantissa < 2 ^ 53)
    (fine : 10 ^ (k + 16) ≤ d.magnitude) :
    d.Covers (pointBelow d k * 10 ^ k) ∨ d.Covers ((pointBelow d k + 1 : ℕ) * 10 ^ k) := by
  obtain ⟨y, size⟩ : ∃ y : ℚ, y = 4 * (10 ^ k / 2 ^ d.exponent) := ⟨_, rfl⟩
  have steps (point : ℕ) : 4 * (point * 10 ^ k / 2 ^ d.exponent) = point * y := by
    rw [size]
    ring
  obtain ⟨below, above⟩ := pointBelow_bounds d k
  rw [← size] at below above
  have small : y * 10 ^ 16 ≤ 4 * d.mantissa := by
    have unit_pos : (0 : ℚ) < 2 ^ d.exponent := zpow_pos (by norm_num) _
    have sixteen : (10 : ℚ) ^ (16 : ℤ) = 10 ^ 16 := by norm_cast
    rw [zpow_add₀ (by norm_num), Scaled.magnitude, ← div_le_iff₀ unit_pos, sixteen] at fine
    calc y * 10 ^ 16 = 4 * (10 ^ k * 10 ^ 16 / 2 ^ d.exponent) := by
          rw [size]
          ring
      _ ≤ 4 * (d.mantissa : ℚ) := by linarith
  have short' : (d.mantissa : ℚ) < 2 ^ 53 := by exact_mod_cast short
  have quarters_nonneg : (0 : ℚ) ≤ quartersBelow d := Nat.cast_nonneg _
  by_contra neither
  rw [not_or] at neither
  have low : pointBelow d k * y ≤ 4 * d.mantissa - quartersBelow d := by
    by_contra closer
    refine neither.1 (covers_of_lt some_bit ?_ ?_) <;> rw [steps] <;> linarith
  have high : 4 * d.mantissa + 2 ≤ (pointBelow d k + 1) * y := by
    by_contra closer
    refine neither.2 (covers_of_lt some_bit ?_ ?_) <;> rw [steps] <;> push_cast <;> linarith
  rcases Number.quartersBelow_cases d with ⟨one, power, -⟩ | ⟨two, -⟩
  · rw [one] at low
    rw [power] at low high small
    push_cast at low high small
    linarith
  · rw [two] at low
    push_cast at low
    linarith

theorem exists_onGrid? (some_bit : d.mantissa ≠ 0) (short : d.mantissa < 2 ^ 53)
    (fine : 10 ^ (k + 16) ≤ d.magnitude) : ∃ n, onGrid? d k = some n := by
  have hit := covers_pointBelow_or some_bit short fine
  rw [← inside_iff, ← inside_iff] at hit
  rw [onGrid?_eq]
  split_ifs with below nearer above
  · exact ⟨_, rfl⟩
  · exact ⟨_, rfl⟩
  · exact ⟨_, rfl⟩
  · exact absurd hit (not_or_intro below above)

/-! ### The place of the point -/

/-- A whole part keeps enough digits where it is not zero. -/
theorem pow_digitCount_le_of_floor {m up down : ℕ} (some_down : 0 < down) (some_digit : down ≤ m * up) :
    (10 : ℚ) ^ (digitCount (m * up / down) - 1 : ℤ) ≤ m * up / down := by
  have some_whole : m * up / down ≠ 0 := Nat.ne_of_gt (Nat.div_pos some_digit some_down)
  refine (digitCount_bounds some_whole).1.trans ?_
  exact_mod_cast Nat.cast_div_le

theorem pow_place_le (canonical : d.IsCanonical) (some_bit : d.mantissa ≠ 0) :
    (10 : ℚ) ^ (place d - 1) ≤ d.magnitude := by
  obtain ⟨negative, m, e⟩ := d
  cases e with
  | ofNat j =>
    have some_bits : m * 2 ^ j ≠ 0 := Nat.mul_ne_zero some_bit (by positivity)
    change (10 : ℚ) ^ ((digitCount (m <<< j) : ℤ) - 1) ≤ m * 2 ^ (j : ℤ)
    rw [Nat.shiftLeft_eq, zpow_natCast]
    exact_mod_cast (digitCount_bounds some_bits).1
  | negSucc j =>
    have bits : 2 ^ (j + 1) ≤ m * 10 ^ 400 := by
      have least : -1074 ≤ Int.negSucc j := canonical.least
      calc 2 ^ (j + 1) ≤ 2 ^ 1074 := Nat.pow_le_pow_right Nat.two_pos (by omega)
        _ ≤ 10 ^ 400 := by decide +kernel
        _ ≤ m * 10 ^ 400 := Nat.le_mul_of_pos_left _ (Nat.pos_of_ne_zero some_bit)
    have digits := pow_digitCount_le_of_floor (by positivity) bits
    change (10 : ℚ) ^ ((digitCount ((m * tenTo 400) >>> (j + 1)) : ℤ) - 400 - 1) ≤
      m * 2 ^ (-((j + 1 : ℕ) : ℤ))
    rw [tenTo_eq, Nat.shiftRight_eq_div_pow, sub_right_comm, zpow_sub₀ (by norm_num), zpow_neg,
      zpow_natCast, div_le_iff₀ (by positivity)]
    have shifted (places : ℕ) : (m * (10 ^ places : ℕ) / (2 ^ (j + 1) : ℕ) : ℚ) =
        m * (2 ^ (j + 1))⁻¹ * 10 ^ (places : ℤ) := by
      rw [zpow_natCast]
      push_cast
      ring
    exact digits.trans_eq (shifted 400)

/-! ### The shortest decimal -/

theorem value_dropZeros (digits : ℕ) (exponent : ℤ) :
    (dropZeros digits exponent).value = digits * 10 ^ exponent := by
  fun_induction dropZeros digits exponent with
  | case1 digits exponent zero ih =>
    have tens : (digits : ℚ) = 10 * (digits / 10 : ℕ) := by
      exact_mod_cast (Nat.mul_div_cancel' (Nat.dvd_of_mod_eq_zero zero.2)).symm
    rw [ih, zpow_add_one₀ (by norm_num), tens]
    ring
  | case2 digits exponent => rfl

theorem shortest_covers (canonical : d.IsCanonical) (some_bit : d.mantissa ≠ 0) :
    d.Covers (shortest d).value := by
  rw [shortest, if_neg some_bit]
  dsimp only
  split
  · next found search =>
    obtain ⟨i, -, hit⟩ := List.exists_of_findSome?_eq_some search
    rw [value_dropZeros]
    exact covers_of_onGrid? hit
  · next search =>
    rw [List.findSome?_eq_none_iff] at search
    have missed := search 16 (List.mem_range.mpr (by decide))
    obtain ⟨n, hit⟩ := exists_onGrid? some_bit canonical.short
      (k := place d - (16 + 1 : ℕ)) (by
        rw [show place d - ((16 + 1 : ℕ) : ℤ) + 16 = place d - 1 by push_cast; ring]
        exact pow_place_le canonical some_bit)
    rw [missed] at hit
    cases hit

/-- Zero is written without an exponent. -/
theorem exponent_shortest_of_zero (canonical : d.IsCanonical) (zero : (shortest d).digits = 0) :
    (shortest d).exponent = 0 := by
  by_cases some_bit : d.mantissa = 0
  · rw [shortest, if_pos some_bit]
  · have covers := shortest_covers canonical some_bit
    exact absurd zero (digits_ne_zero_of_covers covers canonical some_bit)

/-- The shortest decimal of a double is read as the double, in whatever form it is written. -/
theorem nearest?_of_value_eq {x : Float} {n : Decimal} (decoded : Binary64.ofFloat x = .finite d)
    (same : n.value = (shortest d).value) : nearest? d.negative n = some x := by
  by_cases zero : d.mantissa = 0
  · obtain ⟨digits, exponent⟩ := n
    rw [shortest, if_pos zero, value, value, Nat.cast_zero, zero_mul, mul_eq_zero,
      Nat.cast_eq_zero] at same
    obtain rfl := same.resolve_right (zpow_ne_zero _ (by norm_num))
    exact nearest?_zero decoded zero exponent
  · refine nearest?_of_covers decoded zero ?_
    rw [same]
    exact shortest_covers (Number.isCanonical_of_ofFloat decoded) zero

end AccessHistory.Decimal
