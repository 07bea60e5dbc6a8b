import AccessHistory.Hash.Probe
import Mathlib

/-!
The triangular term of a probe sequence. Probes follow the formula `start + i * stride + (i² + i) / 2`
as far as halving the wrapped product and wrapping the halved one agree: its top bit is lost in
between, and only moduli that divide half a word do not notice. The term alone keeps the first
probes apart where the stride moves none of them.
-/

set_option autoImplicit false
set_option relaxedAutoImplicit false

namespace AccessHistory.Hash

/-! ### Halving a product that has wrapped -/

theorem toNat_probeWord (start stride i : UInt64) :
    (probeWord start stride i).toNat = (start.toNat + i.toNat * stride.toNat +
      (i.toNat ^ 2 + i.toNat) % 2 ^ 64 / 2) % 2 ^ 64 := by
  have square : i.toNat * (i.toNat + 1) = i.toNat ^ 2 + i.toNat := by ring
  have product : (i * (i + 1)).toNat = (i.toNat ^ 2 + i.toNat) % 2 ^ 64 := by
    rw [UInt64.toNat_mul, UInt64.toNat_add, UInt64.toNat_one, Nat.mul_mod_mod, square]
  have half : ((i * (i + 1)) >>> 1).toNat = (i.toNat ^ 2 + i.toNat) % 2 ^ 64 / 2 := by
    rw [UInt64.toNat_shiftRight, product, Nat.shiftRight_eq_div_pow]
    rfl
  rw [probeWord, UInt64.toNat_add, UInt64.toNat_add, UInt64.toNat_mul, half]
  simp only [Nat.add_mod_mod, Nat.mod_add_mod]

/-- The bit that halving loses after wrapping is the top bit of a word. -/
theorem half_of_wrapped (n : Nat) :
    n / 2 = n % 2 ^ 64 / 2 + 2 ^ 63 * (n / 2 ^ 64 % 2) + 2 ^ 64 * (n / 2 ^ 64 / 2) := by
  omega

/-! ### The formula -/

/-- Probe `i` by the formula: the exact sum wraps at the word size, then at the modulus. -/
def probeFormula (start stride : UInt64) (i m : Nat) : Nat :=
  (start.toNat + i * stride.toNat + (i ^ 2 + i) / 2) % 2 ^ 64 % m

/-- The top bit makes a difference modulo all but the divisors of half a word. -/
theorem add_top_mod_eq_iff (x m : Nat) (word : x < 2 ^ 64) :
    x % m = (x + 2 ^ 63) % 2 ^ 64 % m ↔ m ∣ 2 ^ 63 := by
  rcases Nat.lt_or_ge x (2 ^ 63) with low | high
  · rw [Nat.mod_eq_of_lt (show x + 2 ^ 63 < 2 ^ 64 by omega)]
    constructor
    · intro same
      have divides := (Nat.modEq_iff_dvd' (Nat.le_add_right x (2 ^ 63))).mp same
      rwa [Nat.add_sub_cancel_left] at divides
    · rintro ⟨q, top⟩
      rw [top, Nat.add_mul_mod_self_left]
  · have wrapped : (x + 2 ^ 63) % 2 ^ 64 = x - 2 ^ 63 := by omega
    rw [wrapped]
    constructor
    · intro same
      have divides := (Nat.modEq_iff_dvd' (Nat.sub_le x (2 ^ 63))).mp same.symm
      rwa [Nat.sub_sub_self high] at divides
    · rintro ⟨q, top⟩
      conv_lhs => rw [← Nat.sub_add_cancel high, top, Nat.add_mul_mod_self_left, ← top]

theorem probe_eq_formula_iff (start stride i : UInt64) (m : Nat) :
    probe start stride i m = probeFormula start stride i.toNat m ↔
      (i.toNat ^ 2 + i.toNat) / 2 ^ 64 % 2 = 0 ∨ m ∣ 2 ^ 63 := by
  have split := half_of_wrapped (i.toNat ^ 2 + i.toNat)
  rw [probe, probeFormula, toNat_probeWord, split]
  generalize start.toNat + i.toNat * stride.toNat = sum
  generalize (i.toNat ^ 2 + i.toNat) % 2 ^ 64 / 2 = half
  generalize (i.toNat ^ 2 + i.toNat) / 2 ^ 64 / 2 = turns
  rcases Nat.mod_two_eq_zero_or_one ((i.toNat ^ 2 + i.toNat) / 2 ^ 64) with clear | set
  · have same : (sum + (half + 2 ^ 63 * 0 + 2 ^ 64 * turns)) % 2 ^ 64 = (sum + half) % 2 ^ 64 := by
      omega
    rw [clear, same]
    simp
  · have top : (sum + (half + 2 ^ 63 * 1 + 2 ^ 64 * turns)) % 2 ^ 64 =
        ((sum + half) % 2 ^ 64 + 2 ^ 63) % 2 ^ 64 := by
      omega
    rw [set, top, add_top_mod_eq_iff _ m (Nat.mod_lt _ (by decide))]
    simp

theorem toNat_index {i : Nat} (word : i < 2 ^ 64) : i.toUInt64.toNat = i :=
  UInt64.toNat_ofNat_of_lt' word

/-- Up to `2 ^ 32` the products do not wrap; that one is the first that does. -/
theorem formula_holds_iff (start stride : UInt64) {k m : Nat} (words : k ≤ 2 ^ 64) :
    probes start stride k m = (List.range k).map (probeFormula start stride · m) ↔
      k ≤ 2 ^ 32 ∨ m ∣ 2 ^ 63 := by
  have each (i : Nat) (within : i < k) :
      probe start stride i.toUInt64 m = probeFormula start stride i m ↔
        (i ^ 2 + i) / 2 ^ 64 % 2 = 0 ∨ m ∣ 2 ^ 63 := by
    have single := probe_eq_formula_iff start stride i.toUInt64 m
    rwa [toNat_index (by omega)] at single
  rw [probes, List.map_inj_left]
  constructor
  · intro same
    rcases Nat.lt_or_ge (2 ^ 32) k with long | short
    · have first := (each (2 ^ 32) long).mp (same (2 ^ 32) (List.mem_range.mpr long))
      exact first.imp (fun clear => absurd clear (by decide)) id
    · exact .inl short
  · intro agree i member
    have within := List.mem_range.mp member
    rw [each i within]
    refine agree.imp_left fun short => ?_
    have product : i * i ≤ (2 ^ 32 - 1) * (2 ^ 32 - 1) := Nat.mul_le_mul (by omega) (by omega)
    have fits : (i ^ 2 + i) / 2 ^ 64 = 0 := by
      rw [Nat.pow_two]
      exact Nat.div_eq_of_lt (by omega)
    rw [fits]

/-- A probe is what the formula says exactly where the product has an even number of words, whatever
the two words, and for moduli that divide half a word; a sequence is, exactly if it has no probe
beyond `2 ^ 32`, or for such a modulus. -/
theorem formula_up_to_top_bit (start stride : UInt64) (m : Nat) :
    (∀ i, probe start stride i m = probeFormula start stride i.toNat m ↔
      (i.toNat ^ 2 + i.toNat) / 2 ^ 64 % 2 = 0 ∨ m ∣ 2 ^ 63) ∧
    ∀ k ≤ 2 ^ 64, probes start stride k m = (List.range k).map (probeFormula start stride · m) ↔
      k ≤ 2 ^ 32 ∨ m ∣ 2 ^ 63 :=
  ⟨fun i => probe_eq_formula_iff start stride i m,
    fun _ words => formula_holds_iff start stride words⟩

/-- The first probe off the formula, and the sequences that go on to it. -/
theorem formula_up_to_top_bit_first :
    probe 0 0 4294967296 18446744073709551615 = 2147483648 ∧
      probeFormula 0 0 4294967296 18446744073709551615 = 9223372039002259456 ∧
      2 ^ 33 ≤ 2 ^ 64 ∧
      probes 0 0 (2 ^ 33) 1000 ≠ (List.range (2 ^ 33)).map (probeFormula 0 0 · 1000) := by
  refine ⟨by decide, by decide, by decide, ?_⟩
  rw [Ne, (formula_up_to_top_bit 0 0 1000).2 (2 ^ 33) (by decide)]
  decide

/-! ### Triangular numbers -/

/-- Modulo a power of two, the triangular numbers up to it are all different. -/
theorem eq_of_triangular_modEq {p i j : Nat} (hi : i < 2 ^ p) (hj : j < 2 ^ p)
    (same : (i ^ 2 + i) / 2 ≡ (j ^ 2 + j) / 2 [MOD 2 ^ p]) : i = j := by
  wlog ordered : i ≤ j generalizing i j
  · exact (this hj hi same.symm (by omega)).symm
  obtain ⟨d, rfl⟩ := Nat.exists_eq_add_of_le ordered
  have even (n : Nat) : 2 * ((n ^ 2 + n) / 2) = n ^ 2 + n := by
    refine Nat.mul_div_cancel' ?_
    rw [Nat.pow_two, ← Nat.mul_succ]
    exact (Nat.even_mul_succ_self n).two_dvd
  have doubled : i ^ 2 + i ≡ (i + d) ^ 2 + (i + d) [MOD 2 ^ (p + 1)] := by
    have twice := same.mul_left' 2
    rwa [even, even, ← Nat.pow_succ'] at twice
  -- The difference of the doubles is a product, of which exactly one factor is odd.
  have divides : 2 ^ (p + 1) ∣ d * (2 * i + d + 1) := by
    have difference : (i + d) ^ 2 + (i + d) - (i ^ 2 + i) = d * (2 * i + d + 1) := by
      have split : (i + d) ^ 2 + (i + d) = i ^ 2 + i + d * (2 * i + d + 1) := by ring
      omega
    rw [← difference]
    exact (Nat.modEq_iff_dvd' (by nlinarith)).mp doubled
  have none_between : d = 0 := by
    rcases Nat.even_or_odd d with even_gap | odd_gap
    · have coprime : Nat.Coprime (2 ^ (p + 1)) (2 * i + d + 1) := by
        refine Nat.Coprime.pow_left _ (Nat.coprime_two_left.mpr ?_)
        obtain ⟨c, rfl⟩ := even_gap
        exact ⟨i + c, by omega⟩
      have small : d < 2 ^ (p + 1) := by
        rw [Nat.pow_succ]
        omega
      exact Nat.eq_zero_of_dvd_of_lt (coprime.dvd_of_dvd_mul_right divides) small
    · have coprime : Nat.Coprime (2 ^ (p + 1)) d :=
        Nat.Coprime.pow_left _ (Nat.coprime_two_left.mpr odd_gap)
      have large := Nat.le_of_dvd (by omega) (coprime.dvd_of_dvd_mul_left divides)
      rw [Nat.pow_succ] at large
      omega
  rw [none_between, Nat.add_zero]

theorem triangular_mono {i j : Nat} (h : i ≤ j) : (i ^ 2 + i) / 2 ≤ (j ^ 2 + j) / 2 :=
  Nat.div_le_div_right (Nat.add_le_add (Nat.pow_le_pow_left h 2) h)

theorem triangular_lt_of_lt {i j : Nat} (h : i < j) : (i ^ 2 + i) / 2 < (j ^ 2 + j) / 2 := by
  have next : (i ^ 2 + i) / 2 < ((i + 1) ^ 2 + (i + 1)) / 2 := by
    have step : (i + 1) ^ 2 + (i + 1) = i ^ 2 + i + 2 * (i + 1) := by ring
    omega
  exact Nat.lt_of_lt_of_le next (triangular_mono h)

/-! ### Strides that move nothing -/

theorem nodup_probes {start stride : UInt64} {k m : Nat}
    (distinct : ∀ i < k, ∀ j < k, probe start stride i.toUInt64 m = probe start stride j.toUInt64 m →
      i = j) : (probes start stride k m).Nodup := by
  rw [probes]
  refine List.Nodup.map_on ?_ List.nodup_range
  intro i hi j hj same
  exact distinct i (List.mem_range.mp hi) j (List.mem_range.mp hj) same

/-- Modulo a power of two, a stride that is a multiple of it leaves the triangular term. -/
theorem probe_of_idle_stride {start stride i : UInt64} {p : Nat} (half : p ≤ 63)
    (idle : 2 ^ p ∣ stride.toNat) :
    probe start stride i (2 ^ p) = (start.toNat + (i.toNat ^ 2 + i.toNat) / 2) % 2 ^ p := by
  have formula := (probe_eq_formula_iff start stride i (2 ^ p)).mpr
    (.inr (Nat.pow_dvd_pow 2 half))
  obtain ⟨c, multiple⟩ := idle
  rw [formula, probeFormula, Nat.mod_mod_of_dvd _ (Nat.pow_dvd_pow 2 (by omega)), multiple,
    show start.toNat + i.toNat * (2 ^ p * c) + (i.toNat ^ 2 + i.toNat) / 2 =
      start.toNat + (i.toNat ^ 2 + i.toNat) / 2 + 2 ^ p * (i.toNat * c) by ring,
    Nat.add_mul_mod_self_left]

theorem nodup_probes_of_idle_stride {start stride : UInt64} {p k : Nat} (half : p ≤ 63)
    (idle : 2 ^ p ∣ stride.toNat) (few : k ≤ 2 ^ p) : (probes start stride k (2 ^ p)).Nodup := by
  have modulus : 2 ^ p ≤ 2 ^ 63 := Nat.pow_le_pow_right Nat.two_pos half
  refine nodup_probes fun i hi j hj same => ?_
  rw [probe_of_idle_stride half idle, probe_of_idle_stride half idle,
    toNat_index (by omega), toNat_index (by omega)] at same
  exact eq_of_triangular_modEq (by omega) (by omega) (Nat.ModEq.add_left_cancel' _ same)

/-- As many probes as positions visit each position once. -/
theorem probes_perm_of_idle_stride {start stride : UInt64} {p : Nat} (half : p ≤ 63)
    (idle : 2 ^ p ∣ stride.toNat) :
    (probes start stride (2 ^ p) (2 ^ p)).Perm (List.range (2 ^ p)) := by
  have distinct : (probes start stride (2 ^ p) (2 ^ p)).Nodup :=
    nodup_probes_of_idle_stride half idle (Nat.le_refl _)
  have inside : probes start stride (2 ^ p) (2 ^ p) ⊆ List.range (2 ^ p) := fun j member =>
    List.mem_range.mpr (lt_of_mem_probes (Nat.two_pow_pos p) member)
  refine (List.subperm_of_subset distinct inside).perm_of_length_le ?_
  rw [List.length_range, length_probes]

theorem nodup_probes_of_no_stride {start : UInt64} {k m : Nat} (products : k ≤ 2 ^ 32)
    (narrow : k * (k - 1) / 2 < m) (fits : start.toNat + k * (k - 1) / 2 < 2 ^ 64) :
    (probes start 0 k m).Nodup := by
  -- The last probe is the largest, and neither it nor any before it wraps.
  have bound {i : Nat} (hi : i < k) : (i ^ 2 + i) / 2 ≤ k * (k - 1) / 2 := by
    refine Nat.div_le_div_right ?_
    rw [Nat.pow_two, ← Nat.mul_succ, Nat.mul_comm]
    exact Nat.mul_le_mul hi (by omega)
  have value {i : Nat} (hi : i < k) :
      probe start 0 i.toUInt64 m = (start.toNat + (i ^ 2 + i) / 2) % m := by
    have below := bound hi
    have product : k * (k - 1) ≤ 2 ^ 32 * (2 ^ 32 - 1) := Nat.mul_le_mul products (by omega)
    have no_carry : (i ^ 2 + i) / 2 ^ 64 = 0 := by omega
    have unwrapped : start.toNat + (i ^ 2 + i) / 2 < 2 ^ 64 := by omega
    have formula := probe_eq_formula_iff start 0 i.toUInt64 m
    rw [toNat_index (by omega), no_carry] at formula
    rw [formula.mpr (.inl rfl), probeFormula, UInt64.toNat_zero, Nat.mul_zero, Nat.add_zero,
      Nat.mod_eq_of_lt unwrapped]
  refine nodup_probes fun i hi j hj same => ?_
  rw [value hi, value hj] at same
  have terms : (i ^ 2 + i) / 2 = (j ^ 2 + j) / 2 :=
    Nat.ModEq.eq_of_lt_of_lt (Nat.ModEq.add_left_cancel' _ same)
      (Nat.lt_of_le_of_lt (bound hi) narrow) (Nat.lt_of_le_of_lt (bound hj) narrow)
  rcases Nat.lt_trichotomy i j with before | equal | after
  · exact absurd terms (Nat.ne_of_lt (triangular_lt_of_lt before))
  · exact equal
  · exact absurd terms (Nat.ne_of_gt (triangular_lt_of_lt after))

/-- Probes with a stride that moves none of them stay apart: modulo a power of two as long as there
are positions, so that as many probes as positions visit them all; and without a stride, modulo
anything, as long as the triangular terms are below the modulus and wrap at no word. -/
theorem probes_spread_without_stride (start : UInt64) :
    (∀ p ≤ 63, ∀ stride : UInt64, 2 ^ p ∣ stride.toNat →
      (∀ k ≤ 2 ^ p, (probes start stride k (2 ^ p)).Nodup) ∧
        (probes start stride (2 ^ p) (2 ^ p)).Perm (List.range (2 ^ p))) ∧
    ∀ m k, k ≤ 2 ^ 32 → k * (k - 1) / 2 < m → start.toNat + k * (k - 1) / 2 < 2 ^ 64 →
      (probes start 0 k m).Nodup := by
  constructor
  · intro p half stride idle
    exact ⟨fun k few => nodup_probes_of_idle_stride half idle few,
      probes_perm_of_idle_stride half idle⟩
  · intro m k products narrow fits
    exact nodup_probes_of_no_stride products narrow fits

/-- Eight positions and a stride of sixteen; and four probes at the end of the words. -/
theorem probes_spread_without_stride_near_end :
    (2 ^ 3 ∣ (16 : UInt64).toNat ∧ (probes 5 16 8 (2 ^ 3)).Perm (List.range (2 ^ 3))) ∧
      (4 * (4 - 1) / 2 < 7 ∧ (18446744073709551609 : UInt64).toNat + 4 * (4 - 1) / 2 < 2 ^ 64 ∧
        (probes 18446744073709551609 0 4 7).Nodup) := by
  refine ⟨⟨by decide, ?_⟩, by decide, by decide, ?_⟩
  · exact ((probes_spread_without_stride 5).1 3 (by decide) 16 (by decide)).2
  · exact (probes_spread_without_stride 18446744073709551609).2 7 4 (by decide) (by decide)
      (by decide)

end AccessHistory.Hash
