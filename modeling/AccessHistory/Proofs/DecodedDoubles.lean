import AccessHistory.Proofs.NormalDoubles
import Mathlib

/-!
Doubles as their bits decode. The decoding of a double is the one that its arithmetic uses; it has at
most 53 bits of mantissa, all of them unless the exponent is the least one; and packing it gives the
double back.
-/

set_option autoImplicit false
set_option relaxedAutoImplicit false

namespace AccessHistory.Number

open Float.Model (Format UnpackedFloat totalExponent)
open Float.Model.UnpackedFloat

/-! ### The three parts of 64 bits -/

abbrev Packed := BitVec Format.binary64.numBits

theorem toNat_unpackMantissa (b : Packed) :
    (unpackMantissa b).toNat = b.toNat % 2 ^ 52 := by
  change (b.toNat >>> 0) % 2 ^ 52 = _
  rw [Nat.shiftRight_zero]

theorem toNat_unpackExponent (b : Packed) :
    (unpackExponent b).toNat = (b.toNat >>> 52) % 2048 := rfl

theorem toNat_unpackSign (b : Packed) : (unpackSign b).toNat = b.toNat >>> 63 := by
  have bits : b.toNat < 2 ^ 64 := b.isLt
  change (b.toNat >>> 63) % 2 = _
  rw [Nat.shiftRight_eq_div_pow]
  omega

theorem ofBitVec_unpackSign (b : Packed) :
    Sign.ofBitVec (unpackSign b) = if b.toNat >>> 63 = 1 then .negative else .positive := by
  have bit : unpackSign b = 0#1 ∨ unpackSign b = 1#1 := by
    generalize unpackSign b = v
    revert v
    decide
  rw [← toNat_unpackSign]
  rcases bit with zero | one
  · rw [zero]
    rfl
  · rw [one]
    rfl

theorem toNat_one_append_bits (v : BitVec 52) : (1#1 ++ v).toNat = 2 ^ 52 + v.toNat := by
  rw [BitVec.toNat_append, ← Nat.shiftLeft_add_eq_or_of_lt v.isLt]
  rfl

/-! ### Decoding -/

def signOf (negative : Bool) : Sign := if negative then .negative else .positive

/-- The double of a sign, a mantissa and an exponent. -/
def Scaled.unpacked (d : Scaled) : UnpackedFloat :=
  if h : d.mantissa = 0 then .zero (signOf d.negative)
  else .finite (signOf d.negative) d.mantissa d.exponent (Nat.pos_of_ne_zero h)

def Binary64.unpacked : Binary64 → UnpackedFloat
  | .finite d => d.unpacked
  | .infinite negative => .infinity (signOf negative)
  | .nan => .notANumber

/-- The double that arithmetic works on is the decoded one. -/
theorem unpack_eq (x : Float) : x.toModel.unpack = (Binary64.ofFloat x).unpacked := by
  obtain ⟨b, bits⟩ : ∃ b : Packed, b = x.toBits.toBitVec := ⟨_, rfl⟩
  have decoded : x.toModel.unpack = UnpackedFloat.unpack Format.binary64 b := by rw [bits]; rfl
  have number : x.toBits.toNat = b.toNat := by rw [bits]; rfl
  have largest : unpackExponent b = -1#11 ↔ (b.toNat >>> 52) % 2048 = 2047 := by
    rw [← BitVec.toNat_inj, toNat_unpackExponent]
    rfl
  have least : unpackExponent b = 0#11 ↔ (b.toNat >>> 52) % 2048 = 0 := by
    rw [← BitVec.toNat_inj, toNat_unpackExponent]
    rfl
  have empty : unpackMantissa b = 0#52 ↔ b.toNat % hiddenBit = 0 := by
    rw [← BitVec.toNat_inj, toNat_unpackMantissa]
    rfl
  have bias : ((Format.binary64.exponentBias : Nat) : Int) = 1023 := rfl
  have sign : Sign.ofBitVec (unpackSign b) = signOf (b.toNat >>> 63 = 1 : Bool) := by
    rw [ofBitVec_unpackSign, signOf]
    simp only [decide_eq_true_eq]
  have hidden : hiddenBit = 2 ^ 52 := rfl
  rw [decoded, Binary64.ofFloat, number, UnpackedFloat.unpack]
  simp only [largest, least, empty, sign, bias, toNat_unpackMantissa, toNat_unpackExponent,
    toNat_one_append_bits]
  by_cases special : (b.toNat >>> 52) % 2048 = 2047
  · rw [if_pos special, if_pos special]
    split <;> rfl
  rw [if_neg special, if_neg special]
  by_cases subnormal : (b.toNat >>> 52) % 2048 = 0
  · rw [if_pos subnormal, if_pos subnormal]
    simp only [Binary64.unpacked, Scaled.unpacked, subnormal]
    rfl
  · rw [if_neg subnormal, if_neg subnormal]
    have some_bit : hiddenBit + b.toNat % hiddenBit ≠ 0 := by
      rw [hidden]
      omega
    simp only [Binary64.unpacked, Scaled.unpacked, dif_neg some_bit]
    rfl

def Scaled.magnitude (d : Scaled) : ℚ := d.mantissa * 2 ^ d.exponent

/-- At most 53 bits, and all of them unless the exponent is the least one. -/
structure Scaled.IsCanonical (d : Scaled) : Prop where
  short : d.mantissa < 2 ^ 53
  least : -1074 ≤ d.exponent
  most : d.exponent ≤ 971
  full : d.exponent = -1074 ∨ 2 ^ 52 ≤ d.mantissa

/-- In the least unit, 53 bits are less than one. -/
theorem Scaled.IsCanonical.full_of_one_le {d : Scaled} (h : d.IsCanonical) (large : 1 ≤ d.magnitude) :
    2 ^ 52 ≤ d.mantissa := by
  refine h.full.resolve_left fun least => ?_
  have short : (d.mantissa : ℚ) < 2 ^ 53 := by exact_mod_cast h.short
  have tiny : (2 : ℚ) ^ (-1074 : ℤ) ≤ 2 ^ (-53 : ℤ) :=
    zpow_le_zpow_right₀ (by norm_num) (by norm_num)
  have small : d.magnitude < 2 ^ 53 * 2 ^ (-53 : ℤ) := by
    rw [magnitude, least]
    exact mul_lt_mul_of_nonneg_of_pos short tiny (by positivity) (by norm_num)
  norm_num at small
  linarith

theorem Scaled.IsCanonical.signed {d : Scaled} (h : d.IsCanonical) (negative : Bool) :
    ({ d with negative } : Scaled).IsCanonical :=
  ⟨h.short, h.least, h.most, h.full⟩

theorem isCanonical_of_ofFloat {x : Float} {d : Scaled} (h : Binary64.ofFloat x = .finite d) :
    d.IsCanonical := by
  have hidden : hiddenBit = 2 ^ 52 := rfl
  rw [Binary64.ofFloat, hidden] at h
  split_ifs at h
  · cases h
    refine ⟨?_, ?_, ?_, .inl rfl⟩ <;> simp only <;> omega
  · cases h
    refine ⟨?_, ?_, ?_, .inr ?_⟩ <;> simp only <;> omega

theorem isFinite_iff {x : Float} : x.isFinite = true ↔ ∃ d, Binary64.ofFloat x = .finite d := by
  have same : x.isFinite = (Binary64.ofFloat x).unpacked.isFinite := by
    rw [← unpack_eq]
    rfl
  rw [same]
  cases Binary64.ofFloat x with
  | finite d =>
    rw [Binary64.unpacked, Scaled.unpacked]
    split <;> simp [UnpackedFloat.isFinite]
  | infinite negative => simp [Binary64.unpacked, UnpackedFloat.isFinite]
  | nan => simp [Binary64.unpacked, UnpackedFloat.isFinite]

/-- Two doubles that decode to the same finite number are the same. -/
theorem eq_of_ofFloat {x y : Float} {d : Scaled} (hx : Binary64.ofFloat x = .finite d)
    (hy : Binary64.ofFloat y = .finite d) : x = y := by
  have word : x.toBits.toNat < 2 ^ 64 := x.toBits.toNat_lt
  have word' : y.toBits.toNat < 2 ^ 64 := y.toBits.toNat_lt
  have same : x.toBits.toNat = y.toBits.toNat := by
    have hidden : hiddenBit = 2 ^ 52 := rfl
    rw [← hx, Binary64.ofFloat, Binary64.ofFloat, hidden] at hy
    rw [Binary64.ofFloat, hidden] at hx
    simp only [Nat.shiftRight_eq_div_pow] at hx hy
    split_ifs at hx hy <;>
      simp only [Binary64.finite.injEq, Scaled.mk.injEq, decide_eq_decide] at hy <;> omega
  cases x with | ofModel f => cases y with | ofModel g =>
  cases f with | mk bits valid => cases g with | mk bits' valid' =>
  have equal : bits = bits' := UInt64.toNat_inj.mp same
  subst equal
  rfl

/-! ### Packing -/

theorem unpack_pack_of_short (s : Sign) {m : Nat} (positive : 0 < m) (short : m < 2 ^ 52) :
    (Float.Model.pack (.finite s m (-1074) positive)).unpack = .finite s m (-1074) positive := by
  have bits : m.log2 < 52 := (Nat.log2_lt (by omega)).mpr short
  have packed : UnpackedFloat.pack Format.binary64 (.finite s m (-1074) positive) =
      packComponents Format.binary64 s 0#11 (BitVec.ofNat 52 m) := by
    rw [UnpackedFloat.pack, if_neg (by decide)]
    exact if_neg (by simp only [Format.mantissaBits]; omega)
  have value : (BitVec.ofNat 52 m).toNat = m := by
    rw [BitVec.toNat_ofNat]
    omega
  have some_bit : BitVec.ofNat 52 m ≠ 0#52 := by
    intro zero
    rw [zero] at value
    exact absurd value.symm (Nat.ne_of_gt positive)
  change UnpackedFloat.unpack Format.binary64 (UnpackedFloat.pack Format.binary64 _) = _
  rw [packed, UnpackedFloat.unpack]
  simp only [unpackMantissa_packComponents, unpackExponent_packComponents,
    unpackSign_packComponents, ofBitVec_toBitVec, dif_neg some_bit, value]
  rfl

/-- A canonical number is what its 64 bits stand for. -/
theorem unpack_pack_unpacked {d : Scaled} (h : d.IsCanonical) :
    (Float.Model.pack d.unpacked).unpack = d.unpacked := by
  rw [Scaled.unpacked]
  split
  · generalize signOf d.negative = s
    cases s <;> rfl
  · next some_bit =>
    rcases Nat.lt_or_ge d.mantissa (2 ^ 52) with short | long
    · obtain least := h.full.resolve_right (Nat.not_le_of_lt short)
      simp only [least]
      exact unpack_pack_of_short _ (Nat.pos_of_ne_zero some_bit) short
    · have full : d.mantissa.log2 = 52 := (Nat.log2_eq_iff some_bit).mpr ⟨long, h.short⟩
      exact unpack_pack_of_full _ (Nat.pos_of_ne_zero some_bit) full h.least h.most

theorem signOf_injective {b b' : Bool} (h : signOf b = signOf b') : b = b' := by
  cases b <;> cases b' <;> first | rfl | cases h

theorem eq_finite_of_unpacked {d : Scaled} {y : Binary64} (some_bit : d.mantissa ≠ 0)
    (h : d.unpacked = y.unpacked) : y = .finite d := by
  rw [Scaled.unpacked, dif_neg some_bit] at h
  cases y with
  | infinite negative => cases h
  | nan => cases h
  | finite d' =>
    rw [Binary64.unpacked, Scaled.unpacked] at h
    split at h
    · cases h
    · obtain ⟨sign, mantissa, exponent⟩ := UnpackedFloat.finite.inj h
      obtain ⟨negative, m, e⟩ := d
      obtain ⟨negative', m', e'⟩ := d'
      simp only [Binary64.finite.injEq, Scaled.mk.injEq]
      exact ⟨(signOf_injective sign).symm, mantissa.symm, exponent.symm⟩

/-- The double that was packed from a canonical number decodes to it. -/
theorem ofFloat_of_toModel {x : Float} {d : Scaled} (h : d.IsCanonical) (some_bit : d.mantissa ≠ 0)
    (packed : x.toModel = .pack d.unpacked) : Binary64.ofFloat x = .finite d := by
  refine eq_finite_of_unpacked some_bit ?_
  rw [← unpack_eq, packed, unpack_pack_unpacked h]

end AccessHistory.Number
