import AccessHistory.Hash.Scramble

/-!
The way back through the scrambler. Its multipliers are odd, so that their inverses undo them, and a
word that was shifted over itself comes back from two shifts of the result.
-/

set_option autoImplicit false
set_option relaxedAutoImplicit false

namespace AccessHistory.Hash

/-! ### Shifts -/

private theorem shiftRight_add (x : UInt64) {m n : UInt64} (h : m.toNat + n.toNat < 64) :
    x >>> m >>> n = x >>> (m + n) := by
  apply UInt64.toNat_inj.mp
  simp only [UInt64.toNat_shiftRight, UInt64.toNat_add, ← Nat.shiftRight_add]
  congr 1
  omega

private theorem shiftRight_eq_zero (x : UInt64) {m n : UInt64} (hm : m.toNat < 64)
    (hn : n.toNat < 64) (h : 64 ≤ m.toNat + n.toNat) : x >>> m >>> n = 0 := by
  apply UInt64.toNat_inj.mp
  simp only [UInt64.toNat_shiftRight, ← Nat.shiftRight_add, Nat.mod_eq_of_lt hm,
    Nat.mod_eq_of_lt hn]
  have small : x.toNat < 2 ^ (m.toNat + n.toNat) :=
    Nat.lt_of_lt_of_le x.toNat_lt (Nat.pow_le_pow_right Nat.two_pos h)
  exact Nat.shiftRight_eq_zero _ _ small

/-- A word and its shift by `n` places, one over the other. -/
def smear (n x : UInt64) : UInt64 := x ^^^ (x >>> n)

/-- Takes back a shift of more than a third of a word, and of less than a half. -/
def unsmear (n x : UInt64) : UInt64 := x ^^^ (x >>> n) ^^^ (x >>> (n + n))

private theorem shifts_short_of_word {n : UInt64} (short : n.toNat + n.toNat < 64)
    (long : 64 ≤ n.toNat + n.toNat + n.toNat) (x : UInt64) :
    x >>> n >>> n = x >>> (n + n) ∧ x >>> n >>> (n + n) = 0 ∧ x >>> (n + n) >>> n = 0 := by
  have double : (n + n).toNat = n.toNat + n.toNat := by
    rw [UInt64.toNat_add]
    omega
  refine ⟨shiftRight_add x short, ?_, ?_⟩
  · apply shiftRight_eq_zero <;> omega
  · apply shiftRight_eq_zero <;> omega

-- In both orders all but the word itself stands there twice, or was shifted out.
theorem unsmear_smear {n : UInt64} (short : n.toNat + n.toNat < 64)
    (long : 64 ≤ n.toNat + n.toNat + n.toNat) (x : UInt64) : unsmear n (smear n x) = x := by
  obtain ⟨twice, gone, -⟩ := shifts_short_of_word short long x
  calc unsmear n (smear n x)
      = x ^^^ x >>> n ^^^ (x >>> n ^^^ x >>> (n + n)) ^^^ (x >>> (n + n) ^^^ 0) := by
        simp only [unsmear, smear, UInt64.shiftRight_xor, twice, gone]
    _ = x := by
        simp only [UInt64.xor_assoc, UInt64.xor_zero, UInt64.xor_self]

theorem smear_unsmear {n : UInt64} (short : n.toNat + n.toNat < 64)
    (long : 64 ≤ n.toNat + n.toNat + n.toNat) (x : UInt64) : smear n (unsmear n x) = x := by
  obtain ⟨twice, -, gone⟩ := shifts_short_of_word short long x
  calc smear n (unsmear n x)
      = x ^^^ x >>> n ^^^ x >>> (n + n) ^^^ (x >>> n ^^^ x >>> (n + n) ^^^ 0) := by
        simp only [unsmear, smear, UInt64.shiftRight_xor, twice, gone]
    _ = x ^^^ ((x >>> n ^^^ x >>> (n + n)) ^^^ (x >>> n ^^^ x >>> (n + n))) := by
        simp only [UInt64.xor_assoc, UInt64.xor_zero]
    _ = x := by
        rw [UInt64.xor_self, UInt64.xor_zero]

/-! ### The scrambler -/

def unscramble (x : UInt64) : UInt64 :=
  let x := unsmear 31 x * 0x319642b2d24d8ec3
  let x := unsmear 27 x * 0x96de1b173f119089
  unsmear 30 x

/-- A factor is taken back by its inverse. -/
theorem mul_mul_cancel {k k' : UInt64} (inverse : k * k' = 1) (x : UInt64) : x * k * k' = x := by
  rw [UInt64.mul_assoc, inverse, UInt64.mul_one]

theorem scramble_eq_smears (x : UInt64) :
    scramble x = smear 31 (smear 27 (smear 30 x * 0xbf58476d1ce4e5b9) * 0x94d049bb133111eb) := rfl

theorem unscramble_scramble (x : UInt64) : unscramble (scramble x) = x := by
  rw [scramble_eq_smears, unscramble, unsmear_smear (by decide) (by decide),
    mul_mul_cancel (by decide), unsmear_smear (by decide) (by decide), mul_mul_cancel (by decide),
    unsmear_smear (by decide) (by decide)]

theorem scramble_unscramble (x : UInt64) : scramble (unscramble x) = x := by
  rw [scramble_eq_smears, unscramble, smear_unsmear (by decide) (by decide),
    mul_mul_cancel (by decide), smear_unsmear (by decide) (by decide), mul_mul_cancel (by decide),
    smear_unsmear (by decide) (by decide)]

theorem scramble_injective {x y : UInt64} (h : scramble x = scramble y) : x = y := by
  rw [← unscramble_scramble x, h, unscramble_scramble]

end AccessHistory.Hash
