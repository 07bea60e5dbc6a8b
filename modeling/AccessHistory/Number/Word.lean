/-!
The range of words, and the larger and the smaller one of two.
-/

set_option autoImplicit false
set_option relaxedAutoImplicit false

namespace AccessHistory.Number

/-- The largest word: 64 ones. -/
def maxWord : Nat := 18446744073709551615

theorem toNat_max (x y : UInt64) : (max x y).toNat = max x.toNat y.toNat := by
  change (if x ≤ y then y else x).toNat = _
  split <;> next h => rw [UInt64.le_iff_toNat_le] at h; omega

theorem toNat_min (x y : UInt64) : (min x y).toNat = min x.toNat y.toNat := by
  change (if x ≤ y then x else y).toNat = _
  split <;> next h => rw [UInt64.le_iff_toNat_le] at h; omega

end AccessHistory.Number
