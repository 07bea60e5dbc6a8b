import AccessHistory.Hash.KeyHasher
import AccessHistory.Proofs.Unscramble
import AccessHistory.Sketch
import Mathlib.Algebra.Order.Ring.Nat

/-!
The words that the rows of a sketch reduce to columns. The scrambler loses nothing and the salt is
odd, so that in one row no two hashes have the same word, and no hash has the same word in two rows.
-/

set_option autoImplicit false
set_option relaxedAutoImplicit false

namespace AccessHistory.Sketch

open Hash (scramble unscramble rowSalt KeyHasher)
open Number (maxWord)

variable {w : CellWidth}

theorem rowWord_injective (row : Nat) {hash hash' : UInt64}
    (h : rowWord row hash = rowWord row hash') : hash = hash' :=
  (UInt64.add_left_inj _).mp (Hash.scramble_injective h)

/-! ### Salts -/

/-- The inverse of the salt among the words; only an odd word has one. -/
def saltInverse : UInt64 := 0xf1de83e19937733d

theorem mul_rowSalt_injective {x y : UInt64} (h : x * rowSalt = y * rowSalt) : x = y := by
  have inverse : rowSalt * saltInverse = 1 := by decide
  rw [← Hash.mul_mul_cancel inverse x, h, Hash.mul_mul_cancel inverse y]

theorem toUInt64_eq_iff (m n : Nat) : m.toUInt64 = n.toUInt64 ↔ m % 2 ^ 64 = n % 2 ^ 64 := by
  rw [← UInt64.toNat_inj]
  simp only [Nat.toUInt64, UInt64.toNat_ofNat']

theorem rowWord_eq_iff_of_hash (row row' : Nat) (hash : UInt64) :
    rowWord row hash = rowWord row' hash ↔ row % 2 ^ 64 = row' % 2 ^ 64 := by
  rw [← toUInt64_eq_iff]
  constructor
  · intro same
    have salts := (UInt64.add_right_inj _).mp (Hash.scramble_injective same)
    exact mul_rowSalt_injective salts
  · intro same
    rw [rowWord, rowWord, same]

/-- A sketch has fewer rows than there are words, because its cells are addressed by words. -/
theorem depth_le_maxWord (s : Sketch w) : s.depth ≤ maxWord :=
  Nat.le_trans (Nat.le_mul_of_pos_left s.depth s.width_pos) s.cells_le

theorem rowWord_row_inj {row row' : Nat} (h : row < 2 ^ 64) (h' : row' < 2 ^ 64) (hash : UInt64) :
    rowWord row hash = rowWord row' hash ↔ row = row' := by
  rw [rowWord_eq_iff_of_hash, Nat.mod_eq_of_lt h, Nat.mod_eq_of_lt h']

/-! ### Keys and rows -/

/-- The scrambler can be undone on both sides. So the words of a row tell all hashes apart, and with
them all keys that the hasher tells apart; and the words of a hash tell the rows apart, as many as
words can number, which is at least as many as a sketch has. -/
theorem rowWord_tells_apart :
    (∃ back : UInt64 → UInt64, (∀ x, back (scramble x) = x) ∧ ∀ x, scramble (back x) = x) ∧
    (∀ row hash hash', rowWord row hash = rowWord row hash' ↔ hash = hash') ∧
    (∀ (hasher : KeyHasher) row key key',
      rowWord row (hasher.hash key) = rowWord row (hasher.hash key') ↔
        hasher.hash key = hasher.hash key') ∧
    (∀ hash, ∀ row < 2 ^ 64, ∀ row' < 2 ^ 64,
      rowWord row hash = rowWord row' hash ↔ row = row') ∧
    ∀ (s : Sketch w) hash (row row' : Fin s.depth),
      rowWord row hash = rowWord row' hash ↔ row = row' := by
  have hashes (row : Nat) (hash hash' : UInt64) :
      rowWord row hash = rowWord row hash' ↔ hash = hash' := by
    constructor
    · intro same
      exact rowWord_injective row same
    · rintro rfl
      rfl
  refine ⟨⟨unscramble, Hash.unscramble_scramble, Hash.scramble_unscramble⟩, hashes, ?_, ?_, ?_⟩
  · intro hasher row key key'
    exact hashes row _ _
  · intro hash row h row' h'
    exact rowWord_row_inj h h' hash
  · intro s hash row row'
    have numbered (row : Fin s.depth) : row.val < 2 ^ 64 :=
      Nat.lt_of_lt_of_le row.isLt (Nat.le_succ_of_le s.depth_le_maxWord)
    rw [rowWord_row_inj (numbered row) (numbered row') hash, Fin.ext_iff]

/-- The first and the last of all rows that words can number scramble the hash zero differently, and
in the last one the hashes zero and one come to different words. -/
theorem rowWord_tells_apart_last :
    0 < 2 ^ 64 ∧ 2 ^ 64 - 1 < 2 ^ 64 ∧ rowWord 0 0 ≠ rowWord (2 ^ 64 - 1) 0 ∧
      rowWord (2 ^ 64 - 1) 0 ≠ rowWord (2 ^ 64 - 1) 1 := by
  obtain ⟨-, hashes, -, rows, -⟩ := rowWord_tells_apart (w := .bits32)
  refine ⟨by decide, by decide, ?_, ?_⟩
  · rw [ne_eq, rows 0 0 (by decide) (2 ^ 64 - 1) (by decide)]
    decide
  · rw [ne_eq, hashes]
    decide

end AccessHistory.Sketch
