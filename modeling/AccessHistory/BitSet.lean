import AccessHistory.Memory

/-!
Sets of bit positions below a fixed size, packed 64 to a word. The bits of the last word past the
size stay zero, so that whole words can be counted.
-/

set_option autoImplicit false
set_option relaxedAutoImplicit false

namespace AccessHistory

/-- A set of positions below `size`: position `i` is bit `i % 64` of word `i / 64`. -/
structure BitSet where
  words : Array UInt64
  size : Nat
  size_pos : 0 < size
  size_words : words.size = (size + 63) / 64
  deriving DecidableEq

namespace BitSet

/-! ### Bits of a word -/

def bit (x : UInt64) (i : Nat) : Bool := (x >>> i.toUInt64) &&& 1 == 1

def withBit (i : Nat) (x : UInt64) : UInt64 := x ||| 1 <<< i.toUInt64

def ones (x : UInt64) : Nat := (List.range 64).countP (bit x)

private theorem toNat_toUInt64_mod {i : Nat} (h : i < 64) : i.toUInt64.toNat % 64 = i := by
  rw [Nat.toUInt64, UInt64.toNat_ofNat']
  omega

theorem bit_eq_testBit (x : UInt64) {i : Nat} (h : i < 64) : bit x i = x.toNat.testBit i := by
  have hx : ((x >>> i.toUInt64) &&& 1).toNat = (x.toNat >>> i) % 2 := by
    rw [UInt64.toNat_and, UInt64.toNat_shiftRight, toNat_toUInt64_mod h, UInt64.toNat_one,
      Nat.and_one_is_mod]
  rw [bit, Bool.eq_iff_iff, beq_iff_eq, ← UInt64.toNat_inj, hx, UInt64.toNat_one, Nat.testBit,
    Nat.one_and_eq_mod_two]
  simp

theorem bit_withBit (x : UInt64) {i j : Nat} (hi : i < 64) (hj : j < 64) :
    bit (withBit i x) j = (decide (i = j) || bit x j) := by
  rw [bit_eq_testBit _ hj, bit_eq_testBit _ hj, withBit, UInt64.toNat_or, UInt64.toNat_shiftLeft,
    toNat_toUInt64_mod hi, UInt64.toNat_one, Nat.testBit_or, Nat.one_shiftLeft,
    Nat.testBit_mod_two_pow, Nat.testBit_two_pow, Bool.or_comm]
  simp [hj]

@[simp]
theorem bit_zero (i : Nat) : bit 0 i = false := by
  simp [bit]

/-! ### Words of a set -/

theorem div_lt_size_words (s : BitSet) {i : Nat} (h : i < s.size) : i / 64 < s.words.size := by
  have := s.size_words
  omega

/-! ### Building -/

/-- The empty set of positions below `size`. -/
def empty (size : Nat) (h : 0 < size) : BitSet :=
  ⟨Array.replicate ((size + 63) / 64) 0, size, h, Array.size_replicate⟩

def ofSize (size : Nat) : Except BuildError BitSet :=
  if h : 0 < size then .ok (empty size h) else .error (.filterSize size)

/-- The empty set of positions below `size`, in memory. -/
def allocate (size : UInt64) : Building BitSet := do
  if 0 < size.toNat then Memory.take (8 * ((size.toNat + 63) / 64))
  ofSize size.toNat

def clear (s : BitSet) : BitSet := empty s.size s.size_pos

/-! ### Members -/

def contains (s : BitSet) (i : Nat) : Bool :=
  if h : i < s.size then
    have := s.div_lt_size_words h
    bit s.words[i / 64] (i % 64)
  else false

/-- Puts a position into the set, if it is below the size. -/
def insert (s : BitSet) (i : Nat) : BitSet :=
  if i < s.size then
    { s with
      words := s.words.modify (i / 64) (withBit (i % 64))
      size_words := by rw [Array.size_modify, s.size_words] }
  else s

@[simp]
theorem size_insert (s : BitSet) (i : Nat) : (s.insert i).size = s.size := by
  unfold insert
  split <;> rfl

theorem contains_eq_bit (s : BitSet) {i : Nat} (h : i < s.size) (hw : i / 64 < s.words.size) :
    s.contains i = bit s.words[i / 64] (i % 64) := by
  rw [contains, dif_pos h]

theorem contains_of_size_le (s : BitSet) {i : Nat} (h : s.size ≤ i) : s.contains i = false := by
  rw [contains, dif_neg (Nat.not_lt.mpr h)]

@[simp]
theorem contains_empty (size : Nat) (h : 0 < size) (i : Nat) :
    (empty size h).contains i = false := by
  unfold contains empty
  split <;> simp

@[simp]
theorem contains_clear (s : BitSet) (i : Nat) : s.clear.contains i = false :=
  contains_empty s.size s.size_pos i

/-- A position is in the set after another one is inserted if it is that one or was there before. -/
theorem contains_insert (s : BitSet) {i : Nat} (hi : i < s.size) (j : Nat) :
    (s.insert i).contains j = (decide (i = j) || s.contains j) := by
  by_cases hj : j < s.size
  · have hw := s.div_lt_size_words hj
    have hw' : j / 64 < (s.insert i).words.size :=
      (s.insert i).div_lt_size_words (by simpa using hj)
    rw [contains_eq_bit s hj hw, contains_eq_bit _ (by simpa using hj) hw']
    simp only [insert, if_pos hi, Array.getElem_modify]
    by_cases hd : i / 64 = j / 64
    · rw [if_pos hd, bit_withBit _ (Nat.mod_lt _ (by decide)) (Nat.mod_lt _ (by decide))]
      have : i % 64 = j % 64 ↔ i = j := by omega
      simp only [this]
    · have : i ≠ j := fun h => hd (by rw [h])
      simp [hd, this]
  · rw [contains_of_size_le _ (by simpa using hj), contains_of_size_le _ (by simpa using hj)]
    have : i ≠ j := by omega
    simp [this]

/-- Whether a position is in the set; one past the size is a fault. -/
def contains? (s : BitSet) (i : Nat) : Except Fault Bool :=
  if i < s.size then .ok (s.contains i) else .error (.bitOutOfRange i s.size)

/-- Puts a position into the set; one past the size is a fault. -/
def insert? (s : BitSet) (i : Nat) : Except Fault BitSet :=
  if i < s.size then .ok (s.insert i) else .error (.bitOutOfRange i s.size)

/-! ### Size -/

def card (s : BitSet) : Nat := s.words.foldl (fun n x => n + ones x) 0

def byteSize (s : BitSet) : Nat := 8 * s.words.size

def outline (s : BitSet) : Text.Outline :=
  .record "BitVec" [
    ("blocks", .list (s.words.toList.map fun x => .ofNat x.toNat)),
    ("len", .ofNat s.size)]

end BitSet

end AccessHistory
