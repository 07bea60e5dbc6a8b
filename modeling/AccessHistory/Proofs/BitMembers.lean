import AccessHistory.BitSet
import AccessHistory.Proofs.ArrayUpdates

/-!
Bit sets by their members. With zeros past the size, the words of a set are known once its members
are, and the bits that are set are as many as the members.
-/

set_option autoImplicit false
set_option relaxedAutoImplicit false

namespace AccessHistory

namespace BitSet

theorem size_foldl_insert (s : BitSet) (positions : List Nat) :
    (positions.foldl insert s).size = s.size := by
  induction positions generalizing s with
  | nil => rfl
  | cons i rest ih => rw [List.foldl_cons, ih, size_insert]

theorem eq_of_words {s s' : BitSet} (words : s.words = s'.words) (size : s.size = s'.size) :
    s = s' := by
  cases s
  cases s'
  cases words
  cases size
  rfl

theorem withBit_comm (i j : Nat) (x : UInt64) :
    withBit i (withBit j x) = withBit j (withBit i x) := by
  unfold withBit
  rw [UInt64.or_assoc, UInt64.or_assoc, UInt64.or_comm (1 <<< j.toUInt64)]

theorem words_insert (s : BitSet) (i : Nat) :
    (s.insert i).words =
      if i < s.size then s.words.modify (i / 64) (withBit (i % 64)) else s.words := by
  unfold insert
  split <;> rfl

theorem insert_comm (s : BitSet) (i j : Nat) : (s.insert i).insert j = (s.insert j).insert i := by
  apply eq_of_words
  · rw [words_insert, words_insert, words_insert, words_insert, size_insert, size_insert]
    by_cases hi : i < s.size <;> by_cases hj : j < s.size <;> simp only [hi, hj, if_true, if_false]
    exact modify_comm _ (withBit_comm (i % 64) (j % 64)) _ _
  · rw [size_insert, size_insert, size_insert, size_insert]

/-- Sets of one size are equal once they are emptied. -/
theorem clear_congr {s s' : BitSet} (h : s.size = s'.size) : s.clear = s'.clear := by
  cases s
  cases s'
  cases h
  rfl

/-! ### Padding -/

/-- All bits of the words at and past the size are zero. -/
def Padded (s : BitSet) : Prop :=
  ∀ (k : Nat) (x : UInt64), s.words[k]? = some x → ∀ j < 64, s.size ≤ 64 * k + j → bit x j = false

theorem padded_empty (size : Nat) (h : 0 < size) : (empty size h).Padded := by
  intro k x found j _ _
  have zero : x = 0 := by
    unfold empty at found
    rw [Array.getElem?_replicate] at found
    split at found
    · exact (Option.some.inj found).symm
    · cases found
  rw [zero, bit_zero]

theorem Padded.insert {s : BitSet} (h : s.Padded) (i : Nat) : (s.insert i).Padded := by
  intro k x found j short past
  rw [size_insert] at past
  rw [words_insert] at found
  split at found
  · next inside =>
    rw [Array.getElem?_modify] at found
    split at found
    · next here =>
      obtain ⟨y, before, rfl⟩ := Option.map_eq_some_iff.mp found
      have other : i % 64 ≠ j := by omega
      rw [bit_withBit y (Nat.mod_lt i (by decide)) short, h k y before j short past]
      simp [other]
    · exact h k x found j short past
  · exact h k x found j short past

/-- With zeros past the size, a bit of a word tells whether its position is in the set. -/
theorem Padded.contains_eq {s : BitSet} (h : s.Padded) {k : Nat} {x : UInt64}
    (found : s.words[k]? = some x) {j : Nat} (short : j < 64) :
    s.contains (64 * k + j) = bit x j := by
  rcases Nat.lt_or_ge (64 * k + j) s.size with inside | past
  · have word : (64 * k + j) / 64 = k := by omega
    have rest : (64 * k + j) % 64 = j := by omega
    obtain ⟨within, rfl⟩ := Array.getElem?_eq_some_iff.mp found
    rw [s.contains_eq_bit inside (s.div_lt_size_words inside)]
    simp only [word, rest]
  · rw [contains_of_size_le s past, h k x found j short past]

theorem word_ext {x y : UInt64} (h : ∀ j < 64, bit x j = bit y j) : x = y := by
  apply UInt64.toNat_inj.mp
  apply Nat.eq_of_testBit_eq
  intro j
  rcases Nat.lt_or_ge j 64 with short | long
  · rw [← bit_eq_testBit x short, ← bit_eq_testBit y short, h j short]
  · have wide : 2 ^ 64 ≤ 2 ^ j := Nat.pow_le_pow_right Nat.two_pos long
    rw [Nat.testBit_lt_two_pow (Nat.lt_of_lt_of_le x.toNat_lt wide),
      Nat.testBit_lt_two_pow (Nat.lt_of_lt_of_le y.toNat_lt wide)]

/-- Sets of one size with the same members are the same, word by word. -/
theorem Padded.ext {s s' : BitSet} (h : s.Padded) (h' : s'.Padded) (size : s.size = s'.size)
    (members : ∀ i, s.contains i = s'.contains i) : s = s' := by
  refine eq_of_words (Array.ext ?_ ?_) size
  · rw [s.size_words, s'.size_words, size]
  · intro k inside inside'
    apply word_ext
    intro j short
    rw [← h.contains_eq (Array.getElem?_eq_getElem inside) short,
      ← h'.contains_eq (Array.getElem?_eq_getElem inside') short, members]

/-! ### Size -/

private theorem foldl_ones (words : List UInt64) (p : Nat → Bool) (k n : Nat)
    (h : ∀ m x, words[m]? = some x → ∀ j < 64, p (64 * (k + m) + j) = bit x j) :
    words.foldl (fun n x => n + ones x) n =
      n + (List.range' (64 * k) (64 * words.length)).countP p := by
  induction words generalizing k n with
  | nil => rfl
  | cons x words ih =>
    have here : (List.range' (64 * k) 64).countP p = ones x := by
      rw [List.range'_eq_map_range, List.countP_map]
      apply List.countP_congr
      intro j short
      rw [Function.comp_apply, ← h 0 x rfl j (List.mem_range.mp short)]
      rfl
    have later := ih (k + 1) (n + ones x) fun m y found j short => by
      rw [Nat.add_assoc, Nat.add_comm 1 m]
      exact h (m + 1) y found j short
    rw [List.foldl_cons, later, List.length_cons, Nat.mul_succ 64 words.length,
      Nat.add_comm _ 64, ← List.range'_append_1, List.countP_append, here, Nat.add_assoc]
    rfl

/-- With zeros past the size, the bits that are set are as many as the members. -/
theorem Padded.card_eq {s : BitSet} (h : s.Padded) :
    s.card = (List.range s.size).countP s.contains := by
  have words := s.size_words
  have counted := foldl_ones s.words.toList s.contains 0 0 fun m x found j short => by
    rw [Array.getElem?_toList] at found
    rw [Nat.zero_add]
    exact h.contains_eq found short
  have padding : (List.range' s.size (64 * s.words.size - s.size)).countP s.contains = 0 := by
    rw [List.countP_eq_zero]
    intro i past
    rw [contains_of_size_le s (List.mem_range'_1.mp past).1]
    exact Bool.false_ne_true
  have whole : 64 * s.words.size = s.size + (64 * s.words.size - s.size) := by omega
  unfold card
  rw [← Array.foldl_toList, counted, Array.length_toList, whole, ← List.range'_append_1,
    List.countP_append, Nat.zero_add, Nat.mul_zero, Nat.zero_add, padding, Nat.add_zero,
    List.range_eq_range']

/-- No more bits are counted than the set has positions. -/
theorem Padded.card_le {s : BitSet} (h : s.Padded) : s.card ≤ s.size := by
  have few : (List.range s.size).countP s.contains ≤ (List.range s.size).length :=
    List.countP_le_length
  rwa [← h.card_eq, List.length_range] at few

end BitSet

end AccessHistory
