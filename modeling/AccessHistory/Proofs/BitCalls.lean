import AccessHistory.Proofs.BitMembers
import AccessHistory.Proofs.CheckedCounters
import Mathlib.Data.Finset.Card
import Mathlib.Data.Finset.Range
import Mathlib.Data.List.DropRight

/-!
Calls on a bit set in place, one after the other. A position is in the set if it was inserted after
the last clearing. A position past the size stops the call before anything is changed, so that the
bits of the last word past the size stay zero and whole words can be counted.
-/

set_option autoImplicit false
set_option relaxedAutoImplicit false

namespace AccessHistory.BitSet

open Number (maxWord)

/-! ### Calls -/

inductive Call where
  | insert (i : Nat)
  | contains (i : Nat)
  | clear
  | card
  deriving DecidableEq

inductive Reply where
  | done
  | member (found : Bool)
  | count (n : Nat)
  deriving DecidableEq

/-- A calculation on a set in place. It may stop, and what it changed until then stays changed. -/
abbrev InPlace := ExceptT Trap (StateM BitSet)

def perform : Call → InPlace Reply
  | .insert i => do
    let s ← get
    set (← MonadExcept.ofExcept (s.write? i))
    return .done
  | .contains i => do
    let s ← get
    return .member (← MonadExcept.ofExcept (s.read? i))
  | .clear => do
    modify clear
    return .done
  | .card => do
    let s ← get
    return .count (← MonadExcept.ofExcept s.card?)

/-- What a call comes to, and the set that it leaves behind. -/
def serve (s : BitSet) (call : Call) : Except Trap Reply × BitSet := (perform call).run.run s

/-- The set after calls, those that stopped among them. -/
def after (s : BitSet) (calls : List Call) : BitSet := calls.foldl (fun s call => (s.serve call).2) s

theorem after_append_singleton (s : BitSet) (calls : List Call) (call : Call) :
    s.after (calls ++ [call]) = ((s.after calls).serve call).2 := by
  rw [after, List.foldl_append]
  rfl

/-! ### One call -/

theorem write?_eq_insert? (s : BitSet) (i : Nat) : s.write? i = (s.insert? i).mapError .fault := by
  rcases Nat.lt_or_ge i s.size with inside | past
  · rw [s.write?_eq inside, insert?, if_pos inside]
    rfl
  · rw [write?, locate?, if_pos past, insert?, if_neg (Nat.not_lt.mpr past)]
    rfl

theorem read?_eq_contains? (s : BitSet) (i : Nat) :
    s.read? i = (s.contains? i).mapError .fault := by
  rcases Nat.lt_or_ge i s.size with inside | past
  · rw [s.read?_eq inside, contains?, if_pos inside]
    rfl
  · rw [read?, locate?, if_pos past, contains?, if_neg (Nat.not_lt.mpr past)]
    rfl

-- All steps of a call that can stop come before its only change of the set.
theorem serve_insert_eq (s : BitSet) (i : Nat) :
    s.serve (.insert i) =
      match s.insert? i with
      | .error fault => (.error (.fault fault), s)
      | .ok grown => (.ok .done, grown) := by
  change (MonadExcept.ofExcept (s.write? i) >>= _ : InPlace Reply).run.run s = _
  rw [write?_eq_insert?]
  cases s.insert? i <;> rfl

theorem serve_contains_eq (s : BitSet) (i : Nat) :
    s.serve (.contains i) = (((s.contains? i).mapError .fault).map .member, s) := by
  change (MonadExcept.ofExcept (s.read? i) >>= _ : InPlace Reply).run.run s = _
  rw [read?_eq_contains?]
  cases s.contains? i <;> rfl

theorem serve_card_eq (s : BitSet) : s.serve .card = (s.card?.map .count, s) := by
  change (MonadExcept.ofExcept s.card? >>= _ : InPlace Reply).run.run s = _
  cases s.card? <;> rfl

theorem serve_insert (s : BitSet) {i : Nat} (h : i < s.size) :
    s.serve (.insert i) = (.ok .done, s.insert i) := by
  rw [serve_insert_eq, insert?, if_pos h]

theorem serve_insert_of_size_le (s : BitSet) {i : Nat} (h : s.size ≤ i) :
    s.serve (.insert i) = (.error (.fault (.bitOutOfRange i s.size)), s) := by
  rw [serve_insert_eq, insert?, if_neg (Nat.not_lt.mpr h)]

theorem serve_contains (s : BitSet) {i : Nat} (h : i < s.size) :
    s.serve (.contains i) = (.ok (.member (s.contains i)), s) := by
  rw [serve_contains_eq, contains?, if_pos h]
  rfl

theorem serve_contains_of_size_le (s : BitSet) {i : Nat} (h : s.size ≤ i) :
    s.serve (.contains i) = (.error (.fault (.bitOutOfRange i s.size)), s) := by
  rw [serve_contains_eq, contains?, if_neg (Nat.not_lt.mpr h)]
  rfl

theorem serve_card (s : BitSet) (fits : s.card ≤ maxWord) :
    s.serve .card = (.ok (.count s.card), s) := by
  rw [serve_card_eq, card?_eq fits]
  rfl

/-! ### Histories -/

/-- The calls after the last clearing. -/
def sinceClear (calls : List Call) : List Call := calls.rtakeWhile (· ≠ .clear)

theorem sinceClear_append_singleton (calls : List Call) (call : Call) :
    sinceClear (calls ++ [call]) = if call = .clear then [] else sinceClear calls ++ [call] := by
  rw [sinceClear, List.rtakeWhile_concat]
  simp [sinceClear]

/-- The positions that were inserted after the last clearing, each of them once. -/
def inserted (size : Nat) (calls : List Call) : Finset Nat :=
  {i ∈ Finset.range size | .insert i ∈ sinceClear calls}

theorem mem_inserted {size : Nat} {calls : List Call} {i : Nat} :
    i ∈ inserted size calls ↔ i < size ∧ .insert i ∈ sinceClear calls := by
  rw [inserted, Finset.mem_filter, Finset.mem_range]

theorem mem_inserted_append_singleton {size : Nat} {calls : List Call} {call : Call} {i : Nat} :
    i ∈ inserted size (calls ++ [call]) ↔
      call ≠ .clear ∧ (i ∈ inserted size calls ∨ i < size ∧ call = .insert i) := by
  rw [mem_inserted, mem_inserted, sinceClear_append_singleton]
  by_cases cleared : call = .clear
  · simp [cleared]
  · rw [if_neg cleared, List.mem_append, List.mem_singleton, eq_comm (a := Call.insert i)]
    tauto

/-- The set holds what calls on an empty one inserted, and no bit past its size. -/
structure Shows (size : Nat) (calls : List Call) (s : BitSet) : Prop where
  size_eq : s.size = size
  padded : s.Padded
  contains_iff : ∀ i, s.contains i = true ↔ i ∈ inserted size calls

theorem shows_empty {size : Nat} (h : 0 < size) : Shows size [] (empty size h) where
  size_eq := rfl
  padded := padded_empty size h
  contains_iff i := by
    rw [contains_empty, mem_inserted]
    simp [sinceClear]

/-- A call that neither clears the set nor inserts a position below its size shows nowhere. -/
theorem Shows.unnoticed {size : Nat} {calls : List Call} {call : Call} {s : BitSet}
    (h : Shows size calls s) (keeps : call ≠ .clear) (adds_none : ∀ i < size, call ≠ .insert i) :
    Shows size (calls ++ [call]) s := by
  refine ⟨h.size_eq, h.padded, ?_⟩
  intro i
  rw [h.contains_iff, mem_inserted_append_singleton]
  constructor
  · intro before
    exact ⟨keeps, .inl before⟩
  · rintro ⟨-, before | ⟨inside, added⟩⟩
    · exact before
    · exact absurd added (adds_none i inside)

theorem Shows.insert {size : Nat} {calls : List Call} {s : BitSet} (h : Shows size calls s) {i : Nat}
    (inside : i < size) : Shows size (calls ++ [.insert i]) (s.insert i) := by
  refine ⟨(s.size_insert i).trans h.size_eq, h.padded.insert i, ?_⟩
  intro j
  rw [s.contains_insert (h.size_eq ▸ inside), Bool.or_eq_true, decide_eq_true_eq, h.contains_iff,
    mem_inserted_append_singleton, Call.insert.injEq]
  constructor
  · rintro (rfl | before)
    · exact ⟨Call.noConfusion, .inr ⟨inside, rfl⟩⟩
    · exact ⟨Call.noConfusion, .inl before⟩
  · rintro ⟨-, before | ⟨-, here⟩⟩
    · exact .inr before
    · exact .inl here

theorem Shows.clear {size : Nat} {calls : List Call} {s : BitSet} (h : Shows size calls s) :
    Shows size (calls ++ [.clear]) s.clear := by
  refine ⟨h.size_eq, padded_empty s.size s.size_pos, ?_⟩
  intro i
  rw [mem_inserted_append_singleton, contains_clear]
  simp

theorem Shows.step {size : Nat} {calls : List Call} {s : BitSet} (h : Shows size calls s)
    (call : Call) : Shows size (calls ++ [call]) (s.serve call).2 := by
  cases call with
  | insert i =>
    rcases Nat.lt_or_ge i s.size with inside | past
    · rw [s.serve_insert inside]
      exact h.insert (h.size_eq ▸ inside)
    · rw [s.serve_insert_of_size_le past]
      apply h.unnoticed Call.noConfusion
      rintro j inside ⟨⟩
      rw [h.size_eq] at past
      omega
  | contains i =>
    rw [serve_contains_eq]
    exact h.unnoticed Call.noConfusion fun _ _ => Call.noConfusion
  | clear => exact h.clear
  | card =>
    rw [serve_card_eq]
    exact h.unnoticed Call.noConfusion fun _ _ => Call.noConfusion

theorem shows_after {size : Nat} (h : 0 < size) (calls : List Call) :
    Shows size calls ((empty size h).after calls) := by
  induction calls using List.reverseRecOn with
  | nil => exact shows_empty h
  | append_singleton calls call ih =>
    rw [after_append_singleton]
    exact ih.step call

theorem Shows.card_eq {size : Nat} {calls : List Call} {s : BitSet} (h : Shows size calls s) :
    s.card = (inserted size calls).card := by
  have members : inserted size calls = ((List.range s.size).filter s.contains).toFinset := by
    ext i
    rw [List.mem_toFinset, List.mem_filter, List.mem_range, h.contains_iff, mem_inserted, h.size_eq]
    tauto
  rw [members, List.toFinset_card_of_nodup (List.nodup_range.filter _), h.padded.card_eq,
    List.countP_eq_length_filter]

theorem card_inserted_le (size : Nat) (calls : List Call) : (inserted size calls).card ≤ size := by
  have few := Finset.card_filter_le (Finset.range size) fun i => .insert i ∈ sinceClear calls
  rwa [Finset.card_range] at few

/-- Bits past the size are zero, whichever word they are in. -/
theorem Padded.bit_eq_false {s : BitSet} (h : s.Padded) {i : Nat} {x : UInt64} (past : s.size ≤ i)
    (found : s.words[i / 64]? = some x) : bit x (i % 64) = false := by
  apply h (i / 64) x found (i % 64) (Nat.mod_lt i (by decide))
  rwa [Nat.div_add_mod]

/-! ### Any calls -/

/-- A set of some size can be built. After any calls on it, those that stopped among them, it has the
positions that were inserted after the last clearing, and counts as many; the bits past its size are
zero, and it has just as many words as its size needs. Calls for positions below the size do not stop,
and calls for others do, and leave the set as it was. -/
theorem calls_refine_positions {size : Nat} (some_position : 0 < size) (word : size ≤ maxWord)
    (calls : List Call) :
    ∃ s t, ofSize size = .ok s ∧ s.after calls = t ∧
      (∀ i < size, t.serve (.contains i) =
        (.ok (.member (decide (.insert i ∈ sinceClear calls))), t)) ∧
      t.serve .card = (.ok (.count (inserted size calls).card), t) ∧
      (inserted size calls).card ≤ size ∧
      (∀ i x, size ≤ i → t.words[i / 64]? = some x → bit x (i % 64) = false) ∧
      (64 * (t.words.size - 1) < size ∧ size ≤ 64 * t.words.size) ∧
      (∀ i < size, (t.serve (.insert i)).1 = .ok .done) ∧
      (t.serve .clear).1 = .ok .done ∧
      ∀ i, size ≤ i →
        t.serve (.insert i) = (.error (.fault (.bitOutOfRange i size)), t) ∧
        t.serve (.contains i) = (.error (.fault (.bitOutOfRange i size)), t) := by
  refine ⟨empty size some_position, _, dif_pos some_position, rfl, ?_⟩
  have shows := shows_after some_position calls
  have counted := shows.card_eq
  have few := card_inserted_le size calls
  generalize (empty size some_position).after calls = t at shows counted ⊢
  obtain ⟨rfl, padded, contains_iff⟩ := shows
  refine ⟨?_, ?_, few, ?_, ?_, ?_, rfl, ?_⟩
  · intro i inside
    have found := contains_iff i
    rw [mem_inserted, and_iff_right inside] at found
    rw [t.serve_contains inside]
    simp only [← found, Bool.decide_eq_true]
  · rw [← counted] at few ⊢
    exact t.serve_card (Nat.le_trans few word)
  · intro i x past found
    exact padded.bit_eq_false past found
  · have words := t.size_words
    omega
  · intro i inside
    rw [t.serve_insert inside]
  · intro i past
    exact ⟨t.serve_insert_of_size_le past, t.serve_contains_of_size_le past⟩

/-- Positions at the ends of words, one of them inserted twice, one before the last clearing, and one
past the size. -/
theorem calls_refine_positions_at_ends :
    0 < 130 ∧ 130 ≤ maxWord ∧
      ∃ s t, ofSize 130 = .ok s ∧
        s.after [.insert 1, .clear, .insert 63, .insert 64, .insert 130, .insert 129, .insert 64] =
          t ∧
        t.serve (.contains 64) = (.ok (.member true), t) ∧
        t.serve (.contains 1) = (.ok (.member false), t) ∧
        t.serve .card = (.ok (.count 3), t) ∧
        t.words.size = 3 ∧
        t.serve (.insert 130) = (.error (.fault (.bitOutOfRange 130 130)), t) := by
  obtain ⟨s, t, built, reached, found, counted, -, -, words, -, -, stops⟩ :=
    calls_refine_positions (show 0 < 130 by decide) (by decide)
      [.insert 1, .clear, .insert 63, .insert 64, .insert 130, .insert 129, .insert 64]
  exact ⟨by decide, by decide, s, t, built, reached, found 64 (by decide), found 1 (by decide),
    counted, by omega, (stops 130 (by decide)).1⟩

end AccessHistory.BitSet
