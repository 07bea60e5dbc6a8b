import AccessHistory.Filter
import AccessHistory.Proofs.BitMembers
import AccessHistory.Proofs.Changes

/-!
What a filter holds after records: the positions that some recorded key covers, and no others.
-/

set_option autoImplicit false
set_option relaxedAutoImplicit false

namespace AccessHistory

namespace Filter

def recordAll (f : Filter) (hashes : List UInt64) : Filter := hashes.foldl record f

theorem size_bits_record (f : Filter) (hash : UInt64) :
    (f.record hash).bits.size = f.bits.size :=
  f.bits.size_foldl_insert (f.positions hash)

/-- A record leaves the positions of all keys where they were. -/
theorem positions_record (f : Filter) (recorded hash : UInt64) :
    (f.record recorded).positions hash = f.positions hash := by
  unfold positions
  rw [size_bits_record]
  rfl

theorem positions_recordAll (f : Filter) (hashes : List UInt64) (hash : UInt64) :
    (f.recordAll hashes).positions hash = f.positions hash :=
  foldl_keeps record (·.positions hash) (fun g first => g.positions_record first hash) f hashes

/-- A position is in the set after records if a recorded key covers it or it was there before. -/
theorem contains_bits_recordAll (f : Filter) (hashes : List UInt64) (j : Nat) :
    (f.recordAll hashes).bits.contains j = true ↔
      (∃ hash ∈ hashes, j ∈ f.positions hash) ∨ f.bits.contains j = true := by
  induction hashes generalizing f with
  | nil => simp [recordAll]
  | cons first hashes ih =>
    refine (ih (f.record first)).trans ?_
    simp only [positions_record, contains_bits_record, Bool.or_eq_true, decide_eq_true_eq,
      List.mem_cons, exists_eq_or_imp]
    constructor
    · rintro (later | here | before)
      · exact .inl (.inr later)
      · exact .inl (.inl here)
      · exact .inr before
    · rintro ((here | later) | before)
      · exact .inr (.inl here)
      · exact .inl later
      · exact .inr (.inr before)

/-- Two records cover the same positions in either order. -/
theorem record_comm (f : Filter) (first second : UInt64) :
    (f.record first).record second = (f.record second).record first := by
  have covered : (f.positions second).foldl BitSet.insert
        ((f.positions first).foldl BitSet.insert f.bits) =
      (f.positions first).foldl BitSet.insert
        ((f.positions second).foldl BitSet.insert f.bits) := by
    rw [← List.foldl_append, ← List.foldl_append]
    exact List.perm_append_comm.foldl_eq' (fun i _ j _ s => s.insert_comm i j) f.bits
  have first_then := f.positions_record first second
  have second_then := f.positions_record second first
  unfold record at first_then second_then ⊢
  simp only [first_then, second_then, covered]

theorem padded_record {f : Filter} (h : f.bits.Padded) (hash : UInt64) :
    (f.record hash).bits.Padded := by
  have inserted (positions : List Nat) (s : BitSet) (padded : s.Padded) :
      (positions.foldl BitSet.insert s).Padded := by
    induction positions generalizing s with
    | nil => exact padded
    | cons i rest ih => exact ih (s.insert i) (padded.insert i)
  exact inserted (f.positions hash) f.bits h

/-! ### Estimates -/

theorem contains_eq_true_iff (f : Filter) (hash : UInt64) :
    f.contains hash = true ↔ ∀ j ∈ f.positions hash, f.bits.contains j = true :=
  List.all_eq_true

theorem estimate_le_one (f : Filter) (hash : UInt64) : f.estimate hash ≤ 1 := by
  unfold estimate
  split <;> omega

theorem estimate_recordAll_of_mem (f : Filter) {hashes : List UInt64} {hash : UInt64}
    (h : hash ∈ hashes) : (f.recordAll hashes).estimate hash = 1 := by
  apply if_pos
  rw [contains_eq_true_iff]
  intro j covered
  rw [positions_recordAll] at covered
  exact (f.contains_bits_recordAll hashes j).mpr (.inl ⟨hash, h, covered⟩)

/-! ### Filters without records -/

theorem reset_record (f : Filter) (hash : UInt64) : (f.record hash).reset = f.reset := by
  have cleared := BitSet.clear_congr (f.size_bits_record hash)
  unfold reset
  rw [cleared]
  rfl

theorem reset_recordAll (f : Filter) (hashes : List UInt64) :
    (f.recordAll hashes).reset = f.reset :=
  foldl_keeps record reset reset_record f hashes

/-- A filter as it is built holds an empty set of some size, and covers a key at least once. -/
theorem of_ofShape {size probeCount : Nat} {f : Filter} (h : ofShape size probeCount = .ok f) :
    (∃ h : 0 < size, f.bits = BitSet.empty size h) ∧ 0 < f.probeCount := by
  unfold ofShape BitSet.ofSize at h
  split at h
  · cases h
  · next allowed =>
    have probes : minProbes = 1 := rfl
    split at h
    · next nonempty =>
      cases h
      exact ⟨⟨nonempty, rfl⟩, by dsimp only; omega⟩
    · cases h

theorem positions_of_ofShape {size probeCount : Nat} {f : Filter}
    (h : ofShape size probeCount = .ok f) (hash : UInt64) :
    f.positions hash = Hash.probes hash (Hash.scramble hash) probeCount size := by
  unfold ofShape BitSet.ofSize at h
  split at h
  · cases h
  · split at h
    · cases h
      rfl
    · cases h

theorem reset_of_ofShape {size probeCount : Nat} {f : Filter}
    (h : ofShape size probeCount = .ok f) : f.reset = f := by
  obtain ⟨⟨nonempty, empty⟩, -⟩ := of_ofShape h
  cases f
  cases empty
  rfl

theorem contains_of_ofShape {size probeCount : Nat} {f : Filter}
    (h : ofShape size probeCount = .ok f) (hash : UInt64) : f.contains hash = false := by
  obtain ⟨⟨nonempty, empty⟩, probes⟩ := of_ofShape h
  apply Bool.eq_false_iff.mpr
  intro seen
  have some_position : 0 < (f.positions hash).length := by
    rw [positions, Hash.length_probes]
    exact probes
  have covered := (contains_eq_true_iff f hash).mp seen _ (List.getElem_mem some_position)
  rw [empty, BitSet.contains_empty] at covered
  cases covered

theorem estimate_of_ofShape {size probeCount : Nat} {f : Filter}
    (h : ofShape size probeCount = .ok f) (hash : UInt64) : f.estimate hash = 0 := by
  rw [estimate, contains_of_ofShape h]
  rfl

def small : Filter := ⟨.empty 8 (by decide), 2⟩

end Filter

end AccessHistory
