import AccessHistory.Proofs.FilterCover
import Mathlib.Data.List.Dedup
import Mathlib.Data.List.Perm.Subperm

/-!
Whole histories of a filter, records and resets in any order. A position is in the set if one of the
hashes recorded since the last reset has it among its probes, so that only the set of these hashes
shows in the filter.
-/

set_option autoImplicit false
set_option relaxedAutoImplicit false

namespace AccessHistory.Filter

open Hash (scramble probes)

/-! ### Histories -/

def change (f : Filter) : Change → Filter := Change.apply record reset f

def changeAll (f : Filter) (changes : List Change) : Filter := changes.foldl change f

variable {size probeCount : Nat} {f : Filter}

/-- A filter holds what was recorded since its last reset, and nothing else of its history. -/
theorem changeAll_eq (h : ofShape size probeCount = .ok f) (changes : List Change) :
    f.changeAll changes = f.recordAll (sinceReset changes) :=
  foldl_apply_eq (fun recorded => (f.reset_recordAll recorded).trans (reset_of_ofShape h)) changes

theorem probeCount_recordAll (f : Filter) (recorded : List UInt64) :
    (f.recordAll recorded).probeCount = f.probeCount :=
  foldl_keeps record (·.probeCount) (fun _ _ => rfl) f recorded

theorem size_bits_recordAll (f : Filter) (recorded : List UInt64) :
    (f.recordAll recorded).bits.size = f.bits.size :=
  foldl_keeps record (·.bits.size) size_bits_record f recorded

/-- Records never set a bit past the size. -/
theorem padded_of_recorded (h : ofShape size probeCount = .ok f) (recorded : List UInt64) :
    (f.recordAll recorded).bits.Padded := by
  have kept (g : Filter) (padded : g.bits.Padded) : (g.recordAll recorded).bits.Padded := by
    induction recorded generalizing g with
    | nil => exact padded
    | cons hash recorded ih => exact ih (g.record hash) (padded_record padded hash)
  obtain ⟨⟨nonempty, empty⟩, -⟩ := of_ofShape h
  apply kept
  rw [empty]
  exact BitSet.padded_empty size nonempty

/-! ### Covered positions -/

/-- One of the recorded hashes has the position among its probes. -/
def Covered (size probeCount : Nat) (recorded : List UInt64) (j : Nat) : Prop :=
  ∃ hash ∈ recorded, j ∈ probes hash (scramble hash) probeCount size

theorem contains_bits_of_recorded (h : ofShape size probeCount = .ok f) (recorded : List UInt64)
    (j : Nat) :
    (f.recordAll recorded).bits.contains j = true ↔ Covered size probeCount recorded j := by
  obtain ⟨⟨nonempty, empty⟩, -⟩ := of_ofShape h
  rw [contains_bits_recordAll, empty, BitSet.contains_empty]
  simp only [positions_of_ofShape h, Bool.false_eq_true, or_false]
  rfl

theorem contains_of_recorded (h : ofShape size probeCount = .ok f) (recorded : List UInt64)
    (hash : UInt64) :
    (f.recordAll recorded).contains hash = true ↔
      ∀ j ∈ probes hash (scramble hash) probeCount size, Covered size probeCount recorded j := by
  rw [contains_eq_true_iff, positions_recordAll, positions_of_ofShape h]
  simp only [contains_bits_of_recorded h]

/-- Records that cover the same positions leave the same filter. -/
theorem recordAll_congr (h : ofShape size probeCount = .ok f) {recorded recorded' : List UInt64}
    (same : ∀ j, Covered size probeCount recorded' j ↔ Covered size probeCount recorded j) :
    f.recordAll recorded' = f.recordAll recorded := by
  have bits : (f.recordAll recorded').bits = (f.recordAll recorded).bits := by
    apply (padded_of_recorded h recorded').ext (padded_of_recorded h recorded)
    · rw [size_bits_recordAll, size_bits_recordAll]
    · intro j
      rw [Bool.eq_iff_iff, contains_bits_of_recorded h, contains_bits_of_recorded h, same]
  have probed : (f.recordAll recorded').probeCount = (f.recordAll recorded).probeCount := by
    rw [probeCount_recordAll, probeCount_recordAll]
  cases left : f.recordAll recorded'
  cases right : f.recordAll recorded
  rw [left, right] at bits probed
  cases bits
  cases probed
  rfl

/-- Only the probes of new hashes can add bits. -/
theorem card_le_of_recorded (h : ofShape size probeCount = .ok f) (recorded : List UInt64) :
    (f.recordAll recorded).bits.card ≤ min size (probeCount * recorded.dedup.length) := by
  have padded := padded_of_recorded h recorded
  have bits : (f.recordAll recorded).bits.size = size := by
    obtain ⟨⟨nonempty, empty⟩, -⟩ := of_ofShape h
    rw [size_bits_recordAll, empty]
    rfl
  refine Nat.le_min.mpr ⟨bits ▸ padded.card_le, ?_⟩
  have distinct : ((List.range size).filter (f.recordAll recorded).bits.contains).Nodup :=
    List.nodup_range.filter _
  have covered : (List.range size).filter (f.recordAll recorded).bits.contains ⊆
      recorded.dedup.flatMap fun hash => probes hash (scramble hash) probeCount size := by
    intro j member
    obtain ⟨hash, made, probed⟩ :=
      (contains_bits_of_recorded h recorded j).mp (List.mem_filter.mp member).2
    exact List.mem_flatMap.mpr ⟨hash, List.mem_dedup.mpr made, probed⟩
  have few := (distinct.subperm covered).length_le
  rw [List.length_flatMap] at few
  simp only [Hash.length_probes, List.map_const', List.sum_replicate_nat] at few
  rw [padded.card_eq, bits, List.countP_eq_length_filter, Nat.mul_comm]
  exact few

/-! ### Exactness -/

/-- After any history of a fresh filter, a position is in the set if a hash recorded since the last
reset has it among its probes, and a key counts as seen if all its probes are such positions.
Recorded keys count as seen, keys that count as seen change nothing when they are recorded, only the
set of the recorded hashes shows in the filter and bounds the bits that are set, and right after a
reset no key counts as seen. -/
theorem covered_of_history (h : ofShape size probeCount = .ok f) (changes : List Change) :
    (∀ j, (f.changeAll changes).bits.contains j = true ↔
      Covered size probeCount (sinceReset changes) j) ∧
    (∀ hash, (f.changeAll changes).contains hash = true ↔
      ∀ j ∈ probes hash (scramble hash) probeCount size,
        Covered size probeCount (sinceReset changes) j) ∧
    (∀ hash ∈ sinceReset changes, (f.changeAll changes).contains hash = true) ∧
    (∀ changes', (∀ hash, hash ∈ sinceReset changes' ↔ hash ∈ sinceReset changes) →
      f.changeAll changes' = f.changeAll changes) ∧
    (∀ hash, (f.changeAll changes).contains hash = true →
      (f.changeAll changes).record hash = f.changeAll changes) ∧
    (f.changeAll changes).bits.card ≤ min size (probeCount * (sinceReset changes).dedup.length) ∧
    ∀ hash, (f.changeAll changes).reset.contains hash = false := by
  have members := contains_bits_of_recorded h (sinceReset changes)
  have seen := contains_of_recorded h (sinceReset changes)
  rw [changeAll_eq h]
  refine ⟨members, seen, ?_, ?_, ?_, card_le_of_recorded h _, ?_⟩
  · intro hash made
    rw [seen]
    intro j probed
    exact ⟨hash, made, probed⟩
  · intro changes' same
    rw [changeAll_eq h]
    apply recordAll_congr h
    intro j
    simp only [Covered, same]
  · intro hash before
    have again : (f.recordAll (sinceReset changes)).record hash =
        f.recordAll (sinceReset changes ++ [hash]) := by
      rw [recordAll, recordAll, List.foldl_append]
      rfl
    rw [again]
    apply recordAll_congr h
    intro j
    constructor
    · rintro ⟨made, member, probed⟩
      rcases List.mem_append.mp member with earlier | last
      · exact ⟨made, earlier, probed⟩
      · rw [List.mem_singleton.mp last] at probed
        exact (seen hash).mp before j probed
    · rintro ⟨made, member, probed⟩
      exact ⟨made, List.mem_append_left _ member, probed⟩
  · intro hash
    rw [reset_recordAll, reset_of_ofShape h, contains_of_ofShape h]

/-- Hash 9 is forgotten; the two records of hash 7 count once. -/
theorem covered_of_history_twice :
    ofShape 8 2 = .ok small ∧
    sinceReset [.record 9, .reset, .record 7, .record 1, .record 7] = [7, 1, 7] ∧
    (small.changeAll [.record 9, .reset, .record 7, .record 1, .record 7]).contains 1 = true ∧
    small.changeAll [.record 1, .record 7] =
      small.changeAll [.record 9, .reset, .record 7, .record 1, .record 7] ∧
    (small.changeAll [.record 9, .reset, .record 7, .record 1, .record 7]).bits.card ≤ 4 := by
  have built : ofShape 8 2 = .ok small := rfl
  have kept : sinceReset [.record 9, .reset, .record 7, .record 1, .record 7] = [7, 1, 7] := rfl
  have same (hash : UInt64) : hash ∈ sinceReset [.record 1, .record 7] ↔
      hash ∈ sinceReset [.record 9, .reset, .record 7, .record 1, .record 7] := by
    show hash ∈ [1, 7] ↔ hash ∈ [7, 1, 7]
    simp only [List.mem_cons, List.not_mem_nil, or_false]
    tauto
  obtain ⟨-, -, recorded, only_set, -, few, -⟩ := covered_of_history built
    [.record 9, .reset, .record 7, .record 1, .record 7]
  refine ⟨built, kept, recorded 1 (by rw [kept]; decide), only_set _ same, ?_⟩
  rw [kept] at few
  exact few

end AccessHistory.Filter
