import AccessHistory.Proofs.SketchCounts

/-!
Estimates over whole histories of a sketch, records and resets in any order. An estimate is the
smallest of the key's row counts since the last reset, so it is exact for a key that has a column to
itself in some row.
-/

set_option autoImplicit false
set_option relaxedAutoImplicit false

namespace AccessHistory

variable {w : CellWidth}

namespace Sketch

def change (s : Sketch w) : Change → Sketch w := Change.apply record reset s

def changeAll (s : Sketch w) (changes : List Change) : Sketch w := changes.foldl change s

/-- A sketch holds what was recorded since its last reset, and nothing else of its history. -/
theorem changeAll_eq {width depth : Nat} {s : Sketch w} (h : ofShape width depth = .ok s)
    (changes : List Change) : s.changeAll changes = s.recordAll (sinceReset changes) :=
  foldl_apply_eq (fun recorded => (s.reset_recordAll recorded).trans (reset_of_ofShape h)) changes

/-! ### Rows -/

/-- How many of the recorded hashes share a key's column in a row. -/
def sharing (width : Nat) (recorded : List UInt64) (hash : UInt64) (row : Nat) : Nat :=
  recorded.countP fun other => column width row other = column width row hash

theorem sharing_of_alone {width row : Nat} {recorded : List UInt64} {hash : UInt64}
    (alone : ∀ other ∈ recorded, column width row other = column width row hash → other = hash) :
    sharing width recorded hash row = recorded.count hash := by
  unfold sharing
  rw [List.count_eq_countP]
  apply List.countP_congr
  intro other member
  rw [decide_eq_true_eq, beq_iff_eq]
  constructor
  · exact alone other member
  · rintro rfl
    rfl

theorem count_cell_of_recorded {width depth : Nat} {s : Sketch w}
    (h : ofShape width depth = .ok s) (recorded : List UInt64) (hash : UInt64)
    (row : Fin (s.recordAll recorded).depth) :
    ((s.recordAll recorded).cell hash row).count =
      min w.max (sharing width recorded hash row) := by
  obtain ⟨rfl, rfl⟩ := shape_of_ofShape h
  have counted := s.count_cell_recordAll recorded hash (row.cast (s.depth_recordAll recorded))
  rw [count_cell_of_ofShape h, Nat.zero_add, Nat.min_comm] at counted
  exact counted

/-- An estimate is the smallest of the row counts, each as far as a cell can count. -/
theorem min?_sharing {width depth : Nat} {s : Sketch w} (h : ofShape width depth = .ok s)
    (recorded : List UInt64) (hash : UInt64) :
    ((List.range depth).map fun row => min w.max (sharing width recorded hash row)).min? =
      some ((s.recordAll recorded).estimate hash) := by
  have rows : (s.recordAll recorded).depth = depth :=
    (s.depth_recordAll recorded).trans (shape_of_ofShape h).2
  obtain ⟨⟨least, attained⟩, below⟩ := (s.recordAll recorded).estimate_spec hash
  rw [List.min?_eq_some_iff]
  constructor
  · rw [attained, count_cell_of_recorded h]
    exact List.mem_map_of_mem (List.mem_range.mpr (rows ▸ least.isLt))
  · intro count shown
    obtain ⟨row, inside, rfl⟩ := List.mem_map.mp shown
    have inside : row < (s.recordAll recorded).depth := rows ▸ List.mem_range.mp inside
    have bound := below ⟨row, inside⟩
    rwa [count_cell_of_recorded h] at bound

/-! ### Exactness -/

/-- After any history of a fresh sketch, a key's estimate is the smallest number of records since
the last reset that share a column with the key in one row. It lies between the key's own records
and all of them, it is exact if the key is alone in its column of some row, and the order of the
records does not show in the table. -/
theorem estimate_of_history {width depth : Nat} {s : Sketch w} (h : ofShape width depth = .ok s)
    (changes : List Change) (hash : UInt64) :
    ((List.range depth).map fun row =>
        min w.max (sharing width (sinceReset changes) hash row)).min? =
      some ((s.changeAll changes).estimate hash) ∧
    min w.max ((sinceReset changes).count hash) ≤ (s.changeAll changes).estimate hash ∧
    (s.changeAll changes).estimate hash ≤ min w.max (sinceReset changes).length ∧
    ((∃ row < depth, ∀ other ∈ sinceReset changes,
        column width row other = column width row hash → other = hash) →
      (s.changeAll changes).estimate hash = min w.max ((sinceReset changes).count hash)) ∧
    ∀ changes', (sinceReset changes').Perm (sinceReset changes) →
      (s.changeAll changes').table = (s.changeAll changes).table := by
  have smallest := min?_sharing h (sinceReset changes) hash
  have own := min_count_le_estimate h (sinceReset changes) hash
  rw [changeAll_eq h]
  refine ⟨smallest, own, estimate_le_min_length h _ hash, ?_, ?_⟩
  · rintro ⟨row, inside, alone⟩
    have bound := (List.min?_eq_some_iff.mp smallest).2 _
      (List.mem_map_of_mem (List.mem_range.mpr inside))
    rw [sharing_of_alone alone] at bound
    exact Nat.le_antisymm bound own
  · intro changes' reordered
    rw [changeAll_eq h, s.recordAll_perm reordered]

/-- Hash 1 shares a column with hash 7 in the second row, but not in the first one. -/
theorem estimate_of_history_alone :
    ofShape 2 2 = .ok small ∧
    (∃ row < 2, ∀ other ∈ sinceReset [.record 9, .reset, .record 7, .record 1, .record 7],
      column 2 row other = column 2 row 7 → other = 7) ∧
    sharing 2 [7, 1, 7] 7 1 = 3 ∧
    (small.changeAll [.record 9, .reset, .record 7, .record 1, .record 7]).estimate 7 = 2 ∧
    (small.changeAll [.record 7, .record 7, .record 1]).table =
      (small.changeAll [.record 9, .reset, .record 7, .record 1, .record 7]).table := by
  have built : ofShape 2 2 = .ok small := rfl
  have alone : ∃ row < 2,
      ∀ other ∈ sinceReset [.record 9, .reset, .record 7, .record 1, .record 7],
        column 2 row other = column 2 row 7 → other = 7 := by
    refine ⟨0, Nat.two_pos, ?_⟩
    intro other member same
    have recorded : other = 7 ∨ other = 1 ∨ other = 7 := by
      simpa [sinceReset, Change.keep] using member
    rcases recorded with rfl | rfl | rfl
    · rfl
    · exact absurd same (by decide)
    · rfl
  obtain ⟨-, -, -, exact_if_alone, reordered⟩ := estimate_of_history built
    [.record 9, .reset, .record 7, .record 1, .record 7] 7
  exact ⟨built, alone, by decide, exact_if_alone alone, reordered _ (by decide)⟩

end Sketch

end AccessHistory
