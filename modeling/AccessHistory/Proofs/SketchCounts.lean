import AccessHistory.Proofs.ArrayUpdates
import AccessHistory.Proofs.Changes
import AccessHistory.Sketch

/-!
What a sketch holds after records: each cell counts the recorded keys of its column and stops at
the cell's largest count, and the estimate of a key is the smallest of its cells.
-/

set_option autoImplicit false
set_option relaxedAutoImplicit false

namespace AccessHistory.Sketch

variable {w : CellWidth}

def recordAll (s : Sketch w) (hashes : List UInt64) : Sketch w := hashes.foldl record s

theorem depth_recordAll (s : Sketch w) (hashes : List UInt64) :
    (s.recordAll hashes).depth = s.depth :=
  foldl_keeps record depth (fun _ _ => rfl) s hashes

theorem width_recordAll (s : Sketch w) (hashes : List UInt64) :
    (s.recordAll hashes).width = s.width :=
  foldl_keeps record width (fun _ _ => rfl) s hashes

/-! ### Order -/

private theorem bump_bumpRow (width rows : Nat) (hash hash' : UInt64) (table : Array (Cell w))
    (row : Nat) :
    bump width rows hash (bumpRow width hash' table row) =
      bumpRow width hash' (bump width rows hash table) row := by
  induction rows with
  | zero => rw [bump_zero, bump_zero]
  | succ rows ih =>
    rw [bump_succ, bump_succ, ih]
    exact modify_comm _ (fun _ => rfl) _ _

theorem bump_comm (width rows rows' : Nat) (hash hash' : UInt64) (table : Array (Cell w)) :
    bump width rows hash (bump width rows' hash' table) =
      bump width rows' hash' (bump width rows hash table) := by
  induction rows' with
  | zero => rw [bump_zero, bump_zero]
  | succ rows' ih => rw [bump_succ, bump_succ, bump_bumpRow, ih]

/-- Two records leave the same table in either order. -/
theorem record_comm (s : Sketch w) (first second : UInt64) :
    (s.record first).record second = (s.record second).record first := by
  have tables := bump_comm s.width s.depth s.depth second first s.table
  unfold record
  simp only [tables]

theorem recordAll_perm (s : Sketch w) {hashes hashes' : List UInt64} (h : hashes.Perm hashes') :
    s.recordAll hashes = s.recordAll hashes' :=
  h.foldl_eq' (fun first _ second _ t => t.record_comm first second) s

/-! ### Cells -/

/-- A cell counts every recorded key of its column, up to the largest count that it holds. -/
theorem count_cell_recordAll (s : Sketch w) (hashes : List UInt64) (hash : UInt64)
    (row : Fin s.depth) :
    ((s.recordAll hashes).cell hash (row.cast (s.depth_recordAll hashes).symm)).count =
      min ((s.cell hash row).count +
        hashes.countP (column s.width row · = column s.width row hash)) w.max := by
  induction hashes generalizing s with
  | nil =>
    have full := (s.cell hash row).count_le
    change (s.cell hash row).count = min ((s.cell hash row).count + 0) w.max
    omega
  | cons first hashes ih =>
    have later := ih (s.record first) row
    have recorded := s.cell_record first hash row
    change _ = min (((s.record first).cell hash row).count +
      hashes.countP (column s.width row · = column s.width row hash)) w.max at later
    refine later.trans ?_
    rw [recorded, List.countP_cons]
    by_cases same : column s.width row first = column s.width row hash
    · simp only [same, if_true, Cell.count_succ, decide_true]
      omega
    · simp only [same, if_false, decide_false]
      rfl

/-! ### Estimates -/

/-- The estimate is the count of one of the key's cells, and of none of them more. -/
theorem estimate_spec (s : Sketch w) (hash : UInt64) :
    (∃ row, s.estimate hash = (s.cell hash row).count) ∧
      ∀ row, s.estimate hash ≤ (s.cell hash row).count := by
  have least : s.estimate hash ∈ (List.finRange s.depth).map (fun row => (s.cell hash row).count) ∧
      ∀ n ∈ (List.finRange s.depth).map (fun row => (s.cell hash row).count),
        s.estimate hash ≤ n := by
    cases found : ((List.finRange s.depth).map fun row => (s.cell hash row).count).min? with
    | none =>
      have none_left := congrArg List.length (List.min?_eq_none_iff.mp found)
      simp only [List.length_map, List.length_finRange, List.length_nil] at none_left
      exact absurd none_left (Nat.pos_iff_ne_zero.mp s.depth_pos)
    | some n =>
      have smallest := List.min?_eq_some_iff.mp found
      rwa [estimate, found]
  refine ⟨?_, fun row => least.2 _ (List.mem_map.mpr ⟨row, List.mem_finRange row, rfl⟩)⟩
  obtain ⟨row, -, same⟩ := List.mem_map.mp least.1
  exact ⟨row, same.symm⟩

/-! ### Sketches without records -/

theorem reset_record (s : Sketch w) (hash : UInt64) : (s.record hash).reset = s.reset := rfl

theorem reset_recordAll (s : Sketch w) (hashes : List UInt64) :
    (s.recordAll hashes).reset = s.reset :=
  foldl_keeps record reset reset_record s hashes

/-- A sketch as it is built has only zeros, so that a reset leaves it as it is. -/
theorem reset_of_ofShape {width depth : Nat} {s : Sketch w} (h : ofShape width depth = .ok s) :
    s.reset = s := by
  unfold ofShape at h
  split at h
  · cases h
    rfl
  · cases h

theorem shape_of_ofShape {width depth : Nat} {s : Sketch w} (h : ofShape width depth = .ok s) :
    s.width = width ∧ s.depth = depth := by
  unfold ofShape at h
  split at h
  · cases h
    exact ⟨rfl, rfl⟩
  · cases h

theorem count_cell_of_ofShape {width depth : Nat} {s : Sketch w}
    (h : ofShape width depth = .ok s) (hash : UInt64) (row : Fin s.depth) :
    (s.cell hash row).count = 0 := by
  unfold ofShape at h
  split at h
  · cases h
    simp [cell]
  · cases h

/-- A key's estimate is at least the number of its records, as far as the cells can count. -/
theorem min_count_le_estimate {width depth : Nat} {s : Sketch w} (h : ofShape width depth = .ok s)
    (hashes : List UInt64) (hash : UInt64) :
    min w.max (hashes.count hash) ≤ (s.recordAll hashes).estimate hash := by
  obtain ⟨row, least⟩ := ((s.recordAll hashes).estimate_spec hash).1
  have counted := s.count_cell_recordAll hashes hash (row.cast (s.depth_recordAll hashes))
  have empty := count_cell_of_ofShape h hash (row.cast (s.depth_recordAll hashes))
  have own : hashes.count hash ≤
      hashes.countP (column s.width row · = column s.width row hash) :=
    List.countP_mono_left fun other _ same => by
      rw [eq_of_beq same]
      exact decide_eq_true rfl
  rw [least]
  change ((s.recordAll hashes).cell hash row).count = min (_ + hashes.countP
    (column s.width row · = column s.width row hash)) w.max at counted
  omega

/-- A key's estimate is at most the number of all records, as far as the cells can count. -/
theorem estimate_le_min_length {width depth : Nat} {s : Sketch w}
    (h : ofShape width depth = .ok s) (hashes : List UInt64) (hash : UInt64) :
    (s.recordAll hashes).estimate hash ≤ min w.max hashes.length := by
  let row : Fin s.depth := ⟨0, s.depth_pos⟩
  have least := ((s.recordAll hashes).estimate_spec hash).2
    (row.cast (s.depth_recordAll hashes).symm)
  have counted := s.count_cell_recordAll hashes hash row
  have empty := count_cell_of_ofShape h hash row
  have all : hashes.countP (column s.width row · = column s.width row hash) ≤ hashes.length :=
    List.countP_le_length
  omega

def small : Sketch .bits8 := ⟨2, 2, .replicate 4 .zero, by decide, by decide, by decide, rfl⟩

end AccessHistory.Sketch
