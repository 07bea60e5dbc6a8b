import AccessHistory.Proofs.RowWords
import AccessHistory.Proofs.SketchHistories
import Mathlib.Algebra.BigOperators.Fin
import Mathlib.Algebra.Order.BigOperators.Group.Finset
import Mathlib.Algebra.Order.BigOperators.Group.List
import Mathlib.Algebra.Order.Ring.Nat
import Mathlib.Data.FinEnum
import Mathlib.Data.Int.CardIntervalMod

/-!
How many of all the hashes can have a large estimate. In every row the columns share the hashes
evenly, because no two hashes scramble to the same word, and the cells of a row hold no more than
was recorded. So few hashes fall into cells that hold much.
-/

set_option autoImplicit false
set_option relaxedAutoImplicit false

namespace AccessHistory.Sketch

variable {w : CellWidth}

/-! ### Columns -/

/-- The hashes, out of all words, that have a column in a row. -/
def owners (width row c : Nat) : Finset UInt64 := {hash | column width row hash = c}

/-- What a column's even share of all the words comes to, rounded up. -/
def evenShare (width : Nat) : Nat := (2 ^ 64 + width - 1) / width

private theorem count_modEq_le {width : Nat} (hw : 0 < width) (n c : Nat) :
    n.count (· ≡ c [MOD width]) ≤ (n + width - 1) / width := by
  have whole := Nat.div_add_mod' n width
  rw [Nat.count_modEq_card n hw, Nat.le_div_iff_mul_le hw, Nat.add_mul]
  split <;> omega

theorem card_owners_le {width : Nat} (hw : 0 < width) (row c : Nat) :
    (owners width row c).card ≤ evenShare width := by
  let words := {n ∈ Finset.range (2 ^ 64) | n ≡ c [MOD width]}
  have inside : ∀ hash ∈ owners width row c, (rowWord row hash).toNat ∈ words := by
    intro hash owner
    have owner : (rowWord row hash).toNat % width = c := (Finset.mem_filter.mp owner).2
    refine Finset.mem_filter.mpr ⟨Finset.mem_range.mpr (UInt64.toNat_lt _), ?_⟩
    rw [← owner]
    exact (Nat.mod_modEq _ _).symm
  have apart : Set.InjOn (fun hash => (rowWord row hash).toNat) (owners width row c) := by
    intro hash _ hash' _ same
    exact rowWord_injective row (UInt64.toNat_inj.mp same)
  calc (owners width row c).card
      ≤ words.card := Finset.card_le_card_of_injOn _ inside apart
    _ = (2 ^ 64).count (· ≡ c [MOD width]) := (Nat.count_eq_card_filter_range _ _).symm
    _ ≤ evenShare width := count_modEq_le hw _ c

/-! ### Rows -/

/-- The cells of a row, column after column. -/
def rowCells (s : Sketch w) (row : Nat) : List (Cell w) :=
  (s.table.extract (row * s.width) ((row + 1) * s.width)).toList

def rowTotal (s : Sketch w) (row : Nat) : Nat := ((s.rowCells row).map Cell.count).sum

variable {row : Nat}

theorem length_rowCells (s : Sketch w) (hr : row < s.depth) :
    (s.rowCells row).length = s.width := by
  have last : (row + 1) * s.width ≤ s.table.size := by
    rw [s.size_table, Nat.mul_comm s.width]
    exact Nat.mul_le_mul_right s.width hr
  rw [rowCells, Array.length_toList, Array.size_extract, Nat.min_eq_left last, Nat.succ_mul]
  omega

theorem getElem?_rowCells (s : Sketch w) {c : Nat} (hc : c < s.width) :
    (s.rowCells row)[c]? = s.table[row * s.width + c]? := by
  have inside : c < (row + 1) * s.width - row * s.width := by
    rw [Nat.succ_mul]
    omega
  simp only [rowCells, Array.getElem?_toList, Array.getElem?_extract]
  split
  · rfl
  · symm
    rw [Array.getElem?_eq_none_iff]
    omega

theorem rowCells_record (s : Sketch w) (hr : row < s.depth) (hash : UInt64) :
    (s.record hash).rowCells row =
      (s.rowCells row).modify (column s.width row hash) Cell.succ := by
  apply List.ext_getElem?
  intro c
  rw [List.getElem?_modify, Option.map_eq_map]
  by_cases hc : c < s.width
  · rw [getElem?_rowCells (s.record hash) hc, getElem?_rowCells s hc]
    refine (getElem?_bump hc s.depth hash s.table row).trans ?_
    by_cases own : column s.width row hash = c
    · simp only [hr, own, true_and, if_true]
    · simp only [own, and_false, if_false, Option.map_id_fun', id]
  · have beyond : (s.rowCells row).length ≤ c := by
      rw [length_rowCells s hr]
      omega
    have beyond' : ((s.record hash).rowCells row).length ≤ c := by
      rw [length_rowCells (s.record hash) hr]
      exact Nat.le_of_not_lt hc
    rw [List.getElem?_eq_none beyond, List.getElem?_eq_none beyond']
    rfl

theorem getElem?_rowCells_column (s : Sketch w) (row : Fin s.depth) (hash : UInt64) :
    (s.rowCells row)[column s.width row hash]? = some (s.cell hash row) :=
  (getElem?_rowCells s (column_lt s.width_pos row hash)).trans (getElem?_table s hash row)

/-- A record adds to a row what it adds to the key's cell: one, unless the cell is full. -/
theorem rowTotal_record (s : Sketch w) (hr : row < s.depth) (hash : UInt64) :
    (s.record hash).rowTotal row ≤ s.rowTotal row + 1 ∧
      (s.rowTotal row < w.max → (s.record hash).rowTotal row = s.rowTotal row + 1) := by
  have own := s.getElem?_rowCells_column ⟨row, hr⟩ hash
  have held : (s.cell hash ⟨row, hr⟩).count ≤ s.rowTotal row :=
    List.le_sum_of_mem (List.mem_map_of_mem (List.mem_of_getElem? own))
  have moved := sum_map_modify (s.rowCells row) Cell.count Cell.succ (column s.width row hash)
  rw [← rowCells_record s hr, own] at moved
  simp only [Option.map_some, Option.getD_some, Function.comp_apply, Cell.count_succ] at moved
  change (s.record hash).rowTotal row + _ = s.rowTotal row + _ at moved
  constructor
  · omega
  · intro room
    omega

/-- A row holds at most what was recorded, and all of it as long as it fits into one cell. -/
theorem rowTotal_recordAll (s : Sketch w) (hr : row < s.depth) (hashes : List UInt64) :
    (s.recordAll hashes).rowTotal row ≤ s.rowTotal row + hashes.length ∧
      (s.rowTotal row + hashes.length ≤ w.max →
        (s.recordAll hashes).rowTotal row = s.rowTotal row + hashes.length) := by
  induction hashes generalizing s with
  | nil => exact ⟨Nat.le_refl _, fun _ => rfl⟩
  | cons hash hashes ih =>
    obtain ⟨first, first_counts⟩ := s.rowTotal_record hr hash
    obtain ⟨rest, rest_counts⟩ := ih (s.record hash) hr
    change (s.recordAll (hash :: hashes)).rowTotal row ≤ _ at rest
    change _ → (s.recordAll (hash :: hashes)).rowTotal row = _ at rest_counts
    rw [List.length_cons]
    constructor
    · omega
    · intro fits
      omega

theorem rowTotal_of_ofShape {width depth : Nat} {s : Sketch w} (h : ofShape width depth = .ok s)
    (row : Nat) : s.rowTotal row = 0 := by
  rw [← reset_of_ofShape h]
  simp [rowTotal, rowCells, reset]

/-! ### Hashes -/

private theorem sum_map_eq {α : Type} (l : List α) (f : α → Nat) :
    (l.map f).sum = ∑ c ∈ Finset.range l.length, (l[c]?.map f).getD 0 := by
  rw [Finset.sum_range, ← Fin.sum_univ_fun_getElem]
  apply Finset.sum_congr rfl
  intro c _
  rw [List.getElem?_eq_getElem c.isLt]
  rfl

/-- The cells of all the hashes hold each count of the row as often as its column is owned. -/
theorem sum_count_cell_le (s : Sketch w) (row : Fin s.depth) :
    ∑ hash, (s.cell hash row).count ≤ s.rowTotal row * evenShare s.width := by
  let held (c : Nat) : Nat := ((s.rowCells row)[c]?.map Cell.count).getD 0
  have shown (hash : UInt64) : (s.cell hash row).count = held (column s.width row hash) := by
    simp only [held, getElem?_rowCells_column, Option.map_some, Option.getD_some]
  have columns : ∀ hash ∈ Finset.univ, column s.width row hash ∈ Finset.range s.width :=
    fun hash _ => Finset.mem_range.mpr (column_lt s.width_pos row hash)
  calc ∑ hash, (s.cell hash row).count
      = ∑ hash, held (column s.width row hash) := Finset.sum_congr rfl fun hash _ => shown hash
    _ = ∑ c ∈ Finset.range s.width, (owners s.width row c).card * held c := by
        rw [← Finset.sum_fiberwise_of_maps_to' columns held]
        simp only [Finset.sum_const, smul_eq_mul]
        rfl
    _ ≤ ∑ c ∈ Finset.range s.width, evenShare s.width * held c :=
        Finset.sum_le_sum fun c _ => Nat.mul_le_mul_right _ (card_owners_le s.width_pos row c)
    _ = s.rowTotal row * evenShare s.width := by
        rw [← Finset.mul_sum, rowTotal, sum_map_eq, length_rowCells s row.isLt, Nat.mul_comm]

/-- The hashes whose cell in a row counts at least `threshold`. -/
def reaching (s : Sketch w) (row : Fin s.depth) (threshold : Nat) : Finset UInt64 :=
  {hash | threshold ≤ (s.cell hash row).count}

theorem mul_card_reaching_le (s : Sketch w) (row : Fin s.depth) (threshold : Nat) :
    threshold * (s.reaching row threshold).card ≤ s.rowTotal row * evenShare s.width := by
  have each : ∀ hash ∈ s.reaching row threshold, threshold ≤ (s.cell hash row).count :=
    fun hash member => (Finset.mem_filter.mp member).2
  calc threshold * (s.reaching row threshold).card
      ≤ ∑ hash ∈ s.reaching row threshold, (s.cell hash row).count := by
        rw [Nat.mul_comm]
        exact Finset.card_nsmul_le_sum _ _ _ each
    _ ≤ ∑ hash, (s.cell hash row).count :=
        Finset.sum_le_sum_of_subset (Finset.subset_univ _)
    _ ≤ s.rowTotal row * evenShare s.width := s.sum_count_cell_le row

/-! ### Histories -/

/-- After any history of a fresh sketch, few of all the hashes have much in their cell of a row.
Each column belongs to an even share of the hashes at most, and the row holds one for each record
since the last reset, or less once a cell is full. That bounds how many hashes there are whose cell,
and with it how many whose estimate, comes to a threshold. -/
theorem reaching_of_history {width depth : Nat} {s : Sketch w} (h : ofShape width depth = .ok s)
    (changes : List Change) (row : Fin (s.changeAll changes).depth) (threshold : Nat) :
    (∀ c, (owners width row c).card ≤ evenShare width) ∧
    (s.changeAll changes).rowTotal row ≤ (sinceReset changes).length ∧
    ((sinceReset changes).length ≤ w.max →
      (s.changeAll changes).rowTotal row = (sinceReset changes).length) ∧
    threshold * ((s.changeAll changes).reaching row threshold).card ≤
      (sinceReset changes).length * evenShare width ∧
    threshold * ({hash | threshold ≤ (s.changeAll changes).estimate hash} : Finset UInt64).card ≤
      (sinceReset changes).length * evenShare width := by
  revert row
  rw [changeAll_eq h]
  intro row
  obtain ⟨rfl, rfl⟩ := shape_of_ofShape h
  have inside : row.val < s.depth := by
    rw [← s.depth_recordAll (sinceReset changes)]
    exact row.isLt
  obtain ⟨most, all⟩ := s.rowTotal_recordAll inside (sinceReset changes)
  rw [rowTotal_of_ofShape h, Nat.zero_add] at most all
  have few := (s.recordAll (sinceReset changes)).mul_card_reaching_le row threshold
  rw [width_recordAll] at few
  have few := Nat.le_trans few (Nat.mul_le_mul_right (evenShare s.width) most)
  refine ⟨card_owners_le s.width_pos row, most, all, few, ?_⟩
  refine Nat.le_trans (Nat.mul_le_mul_left threshold (Finset.card_le_card ?_)) few
  intro hash member
  have estimated := (Finset.mem_filter.mp member).2
  have least := ((s.recordAll (sinceReset changes)).estimate_spec hash).2 row
  exact Finset.mem_filter.mpr ⟨Finset.mem_univ _, Nat.le_trans estimated least⟩

/-- Two columns share all the words, so three records bring no more than three quarters of them to
an estimate of two. -/
theorem reaching_of_history_small :
    ofShape 2 2 = .ok small ∧
    (small.changeAll [.record 9, .reset, .record 7, .record 1, .record 7]).rowTotal 1 = 3 ∧
    2 * ({hash | 2 ≤ (small.changeAll
        [.record 9, .reset, .record 7, .record 1, .record 7]).estimate hash} : Finset UInt64).card ≤
      3 * 2 ^ 63 := by
  have built : ofShape 2 2 = .ok small := rfl
  obtain ⟨-, -, all, -, few⟩ := reaching_of_history built
    [.record 9, .reset, .record 7, .record 1, .record 7] ⟨1, by decide⟩ 2
  exact ⟨built, all (by decide), few⟩

end AccessHistory.Sketch
