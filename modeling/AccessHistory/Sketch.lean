import AccessHistory.Cell
import AccessHistory.Failure
import AccessHistory.Hash.Scramble
import AccessHistory.Memory

/-!
The count-min sketch: a table of cells in rows, in each of which a key owns one column. A record
adds one to the key's cell in every row, and the smallest of these cells estimates how often the
key was recorded. Keys that share a column can only make the estimate too large.
-/

set_option autoImplicit false
set_option relaxedAutoImplicit false

namespace AccessHistory

open Hash (scramble rowSalt)
open Number (maxWord)

/-- A table of `depth` rows of `width` cells, row after row. -/
structure Sketch (w : CellWidth) where
  width : Nat
  depth : Nat
  table : Array (Cell w)
  width_pos : 0 < width
  depth_pos : 0 < depth
  cells_le : width * depth ≤ maxWord
  size_table : table.size = width * depth

namespace Sketch

variable {w : CellWidth}

/-! ### Columns -/

def rowWord (row : Nat) (hash : UInt64) : UInt64 :=
  scramble (hash + row.toUInt64 * rowSalt)

def column (width row : Nat) (hash : UInt64) : Nat :=
  (rowWord row hash).toNat % width

/-- The place in the table of a key's cell in a row. -/
def place (width row : Nat) (hash : UInt64) : Nat :=
  row * width + column width row hash

theorem column_lt {width : Nat} (h : 0 < width) (row : Nat) (hash : UInt64) :
    column width row hash < width :=
  Nat.mod_lt _ h

theorem place_lt {width depth row : Nat} (hw : 0 < width) (hr : row < depth) (hash : UInt64) :
    place width row hash < width * depth := by
  have hc := column_lt hw row hash
  calc row * width + column width row hash < row * width + width := by omega
    _ = (row + 1) * width := by rw [Nat.succ_mul]
    _ ≤ depth * width := Nat.mul_le_mul_right width hr
    _ = width * depth := Nat.mul_comm depth width

/-- Different rows share no cell, and in one row a key has the cell of its column. -/
theorem place_eq_iff {width row row' c : Nat} (hc : c < width) {hash : UInt64} :
    place width row hash = row' * width + c ↔ row = row' ∧ column width row hash = c := by
  have hw : 0 < width := by omega
  have hk := column_lt hw row hash
  constructor
  · intro he
    have hr : row = row' := by
      rw [place, Nat.mul_comm row, Nat.mul_comm row'] at he
      simpa only [Nat.mul_add_div hw, Nat.div_eq_of_lt hc, Nat.div_eq_of_lt hk, Nat.add_zero] using
        congrArg (· / width) he
    subst hr
    exact ⟨rfl, Nat.add_left_cancel he⟩
  · rintro ⟨rfl, rfl⟩
    rfl

/-! ### Building -/

/-- A sketch of zeros, in a memory without bounds. Its cells must be countable by a word. -/
def ofShape (width depth : Nat) : Except BuildError (Sketch w) :=
  if h : 0 < width * depth ∧ width * depth ≤ maxWord then
    .ok {
      width, depth
      table := Array.replicate (width * depth) .zero
      width_pos := Nat.pos_of_mul_pos_right h.1
      depth_pos := Nat.pos_of_mul_pos_left h.1
      cells_le := h.2
      size_table := Array.size_replicate }
  else .error (.sketchShape width depth)

/-- A sketch of zeros in memory. Only its cells are counted before room is taken up for them, not
their bytes. -/
def allocate (width depth : UInt64) : Building (Sketch w) := do
  let cells := width.toNat * depth.toNat
  if 0 < cells ∧ cells ≤ maxWord then Memory.take (cells * w.bytes)
  ofShape width.toNat depth.toNat

def reset (s : Sketch w) : Sketch w :=
  { s with table := Array.replicate (s.width * s.depth) .zero, size_table := Array.size_replicate }

/-! ### Recording -/

def bumpRow (width : Nat) (hash : UInt64) (table : Array (Cell w)) (row : Nat) : Array (Cell w) :=
  table.modify (place width row hash) Cell.succ

/-- Adds one to a key's cell in each of the first `rows` rows. -/
def bump (width rows : Nat) (hash : UInt64) (table : Array (Cell w)) : Array (Cell w) :=
  (List.range rows).foldl (bumpRow width hash) table

@[simp]
theorem bump_zero (width : Nat) (hash : UInt64) (table : Array (Cell w)) :
    bump width 0 hash table = table := rfl

theorem bump_succ (width rows : Nat) (hash : UInt64) (table : Array (Cell w)) :
    bump width (rows + 1) hash table = bumpRow width hash (bump width rows hash table) rows := by
  unfold bump
  rw [List.range_succ, List.foldl_append, List.foldl_cons, List.foldl_nil]

@[simp]
theorem size_bump (width rows : Nat) (hash : UInt64) (table : Array (Cell w)) :
    (bump width rows hash table).size = table.size := by
  induction rows with
  | zero => rfl
  | succ rows ih => rw [bump_succ, bumpRow, Array.size_modify, ih]

theorem getElem?_bump {width c : Nat} (hc : c < width) (rows : Nat) (hash : UInt64)
    (table : Array (Cell w)) (row : Nat) :
    (bump width rows hash table)[row * width + c]? =
      if row < rows ∧ column width row hash = c then table[row * width + c]?.map Cell.succ
      else table[row * width + c]? := by
  induction rows with
  | zero => simp
  | succ rows ih =>
    simp only [bump_succ, bumpRow, Array.getElem?_modify, ih, place_eq_iff hc]
    by_cases hr : rows = row
    · subst hr
      simp
    · have : row < rows + 1 ↔ row < rows := by omega
      simp [hr, this]

def record (s : Sketch w) (hash : UInt64) : Sketch w :=
  { s with
    table := bump s.width s.depth hash s.table
    size_table := by rw [size_bump, s.size_table] }

/-! ### Reading -/

def cell (s : Sketch w) (hash : UInt64) (row : Fin s.depth) : Cell w :=
  have := place_lt s.width_pos row.isLt hash
  have := s.size_table
  s.table[place s.width row.val hash]

/-- The estimate of a key: the smallest count in its cells. -/
def estimate (s : Sketch w) (hash : UInt64) : Nat :=
  ((List.finRange s.depth).map fun row => (s.cell hash row).count).min?.getD 0

theorem getElem?_table (s : Sketch w) (hash : UInt64) (row : Fin s.depth) :
    s.table[place s.width row.val hash]? = some (s.cell hash row) := by
  have hp : place s.width row.val hash < s.table.size := by
    rw [s.size_table]
    exact place_lt s.width_pos row.isLt hash
  rw [cell, Array.getElem?_eq_getElem hp]

/-- A record counts in the cells of all keys that share the column, and in no others. -/
theorem cell_record (s : Sketch w) (hash hash' : UInt64) (row : Fin s.depth) :
    (s.record hash).cell hash' row =
      if column s.width row hash = column s.width row hash' then (s.cell hash' row).succ
      else s.cell hash' row := by
  have h := getElem?_table (s.record hash) hash' row
  have hb : (bump s.width s.depth hash s.table)[place s.width row.val hash']? =
      some ((s.record hash).cell hash' row) := h
  have before : s.table[row.val * s.width + column s.width row hash']? =
      some (s.cell hash' row) :=
    getElem?_table s hash' row
  rw [place, getElem?_bump (column_lt s.width_pos row hash'), before] at hb
  simp only [row.isLt, true_and] at hb
  split at hb
  · next hc => rw [if_pos hc, ← Option.some.inj hb]
  · next hc => rw [if_neg hc, ← Option.some.inj hb]

def byteSize (s : Sketch w) : Nat := s.table.size * w.bytes

def outline (s : Sketch w) : Text.Outline :=
  .record "CountMinSketch" [
    ("table", .list (s.table.toList.map fun c => .ofNat c.count)),
    ("width", .ofNat s.width),
    ("depth", .ofNat s.depth)]

end Sketch

end AccessHistory
