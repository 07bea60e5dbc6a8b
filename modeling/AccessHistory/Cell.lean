/-!
Counter cells: counts that stop at the largest number their width holds.
-/

set_option autoImplicit false
set_option relaxedAutoImplicit false

namespace AccessHistory

inductive CellWidth where
  | bits8
  | bits16
  | bits32
  deriving DecidableEq, Inhabited

namespace CellWidth

def bytes : CellWidth → Nat
  | bits8 => 1
  | bits16 => 2
  | bits32 => 4

def max : CellWidth → Nat
  | bits8 => 255
  | bits16 => 65535
  | bits32 => 4294967295

theorem max_pos (w : CellWidth) : 0 < w.max := by
  cases w <;> decide

end CellWidth

/-- A count of at most `w.max`. -/
@[ext]
structure Cell (w : CellWidth) where
  count : Nat
  count_le : count ≤ w.max
  deriving DecidableEq

namespace Cell

variable {w : CellWidth}

def zero : Cell w := ⟨0, Nat.zero_le _⟩

instance : Inhabited (Cell w) := ⟨zero⟩

/-- The cell that holds a count, or its width's largest one. -/
def ofNat (n : Nat) : Cell w := ⟨min n w.max, Nat.min_le_right _ _⟩

/-- Counts one more, unless the cell is full. -/
def succ (c : Cell w) : Cell w :=
  if h : c.count < w.max then ⟨c.count + 1, h⟩ else c

@[simp]
theorem count_zero : (zero : Cell w).count = 0 := rfl

@[simp]
theorem count_succ (c : Cell w) : c.succ.count = min (c.count + 1) w.max := by
  have := c.count_le
  unfold succ
  split
  · change c.count + 1 = _
    omega
  · omega

end Cell

end AccessHistory
