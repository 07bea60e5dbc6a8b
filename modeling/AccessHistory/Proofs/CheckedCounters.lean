import AccessHistory.Bucket
import AccessHistory.Proofs.AllocatedRings
import AccessHistory.Proofs.CheckedWords
import AccessHistory.Proofs.FilterHistories
import AccessHistory.Proofs.SketchHistories

/-!
Counters and buckets calculated with checked words and arrays. No check ever fails: the width of a
sketch and the size of a filter divide, all cells and words that are read exist, and places in a
table fit a word because the whole table does. Two things could grow too large. An item count could,
past the largest word. And the bytes of a table could, where more cells can be counted than can be
stored; they fit a word because the table is an array in memory.
-/

set_option autoImplicit false
set_option relaxedAutoImplicit false

namespace AccessHistory

open Number (maxWord)

variable {w : CellWidth}

/-! ### Sketches -/

namespace Sketch

def cells (s : Sketch w) : Vector (Cell w) (s.width * s.depth) := ⟨s.table, s.size_table⟩

def place? (width row : Nat) (hash : UInt64) : Except Trap Nat := do
  let column ← Checked.mod (rowWord row hash).toNat width
  let start ← Checked.mul row width
  Checked.add start column

def bumpRow? (width : Nat) (hash : UInt64) {n : Nat} (table : Vector (Cell w) n) (row : Nat) :
    Except Trap (Vector (Cell w) n) := do
  let i ← place? width row hash
  Checked.update table i fun c => .ok c.succ

def record? (s : Sketch w) (hash : UInt64) : Except Trap (Sketch w) := do
  let table ← (List.range s.depth).foldlM (bumpRow? s.width hash) s.cells
  .ok { s with table := table.toArray, size_table := table.size_toArray }

def count? (s : Sketch w) (hash : UInt64) (row : Fin s.depth) : Except Trap Nat := do
  let i ← place? s.width row.val hash
  let c ← Checked.read s.cells i
  .ok c.count

def estimate? (s : Sketch w) (hash : UInt64) : Except Trap Nat := do
  let counts ← (List.finRange s.depth).mapM (s.count? hash)
  .ok (counts.min?.getD 0)

def byteSize? (s : Sketch w) : Except Trap Nat := Checked.mul s.table.size w.bytes

theorem place?_eq (s : Sketch w) {row : Nat} (h : row < s.depth) (hash : UInt64) :
    place? s.width row hash = .ok (place s.width row hash) := by
  have inside := place_lt s.width_pos h hash
  have fits := s.cells_le
  unfold place at inside ⊢
  have column_fits : row * s.width + column s.width row hash ≤ maxWord := by omega
  have start_fits : row * s.width ≤ maxWord := by omega
  unfold place?
  rw [Checked.mod_eq _ s.width_pos, Checked.bind_ok, Checked.mul_eq start_fits, Checked.bind_ok]
  exact Checked.add_eq column_fits

theorem bumpRow?_eq (s : Sketch w) {row : Nat} (h : row < s.depth) (hash : UInt64)
    (table : Vector (Cell w) (s.width * s.depth)) :
    ∃ bumped, bumpRow? s.width hash table row = .ok bumped ∧
      bumped.toArray = bumpRow s.width hash table.toArray row := by
  unfold bumpRow? bumpRow
  rw [s.place?_eq h, Checked.bind_ok]
  exact Checked.update_eq table (place_lt s.width_pos h hash) (g := Cell.succ) rfl

theorem record?_eq (s : Sketch w) (hash : UInt64) : s.record? hash = .ok (s.record hash) := by
  have rows (n : Nat) (inside : n ≤ s.depth) :
      ∃ bumped, (List.range n).foldlM (bumpRow? s.width hash) s.cells = .ok bumped ∧
        bumped.toArray = bump s.width n hash s.table := by
    induction n with
    | zero =>
      rw [bump_zero]
      exact ⟨s.cells, rfl, rfl⟩
    | succ n ih =>
      obtain ⟨bumped, so_far, table⟩ := ih (Nat.le_of_succ_le inside)
      obtain ⟨bumped', next, table'⟩ := s.bumpRow?_eq inside hash bumped
      refine ⟨bumped', ?_, ?_⟩
      · rw [List.range_succ, List.foldlM_append, so_far, Checked.bind_ok, List.foldlM_cons, next]
        rfl
      · rw [table', table, bump_succ]
  obtain ⟨bumped, done, table⟩ := rows s.depth (Nat.le_refl s.depth)
  unfold record? record
  rw [done, Checked.bind_ok]
  simp only [table]

theorem count?_eq (s : Sketch w) (hash : UInt64) (row : Fin s.depth) :
    s.count? hash row = .ok (s.cell hash row).count := by
  have inside := place_lt s.width_pos row.isLt hash
  unfold count?
  rw [s.place?_eq row.isLt, Checked.bind_ok, Checked.read_eq _ inside, Checked.bind_ok]
  rfl

theorem estimate?_eq (s : Sketch w) (hash : UInt64) : s.estimate? hash = .ok (s.estimate hash) := by
  unfold estimate? estimate
  rw [Checked.mapM_eq fun row _ => s.count?_eq hash row, Checked.bind_ok]

/-- The bytes of a table that is an array fit a word. -/
theorem byteSize?_eq {s : Sketch w} (array : s.byteSize ≤ Memory.maxArrayBytes) :
    s.byteSize? = .ok s.byteSize :=
  Checked.mul_eq (Nat.le_trans array Memory.maxArrayBytes_le)

end Sketch

/-! ### Bit sets -/

namespace BitSet

def blocks (s : BitSet) : Vector UInt64 ((s.size + 63) / 64) := ⟨s.words, s.size_words⟩

/-- The word of a position and the bit in the word, once the position is below the size. -/
def locate? (s : BitSet) (i : Nat) : Except Trap (Nat × Nat) := do
  if s.size ≤ i then .error (.fault (.bitOutOfRange i s.size))
  else
    let word ← Checked.div i 64
    let bit ← Checked.mod i 64
    let bit ← Checked.shift bit
    .ok (word, bit)

def read? (s : BitSet) (i : Nat) : Except Trap Bool := do
  let (word, bit) ← s.locate? i
  let x ← Checked.read s.blocks word
  .ok (BitSet.bit x bit)

def write? (s : BitSet) (i : Nat) : Except Trap BitSet := do
  let (word, bit) ← s.locate? i
  let blocks ← Checked.update s.blocks word fun x => .ok (withBit bit x)
  .ok { s with words := blocks.toArray, size_words := blocks.size_toArray }

theorem locate?_eq (s : BitSet) {i : Nat} (h : i < s.size) :
    s.locate? i = .ok (i / 64, i % 64) := by
  unfold locate?
  rw [if_neg (Nat.not_le.mpr h), Checked.div_eq i (by decide), Checked.bind_ok,
    Checked.mod_eq i (by decide), Checked.bind_ok, Checked.shift_eq (Nat.mod_lt i (by decide)),
    Checked.bind_ok]

theorem read?_eq (s : BitSet) {i : Nat} (h : i < s.size) : s.read? i = .ok (s.contains i) := by
  have inside : i / 64 < (s.size + 63) / 64 := by omega
  unfold read?
  rw [s.locate?_eq h, Checked.bind_ok]
  simp only [Checked.read_eq s.blocks inside, Checked.bind_ok]
  rw [s.contains_eq_bit h (s.div_lt_size_words h)]
  rfl

theorem write?_eq (s : BitSet) {i : Nat} (h : i < s.size) : s.write? i = .ok (s.insert i) := by
  have inside : i / 64 < (s.size + 63) / 64 := by omega
  obtain ⟨blocks, written, words⟩ := Checked.update_eq s.blocks inside
    (f := fun x => .ok (withBit (i % 64) x)) (g := withBit (i % 64)) rfl
  unfold write? insert
  rw [s.locate?_eq h, Checked.bind_ok]
  simp only [written, Checked.bind_ok, words, if_pos h]
  rfl

end BitSet

/-! ### Filters -/

namespace Filter

def positions? (f : Filter) (hash : UInt64) : Except Trap (List Nat) :=
  (Hash.probes? hash (Hash.scramble hash) f.probeCount f.bits.size).mapError .fault

def record? (f : Filter) (hash : UInt64) : Except Trap Filter := do
  let positions ← f.positions? hash
  let bits ← positions.foldlM BitSet.write? f.bits
  .ok { f with bits }

def contains? (f : Filter) (hash : UInt64) : Except Trap Bool := do
  let positions ← f.positions? hash
  positions.allM f.bits.read?

def estimate? (f : Filter) (hash : UInt64) : Except Trap Nat := do
  let seen ← f.contains? hash
  .ok (if seen then 1 else 0)

def byteSize? (f : Filter) : Except Trap Nat := Checked.mul 8 f.bits.words.size

theorem positions?_eq (f : Filter) (hash : UInt64) :
    f.positions? hash = .ok (f.positions hash) := by
  have some_position := Nat.pos_iff_ne_zero.mp f.bits.size_pos
  have probed : Hash.probes? hash (Hash.scramble hash) f.probeCount f.bits.size =
      .ok (f.positions hash) := Checked.mapM_eq fun i _ => if_neg some_position
  unfold positions?
  rw [probed]
  rfl

theorem record?_eq (f : Filter) (hash : UInt64) : f.record? hash = .ok (f.record hash) := by
  have covered : (f.positions hash).foldlM BitSet.write? f.bits =
      .ok ((f.positions hash).foldl BitSet.insert f.bits) := by
    refine Checked.foldlM_eq (fun s positions => ∀ i ∈ positions, i < s.size) ?_
      fun i => lt_size_of_mem_positions
    intro s i positions inside
    refine ⟨s.write?_eq (inside i List.mem_cons_self), ?_⟩
    intro j later
    rw [BitSet.size_insert]
    exact inside j (List.mem_cons_of_mem i later)
  unfold record? record
  rw [f.positions?_eq, Checked.bind_ok, covered, Checked.bind_ok]

theorem contains?_eq (f : Filter) (hash : UInt64) : f.contains? hash = .ok (f.contains hash) := by
  unfold contains? contains
  rw [f.positions?_eq, Checked.bind_ok]
  exact Checked.allM_eq fun i covered => f.bits.read?_eq (lt_size_of_mem_positions covered)

theorem estimate?_eq (f : Filter) (hash : UInt64) : f.estimate? hash = .ok (f.estimate hash) := by
  unfold estimate? estimate
  rw [f.contains?_eq, Checked.bind_ok]

theorem byteSize?_eq {f : Filter} (word : f.bits.size ≤ maxWord) :
    f.byteSize? = .ok f.byteSize :=
  Checked.mul_eq (Nat.le_trans (byteSize_le word) Memory.maxArrayBytes_le)

end Filter

/-! ### Counters -/

namespace Counter

def record? (c : Counter w) (hash : UInt64) : Except Trap (Counter w) :=
  match c with
  | sketch s => do
    let s ← s.record? hash
    .ok (sketch s)
  | filter f => do
    let f ← f.record? hash
    .ok (filter f)

def estimate? (c : Counter w) (hash : UInt64) : Except Trap Nat :=
  match c with
  | sketch s => s.estimate? hash
  | filter f => f.estimate? hash

def byteSize? (c : Counter w) : Except Trap Nat :=
  match c with
  | sketch s => s.byteSize?
  | filter f => f.byteSize?

theorem record?_eq (c : Counter w) (hash : UInt64) : c.record? hash = .ok (c.record hash) := by
  cases c with
  | sketch s =>
    simp only [record?, s.record?_eq, Checked.bind_ok]
    rfl
  | filter f =>
    simp only [record?, f.record?_eq, Checked.bind_ok]
    rfl

theorem estimate?_eq (c : Counter w) (hash : UInt64) : c.estimate? hash = .ok (c.estimate hash) := by
  cases c with
  | sketch s => exact s.estimate?_eq hash
  | filter f => exact f.estimate?_eq hash

theorem byteSize?_eq {c : Counter w} (array : c.byteSize ≤ Memory.maxArrayBytes) :
    c.byteSize? = .ok c.byteSize := by
  cases c with
  | sketch s => exact Sketch.byteSize?_eq array
  | filter f => exact Checked.mul_eq (Nat.le_trans array Memory.maxArrayBytes_le)

end Counter

/-! ### Buckets -/

namespace Bucket

def record? (b : Bucket w) (hash : UInt64) : Except Trap (Bucket w) := do
  let counter ← b.counter.record? hash
  let itemCount ← Checked.add b.itemCount 1
  .ok ⟨counter, itemCount⟩

def estimate? (b : Bucket w) (hash : UInt64) : Except Trap Nat := b.counter.estimate? hash

def byteSize? (b : Bucket w) : Except Trap Nat := b.counter.byteSize?

theorem record?_eq {b : Bucket w} (h : b.itemCount < maxWord) (hash : UInt64) :
    b.record? hash = .ok (b.record hash) := by
  unfold record? record
  rw [b.counter.record?_eq, Checked.bind_ok, Checked.add_eq h, Checked.bind_ok]

/-- The bound is sharp: one record more than a word can count would stop. -/
theorem record?_of_full {b : Bucket w} (h : maxWord ≤ b.itemCount) (hash : UInt64) :
    b.record? hash = .error .overflow := by
  have full : Checked.add b.itemCount 1 = .error .overflow := if_neg (by omega)
  unfold record?
  rw [b.counter.record?_eq, Checked.bind_ok, full]
  rfl

theorem estimate?_eq (b : Bucket w) (hash : UInt64) : b.estimate? hash = .ok (b.estimate hash) :=
  b.counter.estimate?_eq hash

theorem byteSize?_eq {b : Bucket w} (array : b.byteSize ≤ Memory.maxArrayBytes) :
    b.byteSize? = .ok b.byteSize :=
  Counter.byteSize?_eq array

end Bucket

/-! ### Histories of counters -/

/-- No history adds to the bytes of a sketch. -/
theorem Sketch.byteSize_changeAll (s : Sketch w) (changes : List Change) :
    (changes.foldl change s).byteSize = s.byteSize := by
  refine foldl_keeps change byteSize ?_ s changes
  intro s step
  cases step with
  | record hash => exact congrArg (· * w.bytes) (size_bump s.width s.depth hash s.table)
  | reset =>
    change (Array.replicate (s.width * s.depth) Cell.zero).size * w.bytes = s.table.size * w.bytes
    rw [Array.size_replicate, s.size_table]

/-- The bytes of a sketch in memory can be counted, whatever it has recorded. -/
theorem Sketch.byteSize?_changeAll {b : Backend} {s : Sketch w}
    (h : (Counter.allocate b).Yields (.sketch s)) (changes : List Change) :
    (changes.foldl change s).byteSize? = .ok (changes.foldl change s).byteSize := by
  apply byteSize?_eq
  rw [s.byteSize_changeAll]
  exact (Counter.yields_iff.mp h).2

/-- The bytes of a counter in memory can be counted, whatever it has recorded. -/
theorem Counter.byteSize?_changeAll {b : Backend} {c : Counter w} (h : (allocate b).Yields c)
    (changes : List Change) :
    (changes.foldl change c).byteSize? = .ok (changes.foldl change c).byteSize := by
  apply byteSize?_eq
  rw [byteSize_eq, c.dimensions_changeAll, ← byteSize_eq]
  exact (yields_iff.mp h).2

def BitSet.card? (s : BitSet) : Except Trap Nat :=
  Checked.total (fun x => .ok (ones x)) s.words.toList

theorem BitSet.card?_eq {s : BitSet} (fits : s.card ≤ maxWord) : s.card? = .ok s.card := by
  rw [card, ← Array.foldl_toList] at fits
  rw [card?, card, ← Array.foldl_toList]
  exact Checked.total_eq (fun x _ => rfl) fits

namespace Filter

theorem size_bits_changeAll (f : Filter) (changes : List Change) :
    (changes.foldl change f).bits.size = f.bits.size := by
  refine foldl_keeps change (·.bits.size) ?_ f changes
  intro f step
  cases step with
  | record hash => exact f.size_bits_record hash
  | reset => rfl

/-- No history sets a bit past the size of a filter, so that the bits that are set can be counted. -/
theorem card?_eq {size probeCount : Nat} {f : Filter} (h : ofShape size probeCount = .ok f)
    (word : f.bits.size ≤ maxWord) (changes : List Change) :
    (changes.foldl change f).bits.card? = .ok (changes.foldl change f).bits.card := by
  have few := (padded_of_recorded h (sinceReset changes)).card_le
  rw [size_bits_recordAll, ← changeAll_eq h changes] at few
  exact BitSet.card?_eq (Nat.le_trans few word)

end Filter

namespace Bucket

def change (b : Bucket w) : Change → Bucket w := Change.apply record reset b

def change? (b : Bucket w) : Change → Except Trap (Bucket w)
  | .record hash => b.record? hash
  | .reset => .ok b.reset

theorem changeAll?_eq (b : Bucket w) (changes : List Change)
    (room : b.itemCount + changes.countP Change.isRecord ≤ maxWord) :
    changes.foldlM change? b = .ok (changes.foldl change b) := by
  refine Checked.foldlM_eq
    (fun b changes => b.itemCount + changes.countP Change.isRecord ≤ maxWord) ?_ room
  intro b c changes kept
  rw [List.countP_cons] at kept
  cases c with
  | record hash =>
    simp only [Change.isRecord, if_true] at kept
    refine ⟨b.record?_eq (by omega) hash, ?_⟩
    change b.itemCount + 1 + changes.countP Change.isRecord ≤ maxWord
    omega
  | reset =>
    refine ⟨rfl, ?_⟩
    change 0 + changes.countP Change.isRecord ≤ maxWord
    omega

theorem dimensions_changeAll (b : Bucket w) (changes : List Change) :
    (changes.foldl change b).dimensions = b.dimensions := by
  refine foldl_keeps change dimensions ?_ b changes
  intro b step
  cases step with
  | record hash => exact b.dimensions_record hash
  | reset => exact b.dimensions_reset

/-- The bytes of a bucket over a counter in memory can be counted, whatever was recorded in the
counter or in the bucket. -/
theorem byteSize?_changeAll {backend : Backend} {c : Counter w}
    (h : (Counter.allocate backend).Yields c) (used changes : List Change) :
    let b := changes.foldl change (.ofCounter (used.foldl Counter.change c))
    b.byteSize? = .ok b.byteSize := by
  apply byteSize?_eq
  rw [byteSize_eq, dimensions_changeAll]
  change (used.foldl Counter.change c).dimensions.byteSize w ≤ _
  rw [c.dimensions_changeAll, ← c.byteSize_eq]
  exact (Counter.yields_iff.mp h).2

end Bucket

end AccessHistory
