import AccessHistory.Failure
import AccessHistory.Number.Word

/-!
Memory for the tables of counters. A table is one array, and there must be room for it before it is
made. No array takes up more than half of all addresses, however much is free.
-/

set_option autoImplicit false
set_option relaxedAutoImplicit false

namespace AccessHistory

open Number (maxWord)

/-- The bytes that are free, each of which has an address. -/
structure Memory where
  free : Nat
  free_le : free ≤ maxWord

/-- A construction in memory. It may be refused, or stop for want of memory; what it does not finish
takes up nothing. -/
abbrev Building := StateT Memory (ExceptT BuildError (Except Fault))

/-- Builds in a memory: what was built, and the memory that is left. -/
def Building.runIn {α : Type} (x : Building α) (m : Memory) :
    Except Fault (Except BuildError (α × Memory)) :=
  (x.run m).run

namespace Memory

/-- A byte at every address. -/
def whole : Memory := ⟨maxWord, Nat.le_refl maxWord⟩

instance : Inhabited Memory := ⟨whole⟩

/-- The most bytes of an array. -/
def maxArrayBytes : Nat := 9223372036854775807

def less (m : Memory) (bytes : Nat) : Memory :=
  ⟨m.free - bytes, Nat.le_trans (Nat.sub_le m.free bytes) m.free_le⟩

/-- Takes up the room of an array. -/
def take (bytes : Nat) : Building Unit := do
  let m ← get
  if maxArrayBytes < bytes then throwThe Fault .capacity
  else if m.free < bytes then throwThe Fault (.memory bytes)
  else set (m.less bytes)

/-- Takes up the room of `n` arrays of one size. -/
def takeEach (bytes : Nat) : Nat → Building Unit
  | 0 => pure ()
  | n + 1 => do
    take bytes
    takeEach bytes n

end Memory

end AccessHistory
