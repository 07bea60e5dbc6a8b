import AccessHistory.Counter

/-!
Buckets: a counter and the exact number of records it took.
-/

set_option autoImplicit false
set_option relaxedAutoImplicit false

namespace AccessHistory

/-- What was recorded in one slice of time. -/
structure Bucket (w : CellWidth) where
  counter : Counter w
  itemCount : Nat

namespace Bucket

variable {w : CellWidth}

/-- The bytes of a cache line; buckets that start on lines of their own do not slow each other
down. -/
def cacheLineBytes : Nat := 64

def ofCounter (c : Counter w) : Bucket w := ⟨c, 0⟩

def record (b : Bucket w) (hash : UInt64) : Bucket w :=
  { b with counter := b.counter.record hash, itemCount := b.itemCount + 1 }

def estimate (b : Bucket w) (hash : UInt64) : Nat := b.counter.estimate hash

def reset (b : Bucket w) : Bucket w := { b with counter := b.counter.reset, itemCount := 0 }

def byteSize (b : Bucket w) : Nat := b.counter.byteSize

end Bucket

end AccessHistory
