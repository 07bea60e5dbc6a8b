import AccessHistory.CounterKind

/-!
The events that trackers report while they are built and while they run.
-/

set_option autoImplicit false
set_option relaxedAutoImplicit false

namespace AccessHistory

/-- The ring's most recent bucket moved from one place to another at a tick. -/
structure Rotation where
  origin : Nat
  target : Nat
  tick : UInt64
  deriving DecidableEq, Inhabited

inductive Event where
  | rotated (rotation : Rotation)
  | neverRotates (bucketCount : Nat)
  | built (bucketCount : Nat) (ticksPerBucket : UInt64) (kind : CounterKind)
      (cellBytes byteSize : Nat)
  deriving DecidableEq, Inhabited

inductive Severity where
  | warning
  | detail
  deriving DecidableEq, Inhabited

namespace Event

def severity : Event → Severity
  | neverRotates _ => .warning
  | rotated _ => .detail
  | built .. => .detail

def message : Event → String
  | rotated _ => "rotated access bucket"
  | neverRotates _ => "access tracker with two or fewer buckets never rotates"
  | built .. => "built access tracker"

end Event

end AccessHistory
