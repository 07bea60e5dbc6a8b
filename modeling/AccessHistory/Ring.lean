import AccessHistory.Bucket
import AccessHistory.Outcome

/-!
The ring of buckets. Time is cut into slices of a fixed number of ticks, and slice `s` belongs to
bucket `s` modulo the size. Each request first checks the time: unless the slice's bucket is the
most recent one or the one before it, the ring rotates, which empties that bucket and makes it the
most recent.
-/

set_option autoImplicit false
set_option relaxedAutoImplicit false

namespace AccessHistory

/-- Buckets in a ring, the most recent of them, and how time is cut. -/
structure Ring (w : CellWidth) where
  buckets : Array (Bucket w)
  mostRecent : Nat
  ticksPerBucket : UInt64
  source : TickSource
  mostRecent_valid : mostRecent = 0 ∨ mostRecent < buckets.size
  ticksPerBucket_ne_zero : ticksPerBucket ≠ 0

namespace Ring

variable {w : CellWidth}

/-! ### Building -/

/-- The ring without buckets, which records nothing. -/
def empty : Ring w where
  buckets := #[]
  mostRecent := 0
  ticksPerBucket := 1
  source := .clock
  mostRecent_valid := .inl rfl
  ticksPerBucket_ne_zero := by decide

instance : Inhabited (Ring w) := ⟨empty⟩

/-- A ring over counters, with nothing recorded and the first bucket the most recent. -/
def ofCounters (counters : Array (Counter w)) (ticksPerBucket : UInt64) (source : TickSource) :
    Except BuildError (Ring w) :=
  if counters.isEmpty then .error (.bucketCount 0)
  else if h : ticksPerBucket = 0 then .error (.tickSpan 0)
  else
    .ok {
      buckets := counters.map Bucket.ofCounter
      mostRecent := 0
      ticksPerBucket, source
      mostRecent_valid := .inl rfl
      ticksPerBucket_ne_zero := h }

/-- A ring over counters of its own. -/
def allocate (backends : List Backend) (ticksPerBucket : UInt64) (source : TickSource) :
    Building (Ring w) := do
  let counters ← backends.mapM Counter.allocate
  ofCounters counters.toArray ticksPerBucket source

def size (r : Ring w) : Nat := r.buckets.size

def isEmpty (r : Ring w) : Bool := r.buckets.isEmpty

def byteSize (r : Ring w) : Nat := r.buckets.foldl (fun n b => n + b.byteSize) 0

/-! ### Time -/

def slice (r : Ring w) (tick : UInt64) : Nat := tick.toNat / r.ticksPerBucket.toNat

def target (r : Ring w) (tick : UInt64) : Nat := r.slice tick % r.size

/-- A bucket that needs no rotation: the most recent one, or the one just before it. -/
def IsCurrent (r : Ring w) (i : Nat) : Prop := i = r.mostRecent ∨ (i + 1) % r.size = r.mostRecent

instance (r : Ring w) (i : Nat) : Decidable (r.IsCurrent i) := inferInstanceAs (Decidable (_ ∨ _))

/-- Makes a bucket the most recent one and empties it. -/
def enter (r : Ring w) (i : Nat) (h : i < r.size) : Ring w :=
  { r with
    buckets := r.buckets.modify i Bucket.reset
    mostRecent := i
    mostRecent_valid := .inr (by rw [Array.size_modify]; exact h) }

theorem target_lt (r : Ring w) (tick : UInt64) (h : 0 < r.size) : r.target tick < r.size :=
  Nat.mod_lt _ h

/-- Checks the time, and says which rotation that caused, if any. -/
def rotate (r : Ring w) (tick : UInt64) : Ring w × Option Rotation :=
  if h : 0 < r.size ∧ ¬ r.IsCurrent (r.target tick) then
    let rotation := { origin := r.mostRecent, target := r.target tick, tick }
    (r.enter (r.target tick) (r.target_lt tick h.1), some rotation)
  else (r, none)

@[simp]
theorem size_enter (r : Ring w) (i : Nat) (h : i < r.size) : (r.enter i h).size = r.size :=
  Array.size_modify

theorem rotate_of_isCurrent (r : Ring w) (tick : UInt64) (h : r.IsCurrent (r.target tick)) :
    r.rotate tick = (r, none) := by
  rw [rotate, dif_neg (fun hn => hn.2 h)]

theorem rotate_of_not_isCurrent (r : Ring w) (tick : UInt64) (hr : 0 < r.size)
    (h : ¬ r.IsCurrent (r.target tick)) :
    r.rotate tick = (r.enter (r.target tick) (r.target_lt tick hr),
      some ⟨r.mostRecent, r.target tick, tick⟩) := by
  rw [rotate, dif_pos ⟨hr, h⟩]

@[simp]
theorem size_rotate (r : Ring w) (tick : UInt64) : (r.rotate tick).1.size = r.size := by
  unfold rotate
  split <;> simp

/-! ### Reading and recording -/

/-- The place of the bucket that is `i` slices old. -/
def slot (r : Ring w) (i : Nat) : Nat := (r.mostRecent + r.size - i) % r.size

/-- Reads something off every bucket, the most recent one first. -/
def newestFirst {α : Type} (r : Ring w) (read : Bucket w → α) : List α :=
  (List.finRange r.size).map fun (i : Fin r.size) =>
    have : r.slot i.val < r.buckets.size := Nat.mod_lt _ i.pos
    read r.buckets[r.slot i.val]

def recordNewest (r : Ring w) (hash : UInt64) : Ring w :=
  { r with
    buckets := r.buckets.modify r.mostRecent (·.record hash)
    mostRecent_valid := by rw [Array.size_modify]; exact r.mostRecent_valid }

@[simp]
theorem size_recordNewest (r : Ring w) (hash : UInt64) : (r.recordNewest hash).size = r.size :=
  Array.size_modify

@[simp]
theorem length_newestFirst {α : Type} (r : Ring w) (read : Bucket w → α) :
    (r.newestFirst read).length = r.size := by
  simp [newestFirst]

/-! ### Requests -/

/-- What may be asked of a ring; each request first checks the time. -/
inductive Request where
  | update
  | record (hash : UInt64)
  | estimates (hash : UInt64)
  | itemCounts
  deriving DecidableEq, Inhabited

def respond (r : Ring w) : Request → Answer × Ring w
  | .update => (.index r.mostRecent, r)
  | .record hash => (.done, r.recordNewest hash)
  | .estimates hash => (.numbers (r.newestFirst (·.estimate hash)), r)
  | .itemCounts => (.numbers (r.newestFirst (·.itemCount)), r)

@[simp]
theorem size_respond (r : Ring w) (q : Request) : (r.respond q).2.size = r.size := by
  cases q <;> simp [respond]

def respondAt (r : Ring w) (tick : UInt64) (q : Request) : Answer × Ring w × Option Rotation :=
  let (r, rotation) := r.rotate tick
  let (answer, r) := r.respond q
  (answer, r, rotation)

/-- Answers a request in an environment: polls once and reports the rotation. A ring without buckets
does neither. -/
def serve (r : Ring w) (env : Environment) (q : Request) : Outcome (Ring w) :=
  if r.isEmpty then
    let (answer, r) := r.respond q
    ⟨answer, r, env⟩
  else
    let (tick, env) := env.poll r.source
    let (answer, r, rotation) := r.respondAt tick q
    ⟨answer, r, env.report (rotation.map .rotated)⟩

/-- The ring's shape and time; the ticker shows its state in the environment. -/
def outline (env : Environment) (r : Ring w) : Text.Outline :=
  .record "BucketRing" [
    ("num_buckets", .ofNat r.size),
    ("most_recent", .ofNat r.mostRecent),
    ("ticks_per_bucket", .ofNat r.ticksPerBucket.toNat),
    ("ticker", env.outlineTicker r.source)]

end Ring

end AccessHistory
