import AccessHistory.Config.Setting
import AccessHistory.Hash.KeyHasher
import AccessHistory.Ring

/-!
The tracker: a ring of counters sized by a config, addressed by keys.
-/

set_option autoImplicit false
set_option relaxedAutoImplicit false

namespace AccessHistory

open Hash (KeyHasher)

/-- A ring, the config it was built from, and the hasher for its keys. -/
structure Tracker (w : CellWidth) where
  config : Config
  hasher : KeyHasher
  ring : Ring w

namespace Tracker

variable {w : CellWidth}

/-! ### Building -/

def empty : Tracker w := ⟨{}, {}, .empty⟩

instance : Inhabited (Tracker w) := ⟨empty⟩

/-- The events of a construction: a warning where the ring is too small to rotate, then what was
built. -/
def buildEvents (c : Config) (ring : Ring w) : List Event :=
  let buckets := c.bucketCount.toNat
  let built := Event.built buckets c.ticksPerBucket c.kind w.bytes ring.byteSize
  if buckets ≤ 2 then [.neverRotates buckets, built] else [built]

/-- The tracker that a config describes, and the events of its construction. All buckets start from
one and the same empty counter. -/
def ofConfig (c : Config) : Except BuildError (Tracker w × List Event) := do
  c.validate
  let counter ← Counter.ofConfig c
  let counters := Array.replicate c.bucketCount.toNat counter
  let ring ← Ring.ofCounters counters c.ticksPerBucket c.source
  .ok (⟨c, {}, ring⟩, buildEvents c ring)

/-- The tracker that a config describes, in memory. The buckets share one empty counter for as long as
none is recorded in, but each of them has room for its own. -/
def allocate (c : Config) : Building (Tracker w × List Event) := do
  c.validate
  let counter ← Counter.allocate (.config c)
  Memory.takeEach counter.byteSize (c.bucketCount.toNat - 1)
  let counters := Array.replicate c.bucketCount.toNat counter
  let ring ← Ring.ofCounters counters c.ticksPerBucket c.source
  return (⟨c, {}, ring⟩, buildEvents c ring)

def ofSettings (settings : List Setting) : Except BuildError (Tracker w × List Event) :=
  ofConfig (Config.ofSettings settings)

/-! ### Requests -/

inductive Request where
  | record (key : ByteArray)
  | estimates (key : ByteArray)
  /-- The accesses of a key in each bucket, this one not yet counted. -/
  | recordAndEstimate (key : ByteArray)
  | itemCounts
  deriving Inhabited

def forward (t : Tracker w) (env : Environment) (q : Ring.Request) : Outcome (Tracker w) :=
  let o := t.ring.serve env q
  ⟨o.answer, { t with ring := o.state }, o.env⟩

/-- Answers a request. Recording and estimating in one checks the time twice. -/
def serve (t : Tracker w) (env : Environment) : Request → Outcome (Tracker w)
  | .record key => t.forward env (.record (t.hasher.hash key))
  | .estimates key => t.forward env (.estimates (t.hasher.hash key))
  | .recordAndEstimate key =>
    let hash := t.hasher.hash key
    let estimated := t.forward env (.estimates hash)
    let recorded := estimated.state.forward estimated.env (.record hash)
    ⟨estimated.answer, recorded.state, recorded.env⟩
  | .itemCounts => t.forward env .itemCounts

/-- Serves requests one after the other and drops the answers. -/
def serveAll (t : Tracker w) (env : Environment) (qs : List Request) : Tracker w × Environment :=
  qs.foldl (fun (t, env) q => let o := t.serve env q; (o.state, o.env)) (t, env)

/-- Moves the tracker out of its place: the tracker itself, and the empty one that stays behind. -/
def take (t : Tracker w) : Tracker w × Tracker w := (t, empty)

/-! ### Reading -/

def bucketCount (t : Tracker w) : Nat := t.ring.size

def isEmpty (t : Tracker w) : Bool := t.ring.isEmpty

def byteSize (t : Tracker w) : Nat := t.ring.byteSize

def outline (env : Environment) (t : Tracker w) : Text.Outline :=
  .record "AccessTracker" [
    ("config", t.config.outline env),
    ("hasher", .record "XxHasher" [("seed", .ofNat t.hasher.seed.toNat)]),
    ("ring", t.ring.outline env)]

end Tracker

end AccessHistory
