import AccessHistory.Proofs.Construction
import AccessHistory.Proofs.NarrowCells
import AccessHistory.Proofs.ServedRuns
import Mathlib.Tactic.Ring

/-!
What a tracker takes up in memory. The dimensions of its counters are settled when they are built.
No request changes them, and the bytes are computed from them alone, so the footprint says what a
tracker can hold and not what it holds.
-/

set_option autoImplicit false
set_option relaxedAutoImplicit false

namespace AccessHistory

variable {w w' : CellWidth}

/-! ### Dimensions -/

/-- What there is of a counter, whatever it has recorded. -/
inductive Dimensions where
  | sketch (width depth cells : Nat)
  | filter (bits words probes : Nat)
  deriving DecidableEq

namespace Dimensions

/-- A cell for each column of each row, and words for all bits, of which the last may be partly
used. -/
def IsPacked : Dimensions → Prop
  | sketch width depth cells => cells = width * depth
  | filter bits words _ => words = (bits + 63) / 64

def kind : Dimensions → CounterKind
  | sketch _ _ _ => .sketch
  | filter _ _ _ => .filter

/-- The bytes of a counter with cells of a width. -/
def byteSize (w : CellWidth) : Dimensions → Nat
  | sketch width depth _ => width * depth * w.bytes
  | filter bits _ _ => 8 * ((bits + 63) / 64)

end Dimensions

namespace Counter

def dimensions : Counter w → Dimensions
  | sketch s => .sketch s.width s.depth s.table.size
  | filter f => .filter f.bits.size f.bits.words.size f.probeCount

theorem kind_dimensions (c : Counter w) : c.dimensions.kind = c.kind := by
  cases c <;> rfl

theorem isPacked_dimensions (c : Counter w) : c.dimensions.IsPacked := by
  cases c with
  | sketch s => exact s.size_table
  | filter f => exact f.bits.size_words

theorem byteSize_eq (c : Counter w) : c.byteSize = c.dimensions.byteSize w := by
  cases c with
  | sketch s => exact congrArg (· * w.bytes) s.size_table
  | filter f => exact congrArg (8 * ·) f.bits.size_words

@[simp]
theorem dimensions_record (c : Counter w) (hash : UInt64) :
    (c.record hash).dimensions = c.dimensions := by
  cases c with
  | sketch s => simp [record, dimensions, Sketch.record]
  | filter f =>
    have size := f.size_bits_record hash
    have words := (f.record hash).bits.size_words
    rw [size, ← f.bits.size_words] at words
    change Dimensions.filter (f.record hash).bits.size (f.record hash).bits.words.size _ = _
    rw [size, words]
    rfl

@[simp]
theorem dimensions_reset (c : Counter w) : c.reset.dimensions = c.dimensions := by
  cases c with
  | sketch s => simp [reset, dimensions, Sketch.reset, s.size_table]
  | filter f =>
    simp [reset, dimensions, Filter.reset, BitSet.clear, BitSet.empty, f.bits.size_words]

theorem dimensions_narrow (c : Counter w') : (c.narrow w).dimensions = c.dimensions := by
  cases c with
  | sketch s => simp [narrow, dimensions, Sketch.narrow]
  | filter f => rfl

end Counter

namespace Bucket

def dimensions (b : Bucket w) : Dimensions := b.counter.dimensions

theorem byteSize_eq (b : Bucket w) : b.byteSize = b.dimensions.byteSize w := b.counter.byteSize_eq

theorem dimensions_record (b : Bucket w) (hash : UInt64) :
    (b.record hash).dimensions = b.dimensions := b.counter.dimensions_record hash

theorem dimensions_reset (b : Bucket w) : b.reset.dimensions = b.dimensions :=
  b.counter.dimensions_reset

end Bucket

/-! ### Rings -/

namespace Ring

/-- The dimensions of the counters, bucket by bucket. -/
def dimensions (r : Ring w) : List Dimensions := (r.buckets.map Bucket.dimensions).toList

theorem isPacked_of_mem_dimensions (r : Ring w) {d : Dimensions} (h : d ∈ r.dimensions) :
    d.IsPacked := by
  simp only [dimensions, Array.mem_toList_iff, Array.mem_map] at h
  rcases h with ⟨b, -, rfl⟩
  exact b.counter.isPacked_dimensions

theorem length_dimensions (r : Ring w) : r.dimensions.length = r.size := by
  simp [dimensions, size]

theorem byteSize_eq (r : Ring w) : r.byteSize = (r.dimensions.map (Dimensions.byteSize w)).sum := by
  rw [byteSize_eq_sum, dimensions, Array.toList_map, List.map_map]
  exact congrArg List.sum (List.map_congr_left fun b _ => b.byteSize_eq)

theorem dimensions_of_ofCounters {counters : Array (Counter w)} {span : UInt64}
    {source : TickSource} {r : Ring w} (h : ofCounters counters span source = .ok r) :
    r.dimensions = counters.toList.map Counter.dimensions := by
  simp [dimensions, buckets_of_ofCounters h, Bucket.dimensions, Bucket.ofCounter, Function.comp_def]

@[simp]
theorem dimensions_enter (r : Ring w) (i : Nat) (h : i < r.size) :
    (r.enter i h).dimensions = r.dimensions := by
  simp only [dimensions, enter, map_modify_of_keeps r.buckets Bucket.dimensions_reset]

@[simp]
theorem dimensions_recordNewest (r : Ring w) (hash : UInt64) :
    (r.recordNewest hash).dimensions = r.dimensions := by
  have kept := map_modify_of_keeps r.buckets (m := Bucket.dimensions)
    fun b => b.dimensions_record hash
  simp only [dimensions, recordNewest, kept]

@[simp]
theorem dimensions_rotate (r : Ring w) (tick : UInt64) :
    (r.rotate tick).1.dimensions = r.dimensions := by
  rw [rotate]
  split <;> simp

@[simp]
theorem dimensions_respond (r : Ring w) (q : Request) :
    (r.respond q).2.dimensions = r.dimensions := by
  cases q <;> simp [respond]

/-- Wiping a bucket and recording in one leave every counter as large as it was. -/
theorem dimensions_serve (r : Ring w) (env : Environment) (q : Request) :
    (r.serve env q).state.dimensions = r.dimensions := by
  rw [(r.serve_eq env q).2, step, respondAt]
  simp

theorem dimensions_serveEach (r : Ring w) (visits : List (Environment × Request)) :
    (serveEach serve r visits).2.dimensions = r.dimensions :=
  serveEach_keeps dimensions dimensions_serve r visits

/-- Rings of the same dimensions have as many buckets and take up the same. -/
theorem size_eq_of_dimensions {r r' : Ring w} (h : r'.dimensions = r.dimensions) :
    r'.size = r.size ∧ r'.byteSize = r.byteSize := by
  rw [← length_dimensions, ← length_dimensions, byteSize_eq, byteSize_eq, h]
  exact ⟨rfl, rfl⟩

theorem dimensions_narrow (r : Ring w') : (r.narrow w).dimensions = r.dimensions := by
  have each (b : Bucket w') : (b.narrow w).dimensions = b.dimensions := b.counter.dimensions_narrow
  simp [dimensions, narrow, each, Function.comp_def]

end Ring

/-! ### Trackers -/

namespace Tracker

theorem dimensions_serve (t : Tracker w) (env : Environment) (q : Request) :
    (t.serve env q).state.ring.dimensions = t.ring.dimensions := by
  cases q with
  | record key => exact t.ring.dimensions_serve env _
  | estimates key => exact t.ring.dimensions_serve env _
  | itemCounts => exact t.ring.dimensions_serve env _
  | recordAndEstimate key =>
    exact (Ring.dimensions_serve _ _ _).trans (t.ring.dimensions_serve env _)

theorem dimensions_serveEach (t : Tracker w) (visits : List (Environment × Request)) :
    (serveEach serve t visits).2.ring.dimensions = t.ring.dimensions :=
  serveEach_keeps (·.ring.dimensions) dimensions_serve t visits

/-- All counters of a tracker that was built are of the same dimensions. -/
theorem exists_dimensions {c : Config} {t : Tracker w} {events : List Event}
    (h : ofConfig c = .ok (t, events)) :
    ∃ counter : Counter w, Counter.ofConfig c = .ok counter ∧ counter.dimensions.kind = c.kind ∧
      t.ring.dimensions = List.replicate c.bucketCount.toNat counter.dimensions := by
  obtain ⟨-, counter, sized, in_ring, -, -⟩ := of_ofConfig h
  refine ⟨counter, sized, counter.kind_dimensions.trans (Counter.of_ofConfig sized).2, ?_⟩
  simp [Ring.dimensions_of_ofCounters in_ring]

theorem byteSize_of_replicate {t : Tracker w} {n : Nat} {d : Dimensions}
    (h : t.ring.dimensions = List.replicate n d) : t.byteSize = n * d.byteSize w := by
  simp [byteSize, Ring.byteSize_eq, h]

/-- Sketches take up twice as much when their cells are twice as wide, and filters have no cells. -/
theorem byteSize_of_widths {t8 : Tracker .bits8} {t16 : Tracker .bits16} {t32 : Tracker .bits32}
    {n : Nat} {d : Dimensions} (h8 : t8.ring.dimensions = List.replicate n d)
    (h16 : t16.ring.dimensions = List.replicate n d)
    (h32 : t32.ring.dimensions = List.replicate n d) :
    match d.kind with
    | .sketch => t32.byteSize = 2 * t16.byteSize ∧ t32.byteSize = 4 * t8.byteSize
    | .filter => t16.byteSize = t8.byteSize ∧ t32.byteSize = t8.byteSize := by
  rw [byteSize_of_replicate h8, byteSize_of_replicate h16, byteSize_of_replicate h32]
  cases d with
  | sketch width depth cells =>
    simp only [Dimensions.kind, Dimensions.byteSize, CellWidth.bytes]
    constructor <;> ring
  | filter bits words probes => exact ⟨rfl, rfl⟩

/-- One config fails in all widths, and for the same reason, or else it builds trackers of the same
dimensions in all of them. -/
theorem dimensions_ofConfig (c : Config) :
    (∃ e, ∀ w, (ofConfig c : Except BuildError (Tracker w × List Event)) = .error e) ∨
    ∃ d : Dimensions, d.kind = c.kind ∧ ∀ w, ∃ (t : Tracker w) (events : List Event),
      ofConfig c = .ok (t, events) ∧
        t.ring.dimensions = List.replicate c.bucketCount.toNat d := by
  -- All widths are compared with the widest one.
  cases wide_built : (ofConfig c : Except BuildError (Tracker .bits32 × List Event)) with
  | error e =>
    refine .inl ⟨e, ?_⟩
    intro w
    rcases ofConfig_cases w .bits32 c with ⟨e', failed, failed'⟩ | ⟨wide, _, _, -, built'⟩
    · rw [wide_built] at failed'
      cases failed'
      exact failed
    · rw [wide_built] at built'
      cases built'
  | ok built =>
    obtain ⟨wide, events⟩ := built
    obtain ⟨counter, -, kind, alike⟩ := exists_dimensions wide_built
    refine .inr ⟨counter.dimensions, kind, ?_⟩
    intro w
    rcases ofConfig_cases w .bits32 c with ⟨e', -, failed'⟩ | ⟨wide', _, _, narrow_built, built'⟩
    · rw [wide_built] at failed'
      cases failed'
    · rw [wide_built] at built'
      cases built'
      exact ⟨_, _, narrow_built, wide.ring.dimensions_narrow.trans alike⟩

end Tracker

/-- No request changes the number of buckets, the dimensions of their counters, or the bytes that
they take up. These are the bytes of all tables and all words, whatever has been recorded. For one
config, a tracker of sketches takes up twice as much when its cells are twice as wide, and one of
filters always the same. -/
theorem footprint_is_capacity :
    (∀ r : Ring w, r.dimensions.length = r.size ∧ (∀ d ∈ r.dimensions, d.IsPacked) ∧
      r.byteSize = (r.dimensions.map (Dimensions.byteSize w)).sum) ∧
    (∀ (counters : Array (Counter w)) (span : UInt64) (source : TickSource) (r : Ring w),
      Ring.ofCounters counters span source = .ok r →
        r.dimensions = counters.toList.map Counter.dimensions ∧
        ∀ visits, let later := (serveEach Ring.serve r visits).2
          later.dimensions = r.dimensions ∧ later.size = r.size ∧ later.byteSize = r.byteSize) ∧
    (∀ (c : Config) (t : Tracker w) (events : List Event), Tracker.ofConfig c = .ok (t, events) →
      (∃ counter : Counter w, Counter.ofConfig c = .ok counter ∧
        counter.dimensions.kind = c.kind ∧
        t.ring.dimensions = List.replicate c.bucketCount.toNat counter.dimensions) ∧
      ∀ visits, let later := (serveEach Tracker.serve t visits).2
        later.ring.dimensions = t.ring.dimensions ∧ later.bucketCount = t.bucketCount ∧
          later.byteSize = t.byteSize) ∧
    ∀ c : Config,
      (∃ e, ∀ w, (Tracker.ofConfig c : Except BuildError (Tracker w × List Event)) = .error e) ∨
      ∃ (t8 : Tracker .bits8) (t16 : Tracker .bits16) (t32 : Tracker .bits32)
        (events8 events16 events32 : List Event),
        Tracker.ofConfig c = .ok (t8, events8) ∧ Tracker.ofConfig c = .ok (t16, events16) ∧
        Tracker.ofConfig c = .ok (t32, events32) ∧
        match c.kind with
        | .sketch => t32.byteSize = 2 * t16.byteSize ∧ t32.byteSize = 4 * t8.byteSize
        | .filter => t16.byteSize = t8.byteSize ∧ t32.byteSize = t8.byteSize := by
  refine ⟨?_, ?_, ?_, ?_⟩
  · intro r
    exact ⟨r.length_dimensions, fun d => r.isPacked_of_mem_dimensions, r.byteSize_eq⟩
  · intro counters span source r built
    refine ⟨Ring.dimensions_of_ofCounters built, ?_⟩
    intro visits
    have kept := r.dimensions_serveEach visits
    exact ⟨kept, Ring.size_eq_of_dimensions kept⟩
  · intro c t events built
    refine ⟨Tracker.exists_dimensions built, ?_⟩
    intro visits
    have kept := t.dimensions_serveEach visits
    exact ⟨kept, Ring.size_eq_of_dimensions kept⟩
  · intro c
    rcases Tracker.dimensions_ofConfig c with failed | ⟨d, kind, builds⟩
    · exact .inl failed
    · obtain ⟨t8, events8, built8, alike8⟩ := builds .bits8
      obtain ⟨t16, events16, built16, alike16⟩ := builds .bits16
      obtain ⟨t32, events32, built32, alike32⟩ := builds .bits32
      refine .inr ⟨t8, t16, t32, events8, events16, events32, built8, built16, built32, ?_⟩
      rw [← kind]
      exact Tracker.byteSize_of_widths alike8 alike16 alike32

/-- A sketch of two rows and two filters take up twenty bytes, also after a record in each of them.
Three buckets of a row each take up twice as much in cells of twice the width. -/
theorem footprint_is_capacity_mixed :
    (serveEach Ring.serve Ring.mixed [(.atTick 0, .record 7), (.atTick 3, .record 7),
      (.atTick 5, .record 7)]).2.byteSize = 20 ∧
    ∃ (t : Tracker .bits8) (t16 : Tracker .bits16) (t32 : Tracker .bits32)
      (events events16 events32 : List Event),
      Tracker.ofConfig (.oneRow 3) = .ok (t, events) ∧
      Tracker.ofConfig (.oneRow 3) = .ok (t16, events16) ∧
      Tracker.ofConfig (.oneRow 3) = .ok (t32, events32) ∧
      (serveEach Tracker.serve t [(.atTick 30, .record "a".toUTF8)]).2.byteSize = t.byteSize ∧
      t32.byteSize = 2 * t16.byteSize ∧ t32.byteSize = 4 * t.byteSize := by
  obtain ⟨-, rings, trackers, widths⟩ := footprint_is_capacity (w := .bits8)
  constructor
  · obtain ⟨-, kept⟩ := rings _ _ _ _ Ring.ofCounters_mixedCounters
    rw [(kept _).2.2]
    decide
  · rcases widths (.oneRow 3) with ⟨e, failed⟩ |
      ⟨t, t16, t32, events, events16, events32, built, built16, built32, twice, four_times⟩
    · obtain ⟨t, events, built⟩ := Tracker.exists_ofConfig_oneRow (w := .bits8)
        (show (3 : UInt64) ≠ 0 by decide)
      rw [failed] at built
      cases built
    · exact ⟨t, t16, t32, events, events16, events32, built, built16, built32,
        ((trackers _ t events built).2 _).2.2, twice, four_times⟩

end AccessHistory
