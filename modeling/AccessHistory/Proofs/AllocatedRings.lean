import AccessHistory.Proofs.AllocatedCounters
import AccessHistory.Proofs.Footprints

/-!
Rings and trackers in memory. Their buckets have tables of their own, all of which were in memory at
once when the ring was built, so that their bytes can be added up; and no request adds any.
-/

set_option autoImplicit false
set_option relaxedAutoImplicit false

namespace AccessHistory

variable {w : CellWidth}

/-! ### Room for lists of counters -/

theorem Memory.exists_runIn_takeEach {bytes n : Nat} {m : Memory} (array : bytes ≤ maxArrayBytes)
    (room : n * bytes ≤ m.free) : ∃ m', (takeEach bytes n).runIn m = .ok (.ok ((), m')) := by
  induction n generalizing m with
  | zero => exact ⟨m, rfl⟩
  | succ n ih =>
    rw [Nat.succ_mul] at room
    have rest : n * bytes ≤ (m.less bytes).free := Nat.le_sub_of_add_le room
    obtain ⟨m', taken⟩ := ih rest
    refine ⟨m', ?_⟩
    rw [takeEach, Building.runIn_bind, runIn_take, if_neg (Nat.not_lt.mpr array),
      if_neg (by omega)]
    exact taken

namespace Counter

/-- Counters that are built one after the other take up what all of them do. -/
theorem of_mapM_allocate {backends : List Backend} {m m' : Memory} {counters : List (Counter w)}
    (h : (backends.mapM allocate : Building _).runIn m = .ok (.ok (counters, m'))) :
    backends.mapM ofBackend = .ok counters ∧
      (∀ c ∈ counters, c.byteSize ≤ Memory.maxArrayBytes) ∧
      (counters.map byteSize).sum + m'.free = m.free := by
  induction backends generalizing m m' counters with
  | nil =>
    cases h
    exact ⟨rfl, by simp, by simp⟩
  | cons b backends ih =>
    rw [List.mapM_cons] at h
    obtain ⟨c, m₁, first, h⟩ := Building.of_runIn_bind h
    obtain ⟨rest, m₂, later, h⟩ := Building.of_runIn_bind h
    cases h
    obtain ⟨described, short, taken⟩ := of_allocate first
    obtain ⟨described', short', taken'⟩ := ih later
    refine ⟨?_, ?_, ?_⟩
    · rw [List.mapM_cons, described, described']
      rfl
    · simpa using ⟨short, short'⟩
    · rw [List.map_cons, List.sum_cons]
      omega

/-- Counters that are built alike are copies of one of them, each with room of its own. -/
theorem mapM_allocate_replicate {b : Backend} {c : Counter w} (h : ofBackend b = .ok c) (n : Nat) :
    ((List.replicate n b).mapM allocate : Building (List (Counter w))) = do
      Memory.takeEach c.byteSize n
      return List.replicate n c := by
  induction n with
  | zero => rfl
  | succ n ih => simp [List.replicate_succ, Memory.takeEach, allocate_of_ok h, ih]

theorem mapM_ofBackend_replicate (b : Backend) {n : Nat} (some_copy : n ≠ 0) :
    (List.replicate n b).mapM ofBackend =
      (ofBackend b : Except BuildError (Counter w)).map (List.replicate n) := by
  have copies : List.replicate n b = (List.range n).map fun _ => b := by simp
  have some_step : List.range n ≠ [] := by rwa [ne_eq, List.range_eq_nil]
  have alike := mapM_const (ofBackend b : Except BuildError (Counter w)) some_step
  rw [List.length_range] at alike
  rw [copies, List.mapM_map]
  exact alike

/-! ### Counters in memory -/

def change (c : Counter w) : Change → Counter w := Change.apply record reset c

theorem dimensions_changeAll (c : Counter w) (changes : List Change) :
    (changes.foldl change c).dimensions = c.dimensions := by
  refine foldl_keeps change dimensions ?_ c changes
  intro c step
  cases step with
  | record hash => exact c.dimensions_record hash
  | reset => exact c.dimensions_reset

/-- Counters that were built in one memory, whatever each of them has recorded since. -/
def InMemory (counters : List (Counter w)) : Prop :=
  ∃ (backends : List Backend) (new : List (Counter w)), (backends.mapM allocate).Yields new ∧
    List.Forall₂ (fun c c' => ∃ changes : List Change, c' = changes.foldl change c) new counters

theorem inMemory_of_yields {backends : List Backend} {counters : List (Counter w)}
    (h : (backends.mapM allocate).Yields counters) : InMemory counters :=
  ⟨backends, counters, h, List.forall₂_same.mpr fun _ _ => ⟨[], rfl⟩⟩

/-- Histories of their own do not make counters any larger. -/
theorem dimensions_of_changed {new counters : List (Counter w)}
    (h : List.Forall₂ (fun c c' => ∃ changes : List Change, c' = changes.foldl change c)
      new counters) : counters.map dimensions = new.map dimensions := by
  induction h with
  | nil => rfl
  | cons changed _ ih =>
    obtain ⟨changes, rfl⟩ := changed
    rw [List.map_cons, List.map_cons, dimensions_changeAll, ih]

end Counter

/-! ### Rings -/

namespace Ring

/-- The tables of a ring are arrays that fit into one memory together. -/
structure IsStored (r : Ring w) : Prop where
  arrays : ∀ d ∈ r.dimensions, d.byteSize w ≤ Memory.maxArrayBytes
  room : ∃ m : Memory, r.byteSize ≤ m.free

theorem isStored_empty : (empty : Ring w).IsStored :=
  ⟨by simp [dimensions, empty], .whole, Nat.zero_le _⟩

theorem isStored_of_inMemory {counters : List (Counter w)} {span : UInt64} {source : TickSource}
    {r : Ring w} (held : Counter.InMemory counters)
    (h : ofCounters counters.toArray span source = .ok r) : r.IsStored := by
  obtain ⟨backends, new, ⟨m, m', built⟩, changed⟩ := held
  obtain ⟨-, short, taken⟩ := Counter.of_mapM_allocate built
  have bytes : r.dimensions.map (Dimensions.byteSize w) = new.map Counter.byteSize := by
    rw [dimensions_of_ofCounters h, Counter.dimensions_of_changed changed, List.map_map]
    exact List.map_congr_left fun c _ => c.byteSize_eq.symm
  constructor
  · intro d member
    have listed := List.mem_map_of_mem (f := Dimensions.byteSize w) member
    rw [bytes] at listed
    obtain ⟨c, member', same⟩ := List.mem_map.mp listed
    rw [← same]
    exact short c member'
  · refine ⟨m, ?_⟩
    rw [r.byteSize_eq, bytes]
    omega

/-- A ring in memory is a ring over new counters in memory. -/
theorem yields_iff {backends : List Backend} {span : UInt64} {source : TickSource} {r : Ring w} :
    (allocate backends span source).Yields r ↔
      ∃ counters, (backends.mapM Counter.allocate).Yields counters ∧
        ofCounters counters.toArray span source = .ok r := by
  constructor
  · rintro ⟨m, m', h⟩
    obtain ⟨counters, m₁, built, h⟩ := Building.of_runIn_bind h
    exact ⟨counters, ⟨m, m₁, built⟩, (Building.of_runIn_lift h).1⟩
  · rintro ⟨counters, ⟨m, m', built⟩, in_ring⟩
    refine ⟨m, m', ?_⟩
    simp only [allocate, Building.runIn_bind, built, in_ring]
    rfl

theorem IsStored.of_dimensions {r r' : Ring w} (h : r.IsStored)
    (same : r'.dimensions = r.dimensions) : r'.IsStored := by
  obtain ⟨arrays, m, room⟩ := h
  refine ⟨same ▸ arrays, m, ?_⟩
  rw [(size_eq_of_dimensions same).2]
  exact room

end Ring

/-! ### Trackers -/

namespace Tracker

/-- The first bucket takes up room like all others. -/
theorem allocate_of_ok {c : Config} {counter : Counter w} (valid : c.validate = .ok ())
    (described : Counter.ofConfig c = .ok counter) :
    (allocate c : Building (Tracker w × List Event)) = do
      Memory.takeEach counter.byteSize c.bucketCount.toNat
      let ring ← Ring.ofCounters (.replicate c.bucketCount.toNat counter) c.ticksPerBucket c.source
      return (⟨c, {}, ring⟩, buildEvents c ring) := by
  obtain ⟨n, count⟩ := Nat.exists_eq_succ_of_ne_zero (Nat.ne_of_gt (Config.bucketCount_pos valid))
  have built : (Counter.allocate (.config c) : Building (Counter w)) = do
      Memory.take counter.byteSize
      return counter := Counter.allocate_of_ok described
  unfold allocate
  rw [valid, built, count]
  simp [Memory.takeEach]

/-- That the buckets share one counter makes no difference: the construction is that of a ring over
one counter for each bucket, all of them built from the config. -/
theorem allocate_eq (c : Config) :
    (allocate c : Building (Tracker w × List Event)) = do
      c.validate
      let ring ← Ring.allocate (List.replicate c.bucketCount.toNat (.config c)) c.ticksPerBucket
        c.source
      return (⟨c, {}, ring⟩, buildEvents c ring) := by
  cases valid : c.validate with
  | error e =>
    unfold allocate
    rw [valid]
    rfl
  | ok u =>
    unfold Ring.allocate
    cases described : (Counter.ofConfig c : Except BuildError (Counter w)) with
    | error e =>
      obtain ⟨n, count⟩ :=
        Nat.exists_eq_succ_of_ne_zero (Nat.ne_of_gt (Config.bucketCount_pos valid))
      have failed : (Counter.allocate (.config c) : Building (Counter w)) = throw e :=
        Counter.allocate_of_error described
      unfold allocate
      rw [valid, count, List.replicate_succ, List.mapM_cons, failed]
      rfl
    | ok counter =>
      have copies := Counter.mapM_allocate_replicate (b := .config c) described
      rw [allocate_of_ok valid described, copies]
      simp

/-- A tracker in memory is the tracker without bounds, with the same events. -/
theorem of_yields {c : Config} {t : Tracker w} {events : List Event}
    (h : (allocate c).Yields (t, events)) :
    ofConfig c = .ok (t, events) ∧ t.ring.IsStored := by
  obtain ⟨m, m', h⟩ := h
  rw [allocate_eq] at h
  obtain ⟨u, m₁, valid, h⟩ := Building.of_runIn_bind h
  obtain ⟨valid, -⟩ := Building.of_runIn_lift valid
  obtain ⟨ring, m₂, in_memory, h⟩ := Building.of_runIn_bind h
  cases h
  obtain ⟨counters, held, in_ring⟩ := Ring.yields_iff.mp ⟨m₁, m', in_memory⟩
  have stored := Ring.isStored_of_inMemory (Counter.inMemory_of_yields held) in_ring
  obtain ⟨m₃, m₄, built⟩ := held
  obtain ⟨described, -⟩ := Counter.of_mapM_allocate built
  rw [Counter.mapM_ofBackend_replicate _ (Nat.ne_of_gt (Config.bucketCount_pos valid))] at described
  cases sized : (Counter.ofConfig c : Except BuildError (Counter w)) with
  | error e =>
    rw [Counter.ofBackend, sized] at described
    cases described
  | ok counter =>
    rw [Counter.ofBackend, sized] at described
    cases described
    obtain ⟨ring', in_ring', built⟩ := ofConfig_of_ok valid sized
    rw [List.toArray_replicate, in_ring'] at in_ring
    cases in_ring
    exact ⟨built, stored⟩

/-- The bounds of memory are the only ones: a tracker whose tables fit is built. -/
theorem yields_of_isStored {c : Config} {t : Tracker w} {events : List Event}
    (h : ofConfig c = .ok (t, events)) (stored : t.ring.IsStored) :
    (allocate c).Yields (t, events) := by
  obtain ⟨valid, counter, described, in_ring, same, reported⟩ := of_ofConfig h
  have alike : t.ring.dimensions = List.replicate c.bucketCount.toNat counter.dimensions := by
    simp [Ring.dimensions_of_ofCounters in_ring]
  have bytes : t.ring.byteSize = c.bucketCount.toNat * counter.byteSize := by
    rw [counter.byteSize_eq]
    exact byteSize_of_replicate alike
  have array : counter.byteSize ≤ Memory.maxArrayBytes := by
    rw [counter.byteSize_eq]
    apply stored.arrays
    rw [alike]
    exact List.mem_replicate.mpr ⟨Nat.ne_of_gt (Config.bucketCount_pos valid), rfl⟩
  obtain ⟨m, room⟩ := stored.room
  rw [bytes] at room
  obtain ⟨m', taken⟩ := Memory.exists_runIn_takeEach array room
  refine ⟨m, m', ?_⟩
  rw [allocate_of_ok valid described, in_ring, Building.runIn_bind, taken, same, reported]
  rfl

theorem exists_yields_oneRow :
    ∃ (t : Tracker .bits8) (events : List Event), (allocate (.oneRow 3)).Yields (t, events) := by
  obtain ⟨t, events, built⟩ := exists_ofConfig_oneRow (w := .bits8) (show (3 : UInt64) ≠ 0 by decide)
  obtain ⟨-, counter, sized, in_ring, -, -⟩ := of_ofConfig built
  rw [Counter.ofConfig_oneRow] at sized
  cases sized
  have alike : t.ring.dimensions = List.replicate 3 (.sketch 2 1 2) :=
    Ring.dimensions_of_ofCounters in_ring
  refine ⟨t, events, yields_of_isStored built ⟨?_, .whole, ?_⟩⟩
  · rw [alike]
    decide
  · rw [t.ring.byteSize_eq, alike]
    decide

end Tracker

end AccessHistory
