import AccessHistory.Proofs.TrackerVisits

/-!
The construction of trackers. It fails for what is wrong with the config or with the size of a
counter, and then nothing is reported. Otherwise all buckets are alike, and the events say what was
built.
-/

set_option autoImplicit false
set_option relaxedAutoImplicit false

namespace AccessHistory

variable {w : CellWidth}

/-! ### Steps that are all alike -/

/-- The first failure ends a traversal, so steps that are all alike fail like one of them. -/
theorem mapM_const {ε α β : Type} (x : Except ε β) {steps : List α} (some_step : steps ≠ []) :
    steps.mapM (fun _ => x) = x.map (List.replicate steps.length) := by
  cases x with
  | error e =>
    cases steps with
    | nil => exact absurd rfl some_step
    | cons first rest => rfl
  | ok b =>
    have all_ok (steps : List α) :
        steps.mapM (fun _ => (.ok b : Except ε β)) = .ok (List.replicate steps.length b) := by
      induction steps with
      | nil => rfl
      | cons first rest ih =>
        rw [List.mapM_cons, ih]
        rfl
    exact all_ok steps

/-! ### Rings -/

theorem Config.of_validate {c : Config} (h : c.validate = .ok ()) :
    c.bucketCount ≠ 0 ∧ c.ticksPerBucket ≠ 0 := by
  unfold validate at h
  split at h
  · cases h
  · next some_bucket =>
    split at h
    · cases h
    · next some_tick => exact ⟨some_bucket, some_tick⟩

theorem Config.bucketCount_pos {c : Config} (h : c.validate = .ok ()) :
    0 < c.bucketCount.toNat := by
  have some_bucket := (of_validate h).1
  rw [ne_eq, ← UInt64.toNat_inj] at some_bucket
  exact Nat.pos_of_ne_zero some_bucket

namespace Ring

/-- Some counters and a slice of some ticks are all that a ring needs. -/
theorem exists_ofCounters {counters : Array (Counter w)} {span : UInt64} (source : TickSource)
    (some_counter : 0 < counters.size) (some_tick : span ≠ 0) :
    ∃ r, ofCounters counters span source = .ok r := by
  have not_empty : ¬ counters.isEmpty = true := by
    rw [Array.isEmpty_iff_size_eq_zero]
    exact Nat.ne_of_gt some_counter
  rw [ofCounters, if_neg not_empty, dif_neg some_tick]
  exact ⟨_, rfl⟩

theorem byteSize_eq_sum (r : Ring w) : r.byteSize = (r.buckets.toList.map Bucket.byteSize).sum := by
  rw [byteSize, ← Array.foldl_toList, List.sum_eq_foldl, List.foldl_map]

theorem byteSize_of_replicate {r : Ring w} {n : Nat} {b : Bucket w}
    (h : r.buckets = .replicate n b) : r.byteSize = n * b.byteSize := by
  simp [byteSize_eq_sum, h]

end Ring

/-! ### Trackers -/

/-- A construction in an environment: it may fail, and it may report events. -/
abbrev Construction := ExceptT BuildError (StateM Environment)

namespace Tracker

/-- Builds a tracker one step after the other, with a counter of its own for each bucket. -/
def construct (c : Config) : Construction (Tracker w) := do
  MonadExcept.ofExcept c.validate
  let counters ← MonadExcept.ofExcept <|
    (List.range c.bucketCount.toNat).mapM fun _ => Counter.ofConfig c
  let ring ← MonadExcept.ofExcept (Ring.ofCounters counters.toArray c.ticksPerBucket c.source)
  if c.bucketCount.toNat ≤ 2 then
    modify (·.report (some (.neverRotates c.bucketCount.toNat)))
  modify (·.report (some
    (.built c.bucketCount.toNat c.ticksPerBucket c.kind w.bytes ring.byteSize)))
  return ⟨c, {}, ring⟩

theorem ofConfig_of_error {c : Config} {e : BuildError} (h : c.validate = .error e) :
    (ofConfig c : Except BuildError (Tracker w × List Event)) = .error e := by
  rw [ofConfig, h]
  rfl

theorem ofConfig_of_counter_error {c : Config} {e : BuildError} (valid : c.validate = .ok ())
    (h : (Counter.ofConfig c : Except BuildError (Counter w)) = .error e) :
    (ofConfig c : Except BuildError (Tracker w × List Event)) = .error e := by
  rw [ofConfig, valid, h]
  rfl

theorem ofConfig_of_ok {c : Config} {counter : Counter w} (valid : c.validate = .ok ())
    (h : Counter.ofConfig c = .ok counter) :
    ∃ ring, Ring.ofCounters (.replicate c.bucketCount.toNat counter) c.ticksPerBucket c.source =
        .ok ring ∧
      ofConfig c = .ok (⟨c, {}, ring⟩, buildEvents c ring) := by
  have some_counter : 0 < (Array.replicate c.bucketCount.toNat counter).size := by
    rw [Array.size_replicate]
    exact Config.bucketCount_pos valid
  obtain ⟨ring, built⟩ :=
    Ring.exists_ofCounters c.source some_counter (Config.of_validate valid).2
  refine ⟨ring, built, ?_⟩
  rw [ofConfig, valid, h]
  change (Ring.ofCounters _ _ _).bind _ = _
  rw [built]
  rfl

theorem run_construct (c : Config) (env : Environment) :
    (construct c).run.run env =
      match (ofConfig c : Except BuildError (Tracker w × List Event)) with
      | .error e => (.error e, env)
      | .ok (t, events) => (.ok t, { env with log := env.log ++ events.toArray }) := by
  -- All failures come before the first report, so the cases are the three ways out.
  cases valid : c.validate with
  | error e =>
    rw [ofConfig_of_error valid]
    rw [construct, valid]
    rfl
  | ok u =>
    have some_bucket : List.range c.bucketCount.toNat ≠ [] := by
      rw [ne_eq, List.range_eq_nil]
      exact Nat.ne_of_gt (Config.bucketCount_pos valid)
    rw [construct, mapM_const _ some_bucket, List.length_range, valid]
    cases sized : (Counter.ofConfig c : Except BuildError (Counter w)) with
    | error e =>
      rw [ofConfig_of_counter_error valid sized]
      rfl
    | ok counter =>
      obtain ⟨ring, in_ring, built⟩ := ofConfig_of_ok valid sized
      rw [built]
      rw [← List.toArray_replicate] at in_ring
      simp only [Except.map, MonadExcept.ofExcept, pure_bind, in_ring]
      have pushed (first second : Event) :
          env.log ++ #[first, second] = (env.log.push first).push second :=
        Array.ext' (by simp)
      rw [buildEvents]
      split
      · rw [pushed]
        rfl
      · rfl

theorem ofConfig_eq_error_iff {c : Config} {e : BuildError} :
    (ofConfig c : Except BuildError (Tracker w × List Event)) = .error e ↔
      c.validate = .error e ∨
        c.validate = .ok () ∧ (Counter.ofConfig c : Except BuildError (Counter w)) = .error e := by
  cases valid : c.validate with
  | error cause =>
    rw [ofConfig_of_error valid]
    simp
  | ok u =>
    cases sized : (Counter.ofConfig c : Except BuildError (Counter w)) with
    | error cause =>
      rw [ofConfig_of_counter_error valid sized]
      simp
    | ok counter =>
      obtain ⟨ring, -, built⟩ := ofConfig_of_ok valid sized
      rw [built]
      simp

/-- A tracker as its config describes it, all of its buckets empty and alike, and the events that
say what was built. -/
structure IsAsDescribed (c : Config) (counter : Counter w) (t : Tracker w) (events : List Event) :
    Prop where
  config : t.config = c
  sized : Counter.ofConfig c = .ok counter
  kind : counter.kind = c.kind
  fresh : counter.IsFresh
  unseen : ∀ hash, counter.estimate hash = 0
  buckets : t.ring.buckets = .replicate c.bucketCount.toNat ⟨counter, 0⟩
  mostRecent : t.ring.mostRecent = 0
  ticksPerBucket : t.ring.ticksPerBucket = c.ticksPerBucket
  source : t.ring.source = c.source
  byteSize : t.ring.byteSize = c.bucketCount.toNat * counter.byteSize
  events : events =
    (if c.bucketCount.toNat ≤ 2 then [.neverRotates c.bucketCount.toNat] else []) ++
      [.built t.ring.size t.ring.ticksPerBucket counter.kind w.bytes t.ring.byteSize]

theorem isAsDescribed_of_ofConfig {c : Config} {t : Tracker w} {events : List Event}
    (h : ofConfig c = .ok (t, events)) : ∃ counter, IsAsDescribed c counter t events := by
  obtain ⟨-, counter, sized, in_ring, shape, reported⟩ := of_ofConfig h
  obtain ⟨fresh, kind⟩ := Counter.of_ofConfig sized
  obtain ⟨-, first, span, source, -⟩ := Ring.of_ofCounters in_ring
  have buckets : t.ring.buckets = .replicate c.bucketCount.toNat ⟨counter, 0⟩ := by
    rw [Ring.buckets_of_ofCounters in_ring, Array.map_replicate]
    rfl
  have size : t.ring.size = c.bucketCount.toNat := by
    rw [Ring.size, buckets, Array.size_replicate]
  refine ⟨counter, congrArg Tracker.config shape, sized, kind, fresh, fresh.estimate_eq_zero,
    buckets, first, span, source, Ring.byteSize_of_replicate buckets, ?_⟩
  rw [reported, size, span, kind, buildEvents]
  split <;> rfl

theorem size_pos_of_ofConfig {c : Config} {t : Tracker w} {events : List Event}
    (h : ofConfig c = .ok (t, events)) : 0 < t.ring.size := by
  obtain ⟨-, counter, -, in_ring, -, -⟩ := of_ofConfig h
  exact (Ring.of_ofCounters in_ring).2.2.2.2

theorem IsAsDescribed.size_eq {c : Config} {counter : Counter w} {t : Tracker w}
    {events : List Event} (h : IsAsDescribed c counter t events) :
    t.ring.size = c.bucketCount.toNat := by
  rw [Ring.size, h.buckets, Array.size_replicate]

end Tracker

/-! ### Small trackers -/

/-- Some buckets of ten ticks each, with a sketch of two cells in a row. -/
def Config.oneRow (bucketCount : UInt64) : Config where
  bucketCount
  ticksPerBucket := 10
  source := .attached 0
  maxOps := 1
  maxWidth := 2
  maxDepth := 1

/-- A cap of one row leaves one row. -/
theorem Sizing.rowCount_of_cap_one {certainty : Float} (h : IsProportion certainty) :
    rowCount certainty 1 = .ok 1 := by
  have capped (rows : UInt64) : min (max rows 1) 1 = 1 := by
    rw [← UInt64.toNat_inj, Number.toNat_min, Number.toNat_max, UInt64.toNat_one]
    omega
  rw [rowCount, if_neg (not_not_intro h)]
  simp [capped]

theorem Config.validate_oneRow {bucketCount : UInt64} (h : bucketCount ≠ 0) :
    (oneRow bucketCount).validate = .ok () := by
  have proportion : Sizing.IsProportion 0.99 := by decide +kernel
  simp [validate, oneRow, h, proportion]

theorem Counter.ofConfig_of_margin {c : Config} {margin : Float} (counts : c.countsAccesses = true)
    (h : Sizing.errorMargin c.maxErrorValue c.maxOps = .ok margin) :
    (ofConfig c : Except BuildError (Counter w)) =
      (Sketch.ofTarget margin c.certainty c.maxWidth c.maxDepth).map sketch := by
  rw [ofConfig, if_pos counts, h]
  change (Sketch.ofTarget margin c.certainty c.maxWidth c.maxDepth).bind _ = _
  cases Sketch.ofTarget (w := w) margin c.certainty c.maxWidth c.maxDepth <;> rfl

theorem Counter.ofConfig_oneRow (bucketCount : UInt64) :
    (ofConfig (.oneRow bucketCount) : Except BuildError (Counter w)) =
      (Sketch.ofShape 2 1).map sketch := by
  have margin : Sizing.errorMargin 1 1 = .ok 1 := rfl
  have cells : Sizing.rowWidth 1 2 = .ok 2 := rfl
  have rows : Sizing.rowCount 0.99 1 = .ok 1 := Sizing.rowCount_of_cap_one (by decide +kernel)
  have counter : (ofConfig (.oneRow bucketCount) : Except BuildError (Counter w)) =
      (Sketch.ofTarget 1 0.99 2 1).map sketch := ofConfig_of_margin rfl margin
  rw [counter, Sketch.ofTarget, cells, rows]
  rfl

theorem Counter.exists_ofConfig_oneRow (bucketCount : UInt64) :
    ∃ counter : Counter w, ofConfig (.oneRow bucketCount) = .ok counter := by
  rw [ofConfig_oneRow]
  exact ⟨_, rfl⟩

theorem Tracker.exists_ofConfig_oneRow {bucketCount : UInt64} (h : bucketCount ≠ 0) :
    ∃ (t : Tracker w) (events : List Event), ofConfig (.oneRow bucketCount) = .ok (t, events) := by
  obtain ⟨counter, sized⟩ := Counter.exists_ofConfig_oneRow (w := w) bucketCount
  obtain ⟨ring, -, built⟩ := ofConfig_of_ok (Config.validate_oneRow h) sized
  exact ⟨_, _, built⟩

/-- Allows an error of three for a single record, so that a row would be less than one cell wide. -/
def Config.coarse : Config := { oneRow 2 with maxErrorValue := 3 }

theorem Config.validate_coarse : coarse.validate = .ok () := by
  have proportion : Sizing.IsProportion 0.99 := by decide +kernel
  simp [validate, coarse, oneRow, proportion]

theorem Counter.ofConfig_coarse :
    (ofConfig .coarse : Except BuildError (Counter w)) = .error (.sketchShape 0 0) := by
  have margin : Sizing.errorMargin 3 1 = .ok 3 := rfl
  have cells : Sizing.rowWidth 3 2 = .error (.sketchShape 0 0) := rfl
  have sized : Sketch.ofTarget (w := w) 3 0.99 2 1 = .error (.sketchShape 0 0) := by
    rw [Sketch.ofTarget, cells]
    rfl
  have counter : (ofConfig .coarse : Except BuildError (Counter w)) =
      (Sketch.ofTarget 3 0.99 2 1).map sketch := ofConfig_of_margin rfl margin
  rw [counter, sized]
  rfl

/-! ### All or nothing -/

/-- A construction fails with what the check of the config finds, or else with what keeps a counter
from being sized; a ring can always be made once its counters are. If nothing fails, the tracker is
as its config describes it, and the events say so. Taken one step after the other, with a counter
built for each bucket, the construction comes to the same, and a failing one reports nothing. -/
theorem construction_all_or_nothing (c : Config) :
    (∀ e, (Tracker.ofConfig c : Except BuildError (Tracker w × List Event)) = .error e ↔
      c.validate = .error e ∨
        c.validate = .ok () ∧ (Counter.ofConfig c : Except BuildError (Counter w)) = .error e) ∧
    (∀ counters : Array (Counter w), c.validate = .ok () → counters.size = c.bucketCount.toNat →
      ∃ ring, Ring.ofCounters counters c.ticksPerBucket c.source = .ok ring) ∧
    (∀ (t : Tracker w) (events : List Event), Tracker.ofConfig c = .ok (t, events) →
      ∃ counter, Tracker.IsAsDescribed c counter t events) ∧
    ∀ env,
      (∀ e, (Tracker.ofConfig c : Except BuildError (Tracker w × List Event)) = .error e →
        (Tracker.construct c : Construction (Tracker w)).run.run env = (.error e, env)) ∧
      ∀ (t : Tracker w) (events : List Event), Tracker.ofConfig c = .ok (t, events) →
        (Tracker.construct c).run.run env =
          (.ok t, { env with log := env.log ++ events.toArray }) := by
  refine ⟨fun e => Tracker.ofConfig_eq_error_iff, ?_, ?_, ?_⟩
  · intro counters valid enough
    have some_counter : 0 < counters.size := by
      rw [enough]
      exact Config.bucketCount_pos valid
    exact Ring.exists_ofCounters c.source some_counter (Config.of_validate valid).2
  · intro t events built
    exact Tracker.isAsDescribed_of_ofConfig built
  · intro env
    have run := Tracker.run_construct (w := w) c env
    constructor
    · intro e failed
      rw [run, failed]
    · intro t events built
      rw [run, built]

/-- Two buckets of one row are built with a warning. A coarse config passes its check, but its
counters cannot be sized. -/
theorem construction_of_oneRow :
    (∃ (t : Tracker .bits8) (counter : Counter .bits8) (events : List Event),
      Tracker.ofConfig (.oneRow 2) = .ok (t, events) ∧
      t.ring.buckets = #[⟨counter, 0⟩, ⟨counter, 0⟩] ∧
      events = [.neverRotates 2, .built 2 10 .sketch 1 (2 * counter.byteSize)] ∧
      (Tracker.construct (.oneRow 2)).run.run {} = (.ok t, { log := events.toArray })) ∧
    Config.coarse.validate = .ok () ∧
    (Counter.ofConfig .coarse : Except BuildError (Counter .bits8)) = .error (.sketchShape 0 0) ∧
    (Tracker.construct .coarse : Construction (Tracker .bits8)).run.run {} =
      (.error (.sketchShape 0 0), {}) := by
  constructor
  · obtain ⟨t, events, built⟩ := Tracker.exists_ofConfig_oneRow (w := .bits8)
      (show (2 : UInt64) ≠ 0 by decide)
    obtain ⟨-, -, describes, steps⟩ := construction_all_or_nothing (w := .bits8) (.oneRow 2)
    obtain ⟨counter, described⟩ := describes t events built
    have size : t.ring.size = 2 := by
      rw [Ring.size, described.buckets]
      rfl
    refine ⟨t, counter, events, built, described.buckets, ?_, ?_⟩
    · rw [described.events, size, described.ticksPerBucket, described.kind, described.byteSize]
      rfl
    · rw [(steps {}).2 t events built]
      simp
  · obtain ⟨fails, -, -, steps⟩ := construction_all_or_nothing (w := .bits8) .coarse
    have failed := (fails (.sketchShape 0 0)).mpr
      (.inr ⟨Config.validate_coarse, Counter.ofConfig_coarse⟩)
    exact ⟨Config.validate_coarse, Counter.ofConfig_coarse, (steps {}).1 _ failed⟩

end AccessHistory
