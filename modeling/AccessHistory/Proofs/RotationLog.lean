import AccessHistory.Proofs.Construction
import AccessHistory.Proofs.OneTick
import AccessHistory.Proofs.ServedRuns
import Mathlib.Data.List.Chain

/-!
The log of rotations is faithful: it tells where the most recent bucket has been, and a bucket is
emptied once for each rotation in it and at no other time.
-/

set_option autoImplicit false
set_option relaxedAutoImplicit false

namespace AccessHistory

variable {w : CellWidth}

/-! ### Logs -/

namespace Rotation

/-- A rotation that was due: it went to the bucket of its tick, which was neither the most recent
one nor the one before it. -/
structure IsDue (n span : Nat) (rotation : Rotation) : Prop where
  on_time : rotation.target = rotation.tick.toNat / span % n
  moves : rotation.target ≠ rotation.origin
  ahead : (rotation.target + 1) % n ≠ rotation.origin

/-- Rotations that lead the most recent one of `n` buckets from one place to another: each leaves
the bucket that the one before it has entered. -/
structure Traces (n span start : Nat) (log : List Rotation) (stop : Nat) : Prop where
  begins : ∀ first ∈ log.head?, first.origin = start
  linked : log.IsChain fun earlier later => later.origin = earlier.target
  ends : (log.getLast?.map (·.target)).getD start = stop
  due : ∀ rotation ∈ log, rotation.IsDue n span

variable {n span : Nat}

theorem Traces.nil (start : Nat) : Traces n span start [] start :=
  ⟨by simp, .nil, rfl, by simp⟩

theorem Traces.cons {rotation : Rotation} {log : List Rotation} {stop : Nat}
    (due : rotation.IsDue n span) (h : Traces n span rotation.target log stop) :
    Traces n span rotation.origin (rotation :: log) stop := by
  constructor
  · simp
  · exact List.isChain_cons.mpr ⟨h.begins, h.linked⟩
  · rw [← h.ends, List.getLast?_cons]
    cases log.getLast? <;> rfl
  · simpa using ⟨due, h.due⟩

end Rotation

/-! ### Rings -/

namespace Ring

/-- Empties one bucket for each rotation. -/
def clear (buckets : Array (Bucket w)) (rotations : List Rotation) : Array (Bucket w) :=
  rotations.foldl (fun buckets rotation => buckets.modify rotation.target Bucket.reset) buckets

/-- Records hashes in one bucket. -/
def recordIn (i : Nat) (buckets : Array (Bucket w)) (hashes : List UInt64) : Array (Bucket w) :=
  hashes.foldl (fun buckets hash => buckets.modify i (·.record hash)) buckets

theorem mostRecent_step (r : Ring w) (c : Call) :
    (r.step c).mostRecent = (r.rotate c.tick).1.mostRecent := by
  cases recorded : c.recorded with
  | none => rw [step_of_not_recorded r recorded]
  | some hash => rw [step_of_recorded r recorded, recordNewest]

/-- The rotations of a run lead the most recent bucket to where it is in the end. -/
theorem traces_rotations (r : Ring w) (hr : 0 < r.size) (calls : List Call) :
    Rotation.Traces r.size r.ticksPerBucket.toNat r.mostRecent (r.rotations calls)
      (r.after calls).mostRecent := by
  -- The log after the first call starts where that call left the most recent bucket.
  induction calls generalizing r with
  | nil => exact .nil r.mostRecent
  | cons c calls ih =>
    obtain ⟨size, span, -⟩ := r.frame_step c
    have later := ih (r.step c) (size.symm ▸ hr)
    rw [size, span, mostRecent_step] at later
    rw [rotations, after_cons]
    rcases r.rotate_cases c.tick hr with ⟨-, stays⟩ | ⟨not_current, enters⟩
    · rw [stays] at later ⊢
      exact later
    · rw [enters] at later ⊢
      have due : Rotation.IsDue r.size r.ticksPerBucket.toNat
          ⟨r.mostRecent, r.target c.tick, c.tick⟩ :=
        ⟨rfl, fun same => not_current (.inl same), fun before => not_current (.inr before)⟩
      exact .cons due later

theorem buckets_rotate (r : Ring w) (tick : UInt64) :
    (r.rotate tick).1.buckets = clear r.buckets (r.rotate tick).2.toList := by
  rw [rotate]
  split <;> rfl

theorem buckets_step (r : Ring w) (c : Call) :
    (r.step c).buckets = recordIn (r.step c).mostRecent
      (clear r.buckets (r.rotate c.tick).2.toList) c.recorded.toList := by
  rw [mostRecent_step, ← buckets_rotate]
  cases recorded : c.recorded with
  | none =>
    rw [step_of_not_recorded r recorded]
    rfl
  | some hash =>
    rw [step_of_recorded r recorded]
    rfl

/-- After questions and one more call, the buckets are those from before, emptied at each rotation
and recorded in once all rotations are done. -/
theorem buckets_after_queries (r : Ring w) {queries : List Call}
    (silent : ∀ query ∈ queries, query.recorded = none) (c : Call) :
    (r.after (queries ++ [c])).buckets = recordIn (r.after (queries ++ [c])).mostRecent
      (clear r.buckets (r.rotations (queries ++ [c]))) c.recorded.toList := by
  induction queries generalizing r with
  | nil =>
    simp only [List.nil_append, rotations, List.append_nil]
    exact r.buckets_step c
  | cons query queries ih =>
    have asked := step_of_not_recorded r (silent query List.mem_cons_self)
    have later := ih (r.step query) fun other member => silent other (List.mem_cons_of_mem _ member)
    rw [List.cons_append, after_cons, rotations, later, asked, buckets_rotate]
    simp [clear, List.foldl_append]

theorem ticks_rotations (r : Ring w) (calls : List Call) :
    ((r.rotations calls).map (·.tick)).Sublist (calls.map (·.tick)) := by
  induction calls generalizing r with
  | nil => exact List.Sublist.slnil
  | cons c calls ih =>
    have later := ih (r.step c)
    rw [rotations]
    rw [rotate]
    split
    · exact later.cons_cons c.tick
    · exact later.cons c.tick

/-- What a request did, told by the rotations it reported: at most one for each poll, and each of
them emptied the bucket that it entered. All else is the records, in the most recent bucket. -/
structure Explains (r r' : Ring w) (ticks hashes : List UInt64) (rotations : List Rotation) :
    Prop where
  polled : (rotations.map (·.tick)).Sublist ticks
  buckets : r'.buckets = recordIn r'.mostRecent (clear r.buckets rotations) hashes

theorem explains_rotations (r : Ring w) {queries : List Call}
    (silent : ∀ query ∈ queries, query.recorded = none) (c : Call) :
    r.Explains (r.after (queries ++ [c])) ((queries ++ [c]).map (·.tick)) c.recorded.toList
      (r.rotations (queries ++ [c])) :=
  ⟨r.ticks_rotations _, r.buckets_after_queries silent c⟩

theorem recorded_call (r : Ring w) (env : Environment) (q : Request) :
    (r.call (env, q)).recorded = q.recorded := by
  cases q <;> rfl

theorem explains_serve (r : Ring w) (env : Environment) (q : Request) :
    r.Explains (r.serve env q).state [(env.poll r.source).1] q.recorded.toList
      (r.rotations [r.call (env, q)]) := by
  rw [r.state_serve, ← r.recorded_call env q]
  exact r.explains_rotations (List.forall_mem_nil _) (r.call (env, q))

end Ring

/-! ### Trackers -/

namespace Tracker

/-- The ticks that a request reads, one for each poll. -/
def ticks (source : TickSource) (env : Environment) : Request → List UInt64
  | .recordAndEstimate _ =>
    let first := env.poll source
    [first.1, (first.2.poll source).1]
  | .record _ | .estimates _ | .itemCounts => [(env.poll source).1]

theorem rotated_notMem_buildEvents (c : Config) (ring : Ring w) (rotation : Rotation) :
    .rotated rotation ∉ buildEvents c ring := by
  simp only [buildEvents]
  split <;> simp

/-- A request comes to at most one record, in its last call. -/
theorem calls_eq_append (t : Tracker w) (env : Environment) (q : Request) :
    ∃ queries c, t.calls ⟨env, q⟩ = queries ++ [c] ∧
      (∀ query ∈ queries, query.recorded = none) ∧
      (queries ++ [c]).map (·.tick) = ticks t.ring.source env q ∧
      c.recorded.toList = t.recorded [q] := by
  cases q with
  | recordAndEstimate key =>
    refine ⟨[⟨(env.poll t.ring.source).1, .estimates (t.hasher.hash key)⟩], _, rfl, ?_, rfl, rfl⟩
    simp [Ring.Call.recorded]
  | record key => exact ⟨[], _, rfl, by simp, rfl, rfl⟩
  | estimates key => exact ⟨[], _, rfl, by simp, rfl, rfl⟩
  | itemCounts => exact ⟨[], _, rfl, by simp, rfl, rfl⟩

theorem explains_serve (t : Tracker w) (hr : 0 < t.ring.size) (env : Environment) (q : Request) :
    t.ring.Explains (t.serve env q).state.ring (ticks t.ring.source env q) (t.recorded [q])
      (t.ring.rotations (t.calls ⟨env, q⟩)) := by
  obtain ⟨queries, c, calls, silent, polled, recorded⟩ := t.calls_eq_append env q
  have state : (t.serve env q).state.ring = t.ring.after (t.calls ⟨env, q⟩) :=
    t.ring_step hr ⟨env, q⟩
  rw [state, calls, ← polled, ← recorded]
  exact t.ring.explains_rotations silent c

end Tracker

/-- In every run of a ring or a tracker, from its construction on, the rotations that are reported
lead the most recent bucket from the first place to where it is. At each request on the way, there
is at most one for each poll of the ticker, and the buckets are emptied at these and at no other
time. -/
theorem rotations_trace_mostRecent :
    (∀ (counters : Array (Counter w)) (span : UInt64) (source : TickSource) (r : Ring w),
      Ring.ofCounters counters span source = .ok r →
      ∀ visits : List (Environment × Ring.Request),
        let now := (serveEach Ring.serve r visits).2
        (∃ log, reportEach Ring.serve r visits = log.map .rotated ∧
          Rotation.Traces counters.size span.toNat 0 log now.mostRecent) ∧
        ∀ (env : Environment) (q : Ring.Request), ∃ rotations,
          (now.serve env q).env.log.toList = env.log.toList ++ rotations.map .rotated ∧
          now.Explains (now.serve env q).state [(env.poll source).1] q.recorded.toList rotations) ∧
    ∀ (config : Config) (t : Tracker w) (events : List Event),
      Tracker.ofConfig config = .ok (t, events) →
      (∀ rotation, .rotated rotation ∉ events) ∧
      ∀ visits : List (Environment × Tracker.Request),
        let now := (serveEach Tracker.serve t visits).2
        (∃ log, reportEach Tracker.serve t visits = log.map .rotated ∧
          Rotation.Traces config.bucketCount.toNat config.ticksPerBucket.toNat 0 log
            now.ring.mostRecent) ∧
        ∀ (env : Environment) (q : Tracker.Request), ∃ rotations,
          (now.serve env q).env.log.toList = env.log.toList ++ rotations.map .rotated ∧
          now.ring.Explains (now.serve env q).state.ring (Tracker.ticks config.source env q)
            (t.recorded [q]) rotations := by
  constructor
  · intro counters span source r built visits now
    obtain ⟨holds, first, ticks, polls, hr⟩ := Ring.of_ofCounters built
    obtain ⟨size, -, kept⟩ := r.frame_serveEach visits
    constructor
    · refine ⟨_, r.reportEach_eq hr visits, ?_⟩
      have traces := r.traces_rotations hr (visits.map r.call)
      rwa [← r.state_serveEach, first, ticks, holds.size_eq] at traces
    · intro env q
      refine ⟨_, now.toList_log_serve (hr.trans_eq size.symm) env q, ?_⟩
      have explains := now.explains_serve env q
      rwa [show now.source = source from kept.trans polls] at explains
  · intro config t events built
    obtain ⟨-, counter, -, in_ring, -, reported⟩ := Tracker.of_ofConfig built
    obtain ⟨holds, first, ticks, polls, hr⟩ := Ring.of_ofCounters in_ring
    rw [reported]
    refine ⟨Tracker.rotated_notMem_buildEvents config t.ring, ?_⟩
    intro visits now
    obtain ⟨size, -, kept⟩ := t.frame_serveEach hr visits
    constructor
    · refine ⟨_, t.reportEach_eq hr visits, ?_⟩
      have traces := t.ring.traces_rotations hr (t.callsOf visits)
      rwa [← t.ring_serveEach hr, first, ticks, holds.size_eq, Array.size_replicate] at traces
    · intro env q
      refine ⟨_, now.toList_log_serve (hr.trans_eq size.symm) env q, ?_⟩
      have explains := now.explains_serve (hr.trans_eq size.symm) env q
      rwa [show now.ring.source = config.source from kept.trans polls,
        Tracker.recorded_congr (t.hasher_serveEach visits)] at explains

/-- Twice ahead, once late without a rotation, and then back to the first slice. A request that reads
two slices has the ticks of both. -/
theorem rotations_trace_mostRecent_back :
    (Ring.ofCounters Ring.mixedCounters 2 (.attached 0) = .ok .mixed ∧
      reportEach Ring.serve Ring.mixed [(.atTick 2, .record 7), (.atTick 4, .record 8),
          (.atTick 2, .itemCounts), (.atTick 0, .update)] =
        [.rotated ⟨0, 1, 2⟩, .rotated ⟨1, 2, 4⟩, .rotated ⟨2, 0, 0⟩] ∧
      Rotation.Traces 3 2 0 [⟨0, 1, 2⟩, ⟨1, 2, 4⟩, ⟨2, 0, 0⟩] 0) ∧
    ∃ (t : Tracker .bits8) (events : List Event), Tracker.ofConfig (.oneRow 3) = .ok (t, events) ∧
      ∃ rotations, t.ring.Explains
        (t.serve { attached := fun _ => .script #[10, 20] 0 } (.recordAndEstimate "a".toUTF8)).state.ring
        [10, 20] (t.recorded [.recordAndEstimate "a".toUTF8]) rotations := by
  obtain ⟨rings, trackers⟩ := rotations_trace_mostRecent (w := .bits8)
  constructor
  · obtain ⟨⟨log, reported, traces⟩, -⟩ := rings Ring.mixedCounters 2 (.attached 0) .mixed
      Ring.ofCounters_mixedCounters [(.atTick 2, .record 7), (.atTick 4, .record 8),
        (.atTick 2, .itemCounts), (.atTick 0, .update)]
    have read : reportEach Ring.serve Ring.mixed [(.atTick 2, .record 7), (.atTick 4, .record 8),
          (.atTick 2, .itemCounts), (.atTick 0, .update)] =
        [⟨0, 1, 2⟩, ⟨1, 2, 4⟩, ⟨2, 0, 0⟩].map .rotated := by decide
    have same : log = [⟨0, 1, 2⟩, ⟨1, 2, 4⟩, ⟨2, 0, 0⟩] := by
      have injective : Function.Injective Event.rotated := fun _ _ h => Event.rotated.inj h
      exact List.map_injective_iff.mpr injective (reported.symm.trans read)
    rw [same] at traces
    exact ⟨Ring.ofCounters_mixedCounters, read, traces⟩
  · obtain ⟨t, events, built⟩ := Tracker.exists_ofConfig_oneRow (w := .bits8)
      (show (3 : UInt64) ≠ 0 by decide)
    obtain ⟨-, runs⟩ := trackers (.oneRow 3) t events built
    obtain ⟨rotations, -, explains⟩ := (runs []).2 { attached := fun _ => .script #[10, 20] 0 }
      (.recordAndEstimate "a".toUTF8)
    exact ⟨t, events, built, rotations, explains⟩

end AccessHistory
