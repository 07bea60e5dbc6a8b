import AccessHistory.Proofs.Construction
import AccessHistory.Proofs.OneTick
import AccessHistory.Proofs.ServedRuns

/-!
The warning that a tracker never rotates is exact. In a ring of one or two buckets every place is
the most recent one or the one before it, so all records stay in one bucket. In a larger ring one of
the first three slices is due at any time.
-/

set_option autoImplicit false
set_option relaxedAutoImplicit false

namespace AccessHistory

variable {w : CellWidth}

/-! ### Small rings -/

namespace Ring

variable {r : Ring w}

theorem isCurrent_of_size_le (hr : 0 < r.size) (few : r.size ≤ 2) {i : Nat} (hi : i < r.size) :
    r.IsCurrent i := by
  have newest := r.mostRecent_lt hr
  have sizes : r.size = 1 ∨ r.size = 2 := by omega
  unfold IsCurrent
  rcases sizes with one | two
  · omega
  · rw [two] at hi newest ⊢
    omega

theorem rotate_of_size_le (hr : 0 < r.size) (few : r.size ≤ 2) (tick : UInt64) :
    r.rotate tick = (r, none) :=
  r.rotate_of_isCurrent tick (isCurrent_of_size_le hr few (r.target_lt tick hr))

theorem rotations_of_size_le (hr : 0 < r.size) (few : r.size ≤ 2) (calls : List Call) :
    r.rotations calls = [] := by
  induction calls generalizing r with
  | nil => rfl
  | cons c calls ih =>
    have size := (r.frame_step c).1
    rw [rotations, rotate_of_size_le hr few, ih (by omega) (by omega)]
    rfl

theorem step_of_size_le (hr : 0 < r.size) (few : r.size ≤ 2) (c : Call) :
    r.step c = (r.respond c.request).2 := by
  simp only [step, respondAt, rotate_of_size_le hr few]

theorem mostRecent_after_of_size_le (hr : 0 < r.size) (few : r.size ≤ 2) (calls : List Call) :
    (r.after calls).mostRecent = r.mostRecent := by
  induction calls generalizing r with
  | nil => rfl
  | cons c calls ih =>
    have size := (r.frame_step c).1
    rw [after_cons, ih (by omega) (by omega), step_of_size_le hr few]
    cases c.request <;> rfl

/-- All records of a run go to the bucket that was the most recent one from the start. -/
theorem newestFirst_after_of_size_le (hr : 0 < r.size) (few : r.size ≤ 2) {newest : Bucket w}
    {older : List (Bucket w)} (h : r.newestFirst id = newest :: older) (calls : List Call) :
    (r.after calls).newestFirst id =
      newest.recordAll (calls.filterMap Call.recorded) :: older := by
  induction calls generalizing r newest with
  | nil => exact h
  | cons c calls ih =>
    obtain ⟨tick, request⟩ := c
    rw [after_cons, step_of_size_le hr few]
    cases request with
    | record hash =>
      refine ih ?_ ?_ (r.newestFirst_recordNewest hash h)
      · rwa [respond, size_recordNewest]
      · rwa [respond, size_recordNewest]
    | update => exact ih hr few h
    | estimates hash => exact ih hr few h
    | itemCounts => exact ih hr few h

/-! ### Larger rings -/

/-- One of the first three places is neither the most recent one nor the one before it. -/
theorem exists_not_isCurrent (hr : 3 ≤ r.size) : ∃ i ≤ 2, ¬ r.IsCurrent i := by
  have newest := r.mostRecent_lt (by omega)
  have next : (1 + 1) % r.size = 2 := Nat.mod_eq_of_lt (by omega)
  have first : (0 + 1) % r.size = 1 := Nat.mod_eq_of_lt (by omega)
  unfold IsCurrent
  -- Two neighbours are current, and the place taken here is never one of them. Of three buckets, the
  -- last one has the first one as its successor.
  rcases Nat.lt_trichotomy r.mostRecent 1 with at_first | at_second | beyond
  · exact ⟨1, by omega, by omega⟩
  · refine ⟨2, by omega, ?_⟩
    rw [at_second]
    rcases Nat.lt_or_ge 3 r.size with large | three
    · rw [Nat.mod_eq_of_lt large]
      omega
    · rw [show r.size = 3 by omega]
      decide
  · exact ⟨0, by omega, by omega⟩

theorem target_mul {i : Nat} (hi : i < r.size) (fits : i * r.ticksPerBucket.toNat < 2 ^ 64) :
    r.target (.ofNat (i * r.ticksPerBucket.toNat)) = i := by
  rw [target, slice, UInt64.toNat_ofNat_of_lt' fits, Nat.mul_div_cancel i r.span_pos,
    Nat.mod_eq_of_lt hi]

/-- Some tick is due, as the first three slices begin before the last tick. -/
theorem exists_due (hr : 3 ≤ r.size) (fits : r.ticksPerBucket.toNat < 2 ^ 63) :
    ∃ tick, ¬ r.IsCurrent (r.target tick) := by
  obtain ⟨i, early, due⟩ := exists_not_isCurrent hr
  have small : i * r.ticksPerBucket.toNat ≤ 2 * r.ticksPerBucket.toNat :=
    Nat.mul_le_mul_right _ early
  refine ⟨.ofNat (i * r.ticksPerBucket.toNat), ?_⟩
  rwa [target_mul (by omega) (by omega)]

/-- Before the first rotation, the second slice is due. -/
theorem second_due (hr : 3 ≤ r.size) (first : r.mostRecent = 0) :
    ¬ r.IsCurrent (r.target r.ticksPerBucket) := by
  have second : r.target r.ticksPerBucket = 1 := by
    rw [target, slice, Nat.div_self r.span_pos, Nat.mod_eq_of_lt (by omega)]
  have next : (1 + 1) % r.size = 2 := Nat.mod_eq_of_lt (by omega)
  rw [second]
  simp only [IsCurrent]
  omega

theorem newestFirst_of_replicate {n : Nat} {b : Bucket w} (h : r.buckets = .replicate n b) :
    r.newestFirst id = .replicate n b := by
  have size : r.size = n := by rw [Ring.size, h, Array.size_replicate]
  rw [← size, ← length_newestFirst r id, List.eq_replicate_iff]
  refine ⟨rfl, ?_⟩
  intro other shown
  obtain ⟨i, -, rfl⟩ := List.mem_map.mp shown
  simp [h]

end Ring

/-! ### Trackers -/

namespace Tracker

theorem filterMap_recorded_callsOf (t : Tracker w) (visits : List (Environment × Request)) :
    (t.callsOf visits).filterMap Ring.Call.recorded = t.recorded (visits.map (·.2)) := by
  induction visits with
  | nil => rfl
  | cons visit visits ih =>
    obtain ⟨env, q⟩ := visit
    rw [List.map_cons, recorded_cons, ← ih, callsOf, List.flatMap_cons, List.filterMap_append]
    cases q <;> rfl

/-- A request at a tick that is due reports the rotation. -/
theorem rotated_mem_newsSince (t : Tracker w) (hr : 0 < t.ring.size) {env : Environment}
    (q : Request) (due : ¬ t.ring.IsCurrent (t.ring.target (env.poll t.ring.source).1)) :
    .rotated ⟨t.ring.mostRecent, t.ring.target (env.poll t.ring.source).1,
      (env.poll t.ring.source).1⟩ ∈ (t.serve env q).env.newsSince env := by
  have rotates := t.ring.rotate_of_not_isCurrent _ hr due
  rw [Environment.newsSince_eq (t.toList_log_serve hr env q)]
  cases q <;> simp [calls, Ring.rotations, rotates]

theorem warned_iff {c : Config} {t : Tracker w} {events : List Event}
    (h : ofConfig c = .ok (t, events)) :
    (∃ n, .neverRotates n ∈ events) ↔ t.ring.size ≤ 2 := by
  obtain ⟨counter, described⟩ := isAsDescribed_of_ofConfig h
  rw [described.events, described.size_eq]
  split <;> simp [*]

theorem IsAsDescribed.newestFirst_serveEach {c : Config} {counter : Counter w} {t : Tracker w}
    {events : List Event} (h : IsAsDescribed c counter t events) (hr : 0 < t.ring.size)
    (few : t.ring.size ≤ 2) (visits : List (Environment × Request)) :
    (serveEach serve t visits).2.ring.newestFirst id =
      .fill counter (t.recorded (visits.map (·.2))) ::
        .replicate (c.bucketCount.toNat - 1) (.ofCounter counter) := by
  have size := h.size_eq
  have first : t.ring.newestFirst id =
      .ofCounter counter :: .replicate (c.bucketCount.toNat - 1) (.ofCounter counter) := by
    rw [Ring.newestFirst_of_replicate h.buckets, ← List.replicate_succ,
      Nat.sub_add_cancel (size ▸ hr)]
    rfl
  rw [t.ring_serveEach hr, Ring.newestFirst_after_of_size_le hr few first,
    filterMap_recorded_callsOf, Bucket.recordAll_eq, Bucket.ofCounter, Nat.zero_add]
  rfl

theorem itemCounts_of_size_le (t : Tracker w) (hr : 0 < t.ring.size) (few : t.ring.size ≤ 2)
    (env : Environment) :
    (t.serve env .itemCounts).answer = .numbers (t.ring.newestFirst (·.itemCount)) := by
  have stays : (t.step ⟨env, .itemCounts⟩).ring = t.ring := by
    rw [t.ring_step hr]
    exact Ring.step_of_size_le hr few ⟨(env.poll t.ring.source).1, .itemCounts⟩
  have answer := t.answer_itemCounts env
  rwa [stays] at answer

end Tracker

/-- A tracker is built with the warning exactly if no run of it ever reports a rotation. With the
warning, the first bucket stays the most recent one, and all records of every run are in it. Without
it, and with less than half of all ticks to a bucket, some tick rotates the ring after every run. -/
theorem neverRotates_iff (config : Config) (t : Tracker w) (events : List Event)
    (built : Tracker.ofConfig config = .ok (t, events)) :
    ((∃ n, .neverRotates n ∈ events) ↔
      ∀ (visits : List (Environment × Tracker.Request)) (rotation : Rotation),
        .rotated rotation ∉ reportEach Tracker.serve t visits) ∧
    ((∃ n, .neverRotates n ∈ events) →
      ∃ counter, Counter.ofConfig config = .ok counter ∧
        ∀ (visits : List (Environment × Tracker.Request)) (env : Environment),
          let now := (serveEach Tracker.serve t visits).2
          now.ring.mostRecent = 0 ∧
          (now.serve env .itemCounts).answer = .numbers (visits.countP (·.2.isRecord) ::
            .replicate (config.bucketCount.toNat - 1) 0) ∧
          now.ring.newestFirst id = .fill counter (t.recorded (visits.map (·.2))) ::
            .replicate (config.bucketCount.toNat - 1) (.ofCounter counter)) ∧
    ((¬ ∃ n, .neverRotates n ∈ events) → config.ticksPerBucket.toNat < 2 ^ 63 →
      ∀ visits : List (Environment × Tracker.Request), ∃ tick, ∀ (env : Environment)
        (q : Tracker.Request), (env.poll config.source).1 = tick →
          let now := (serveEach Tracker.serve t visits).2
          ∃ rotation, .rotated rotation ∈ (now.serve env q).env.newsSince env) := by
  obtain ⟨counter, described⟩ := Tracker.isAsDescribed_of_ofConfig built
  have hr : 0 < t.ring.size := Tracker.size_pos_of_ofConfig built
  rw [Tracker.warned_iff built]
  refine ⟨⟨?_, ?_⟩, ?_, ?_⟩
  · intro few visits rotation
    rw [t.reportEach_eq hr, Ring.rotations_of_size_le hr few]
    exact List.not_mem_nil
  · intro never
    by_contra many
    let visit : Environment × Tracker.Request := (.atTick t.ring.ticksPerBucket, .itemCounts)
    have polled := Environment.poll_atTick t.ring.ticksPerBucket t.ring.source
    have due := Ring.second_due (Nat.lt_of_not_le many) described.mostRecent
    rw [← polled] at due
    exact never [visit] _ (List.mem_append_left _ (t.rotated_mem_newsSince hr visit.2 due))
  · intro few
    refine ⟨counter, described.sized, ?_⟩
    intro visits env now
    obtain ⟨size, -, -⟩ := t.frame_serveEach hr visits
    have shown := described.newestFirst_serveEach hr few visits
    refine ⟨?_, ?_, shown⟩
    · rw [t.ring_serveEach hr, Ring.mostRecent_after_of_size_le hr few, described.mostRecent]
    · rw [now.itemCounts_of_size_le (hr.trans_eq size.symm) (size.trans_le few),
        Ring.newestFirst_eq_map, shown, List.map_cons, List.map_replicate, Bucket.fill,
        Tracker.length_recorded, List.countP_map]
      rfl
  · intro many fits visits
    obtain ⟨size, span, source⟩ := t.frame_serveEach hr visits
    rw [← described.ticksPerBucket, ← span] at fits
    obtain ⟨tick, due⟩ := Ring.exists_due (by omega) fits
    refine ⟨tick, ?_⟩
    intro env q polled now
    rw [← described.source, ← source] at polled
    rw [← polled] at due
    exact ⟨_, now.rotated_mem_newsSince (hr.trans_eq size.symm) q due⟩

/-- Two records, four slices apart, stay in the first one of two buckets. With three buckets, some
tick rotates the ring after the same records. -/
theorem neverRotates_iff_oneRow :
    (∃ (t : Tracker .bits8) (events : List Event), Tracker.ofConfig (.oneRow 2) = .ok (t, events) ∧
      (∃ n, .neverRotates n ∈ events) ∧
      ((serveEach Tracker.serve t [(.atTick 0, .record "a".toUTF8),
        (.atTick 45, .recordAndEstimate "b".toUTF8)]).2.serve (.atTick 19) .itemCounts).answer =
          .numbers [2, 0]) ∧
    ∃ (t : Tracker .bits8) (events : List Event), Tracker.ofConfig (.oneRow 3) = .ok (t, events) ∧
      (¬ ∃ n, .neverRotates n ∈ events) ∧
      (∃ visits rotation, .rotated rotation ∈ reportEach Tracker.serve t visits) ∧
      ∃ tick rotation, .rotated rotation ∈ ((serveEach Tracker.serve t [(.atTick 0,
        .record "a".toUTF8), (.atTick 45, .recordAndEstimate "b".toUTF8)]).2.serve (.atTick tick)
          .itemCounts).env.newsSince (.atTick tick) := by
  constructor
  · obtain ⟨t, events, built⟩ := Tracker.exists_ofConfig_oneRow (w := .bits8)
      (show (2 : UInt64) ≠ 0 by decide)
    obtain ⟨counter, described⟩ := Tracker.isAsDescribed_of_ofConfig built
    have warned : ∃ n, .neverRotates n ∈ events :=
      (Tracker.warned_iff built).mpr described.size_eq.le
    obtain ⟨-, keeps, -⟩ := neverRotates_iff (.oneRow 2) t events built
    obtain ⟨_, -, all⟩ := keeps warned
    exact ⟨t, events, built, warned, (all _ (.atTick 19)).2.1⟩
  · obtain ⟨t, events, built⟩ := Tracker.exists_ofConfig_oneRow (w := .bits8)
      (show (3 : UInt64) ≠ 0 by decide)
    obtain ⟨counter, described⟩ := Tracker.isAsDescribed_of_ofConfig built
    have silent : ¬ ∃ n, .neverRotates n ∈ events := by
      rw [Tracker.warned_iff built, described.size_eq]
      decide
    obtain ⟨exact_warning, -, rotates⟩ := neverRotates_iff (.oneRow 3) t events built
    obtain ⟨tick, due⟩ := rotates silent (by decide) [(.atTick 0, .record "a".toUTF8),
      (.atTick 45, .recordAndEstimate "b".toUTF8)]
    refine ⟨t, events, built, silent, ?_, tick, due (.atTick tick) .itemCounts rfl⟩
    simpa [exact_warning] using silent

end AccessHistory
