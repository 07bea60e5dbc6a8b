import AccessHistory.Proofs.BucketContents
import AccessHistory.Proofs.OneTick

/-!
What records add to estimates. Records of a key at one tick raise the newest estimate of the key by
exactly their number, as far as cells count; those of other keys they raise by no more, and no older
number changes.
-/

set_option autoImplicit false
set_option relaxedAutoImplicit false

namespace AccessHistory

variable {w : CellWidth}

/-! ### Sketches -/

namespace Sketch

/-- Records never lower an estimate, and raise it by no more than their number. -/
theorem estimate_recordAll_bounds (s : Sketch w) (hashes : List UInt64) (hash : UInt64) :
    s.estimate hash ≤ (s.recordAll hashes).estimate hash ∧
      (s.recordAll hashes).estimate hash ≤ s.estimate hash + hashes.length := by
  obtain ⟨⟨before, least⟩, below⟩ := s.estimate_spec hash
  obtain ⟨⟨after, least'⟩, below'⟩ := (s.recordAll hashes).estimate_spec hash
  have raised := s.count_cell_recordAll hashes hash before
  have raised' := s.count_cell_recordAll hashes hash (after.cast (s.depth_recordAll hashes))
  have few : hashes.countP (column s.width before · = column s.width before hash) ≤
      hashes.length := List.countP_le_length
  have bound := below (after.cast (s.depth_recordAll hashes))
  have bound' := below' (before.cast (s.depth_recordAll hashes).symm)
  have full := (s.cell hash (after.cast (s.depth_recordAll hashes))).count_le
  change ((s.recordAll hashes).cell hash after).count = _ at raised'
  omega

/-- Records of one key raise its cells in all rows alike, and hence its estimate. -/
theorem estimate_replicate (s : Sketch w) (hash : UInt64) (q : Nat) :
    (s.recordAll (List.replicate q hash)).estimate hash = min w.max (s.estimate hash + q) := by
  obtain ⟨⟨before, least⟩, below⟩ := s.estimate_spec hash
  obtain ⟨⟨after, least'⟩, below'⟩ := (s.recordAll (List.replicate q hash)).estimate_spec hash
  have depth := s.depth_recordAll (List.replicate q hash)
  have raised (row : Fin s.depth) :
      ((s.recordAll (List.replicate q hash)).cell hash (row.cast depth.symm)).count =
        min ((s.cell hash row).count + q) w.max := by
    rw [s.count_cell_recordAll, List.countP_replicate, if_pos (decide_eq_true rfl)]
  have raised_before := raised before
  have raised_after := raised (after.cast depth)
  have bound := below (after.cast depth)
  have bound' := below' (before.cast depth.symm)
  change ((s.recordAll (List.replicate q hash)).cell hash after).count = _ at raised_after
  omega

end Sketch

/-! ### Counters -/

/-- A key that counts as seen stays so through records. -/
theorem Filter.contains_recordAll {f : Filter} {hash : UInt64} (seen : f.contains hash = true)
    (hashes : List UInt64) : (f.recordAll hashes).contains hash = true := by
  rw [contains_eq_true_iff] at seen ⊢
  intro j covered
  rw [positions_recordAll] at covered
  exact (f.contains_bits_recordAll hashes j).mpr (.inr (seen j covered))

namespace Counter

theorem kind_recordAll (c : Counter w) (hashes : List UInt64) :
    (c.recordAll hashes).kind = c.kind :=
  foldl_keeps record kind (fun d _ => by cases d <;> rfl) c hashes

/-- What the estimate `n` of a key comes to after `q` more records of the key. -/
def raised (w : CellWidth) (n q : Nat) : CounterKind → Nat
  | .sketch => min w.max (n + q)
  | .filter => 1

theorem estimate_replicate (c : Counter w) (hash : UInt64) {q : Nat} (hq : 0 < q) :
    (c.recordAll (List.replicate q hash)).estimate hash = raised w (c.estimate hash) q c.kind := by
  cases c with
  | sketch s =>
    rw [recordAll_sketch]
    exact s.estimate_replicate hash q
  | filter f =>
    rw [recordAll_filter]
    exact f.estimate_recordAll_of_mem (List.mem_replicate.mpr ⟨by omega, rfl⟩)

/-- Records never lower an estimate, raise it by no more than their number, and that of a filter to
no more than one. -/
theorem estimate_recordAll_bounds (c : Counter w) (hashes : List UInt64) (hash : UInt64) :
    c.estimate hash ≤ (c.recordAll hashes).estimate hash ∧
      (c.recordAll hashes).estimate hash ≤ c.estimate hash + hashes.length ∧
      (c.kind = .filter → (c.recordAll hashes).estimate hash ≤ 1) := by
  cases c with
  | sketch s =>
    rw [recordAll_sketch]
    obtain ⟨least, most⟩ := s.estimate_recordAll_bounds hashes hash
    refine ⟨least, most, ?_⟩
    intro filter
    cases filter
  | filter f =>
    rw [recordAll_filter]
    have one := (f.recordAll hashes).estimate_le_one hash
    refine ⟨?_, ?_, fun _ => one⟩
    · show f.estimate hash ≤ (f.recordAll hashes).estimate hash
      by_cases seen : f.contains hash = true
      · have seen' := Filter.contains_recordAll seen hashes
        rw [Filter.estimate, Filter.estimate, if_pos seen, if_pos seen']
      · rw [Filter.estimate, if_neg seen]
        exact Nat.zero_le _
    · show (f.recordAll hashes).estimate hash ≤ f.estimate hash + hashes.length
      cases hashes with
      | nil => exact Nat.le_add_right _ _
      | cons first hashes =>
        rw [List.length_cons]
        omega

end Counter

/-! ### Trackers -/

namespace Tracker

/-- The answer to a request once others have been served. -/
def answerAfter (t : Tracker w) (env : Environment) (qs : List Request) (q : Request) : Answer :=
  (t.serveAll env qs).1.answer ⟨(t.serveAll env qs).2, q⟩

theorem serveAll_append_singleton (t : Tracker w) (env : Environment) (qs : List Request)
    (q : Request) :
    (t.serveAll env (qs ++ [q])).1 = (t.serveAll env qs).1.step ⟨(t.serveAll env qs).2, q⟩ := by
  unfold serveAll
  rw [List.foldl_append]
  rfl

theorem hasher_serveAll (t : Tracker w) (env : Environment) (qs : List Request) :
    (t.serveAll env qs).1.hasher = t.hasher := by
  rw [serveAll_eq_ring]

theorem recorded_append (t : Tracker w) (qs later : List Request) :
    t.recorded (qs ++ later) = t.recorded qs ++ t.recorded later := by
  rw [recorded, List.flatMap_append, List.filterMap_append]
  rfl

theorem recorded_replicate (t : Tracker w) (key : ByteArray) (q : Nat) :
    t.recorded (List.replicate q (.recordAndEstimate key)) =
      List.replicate q (t.hasher.hash key) := by
  induction q with
  | zero => rfl
  | succ q ih =>
    rw [List.replicate_succ, recorded_cons, ih, List.replicate_succ]
    rfl

section

variable {t : Tracker w} {env : Environment} {tick : UInt64} {newest : Bucket w}
  {older : List (Bucket w)}

/-- Estimates at one tick are read off the rotated ring with all records in its newest bucket. -/
theorem answerAfter_estimates (ht : 0 < t.ring.size) (stands : env.Stands t.ring.source tick)
    (rotated : (t.ring.rotate tick).1.newestFirst id = newest :: older) (qs : List Request)
    (key : ByteArray) :
    t.answerAfter env qs (.estimates key) =
      .numbers (((newest.recordAll (t.recorded qs)).estimate (t.hasher.hash key)) ::
        older.map (·.estimate (t.hasher.hash key))) := by
  have served := newestFirst_serveAll ht stands rotated (qs ++ [.estimates key])
    (List.append_ne_nil_of_right_ne_nil qs (List.cons_ne_nil _ _))
  have silent : t.recorded [.estimates key] = [] := rfl
  rw [recorded_append, silent, List.append_nil] at served
  rw [answerAfter, answer_estimates, hasher_serveAll, ← serveAll_append_singleton,
    Ring.newestFirst_eq_map, served]
  rfl

theorem answerAfter_itemCounts (ht : 0 < t.ring.size) (stands : env.Stands t.ring.source tick)
    (rotated : (t.ring.rotate tick).1.newestFirst id = newest :: older) (qs : List Request) :
    t.answerAfter env qs .itemCounts =
      .numbers ((newest.recordAll (t.recorded qs)).itemCount :: older.map (·.itemCount)) := by
  have served := newestFirst_serveAll ht stands rotated (qs ++ [.itemCounts])
    (List.append_ne_nil_of_right_ne_nil qs (List.cons_ne_nil _ _))
  have silent : t.recorded [.itemCounts] = [] := rfl
  rw [recorded_append, silent, List.append_nil] at served
  rw [answerAfter, answer_itemCounts, ← serveAll_append_singleton, Ring.newestFirst_eq_map, served]
  rfl

end

/-- All buckets of a tracker are of its config's kind, whatever it was asked. -/
theorem IsBuiltOver.kind_newest {t : Tracker w} {counter : Counter w} (h : t.IsBuiltOver counter)
    (visits : List Visit) {tick : UInt64} {newest : Bucket w} {older : List (Bucket w)}
    (rotated : ((t.after visits).ring.rotate tick).1.newestFirst id = newest :: older) :
    newest.counter.kind = t.config.kind := by
  let r := t.ring.after (t.allCalls visits ++ [⟨tick, .update⟩])
  have checked : ((t.after visits).ring.rotate tick).1 = r := by
    rw [t.ring_after h.nonempty]
    exact (t.ring.after_append _ [⟨tick, .update⟩]).symm
  have holds := (Ring.of_ofCounters h.ring).1.after h.fresh_copies
    (t.allCalls visits ++ [⟨tick, .update⟩])
  have nonempty : 0 < r.size := by
    rw [Ring.size_after]
    exact h.nonempty
  have first := r.getElem?_newestFirst id nonempty
  rw [← checked, rotated, checked, holds, Array.getElem?_replicate] at first
  split at first
  · cases first
    exact (counter.kind_recordAll _).trans h.kind
  · cases first

/-- Asking for the estimates of a key while recording it answers what asking alone would have
answered. Doing so `q` times at one tick raises the newest estimate of the key by exactly `q`, as
far as cells count, or to one; that of any other key by no more than `q`, or to no more than one;
the newest raw count by exactly `q`; and no older number. -/
theorem recordAndEstimate_repeated :
    (∀ (config : Config) (t : Tracker w) (events : List Event),
      ofConfig config = .ok (t, events) →
        t.config = config ∧ ∃ counter, t.IsBuiltOver counter) ∧
    ∀ (t : Tracker w) (counter : Counter w), t.IsBuiltOver counter →
      ∀ (visits : List Visit) (env : Environment) (tick : UInt64),
        env.Stands (t.after visits).ring.source tick → ∀ (key : ByteArray) (q : Nat), 0 < q →
          (∃ newest older,
            (t.after visits).answer ⟨env, .recordAndEstimate key⟩ = .numbers (newest :: older) ∧
            (t.after visits).answer ⟨env, .estimates key⟩ = .numbers (newest :: older) ∧
            (t.after visits).answerAfter env (.replicate q (.recordAndEstimate key))
              (.estimates key) = .numbers (Counter.raised w newest q t.config.kind :: older)) ∧
          (∀ other : ByteArray, ∃ newest newest' older,
            (t.after visits).answer ⟨env, .estimates other⟩ = .numbers (newest :: older) ∧
            (t.after visits).answerAfter env (.replicate q (.recordAndEstimate key))
              (.estimates other) = .numbers (newest' :: older) ∧
            newest ≤ newest' ∧ newest' ≤ newest + q ∧
            (t.config.kind = .filter → newest' ≤ 1)) ∧
          ∃ newest older,
            (t.after visits).answer ⟨env, .itemCounts⟩ = .numbers (newest :: older) ∧
            (t.after visits).answerAfter env (.replicate q (.recordAndEstimate key)) .itemCounts =
              .numbers ((newest + q) :: older) := by
  refine ⟨fun _ _ _ built => isBuiltOver_of_ofConfig built, ?_⟩
  intro t counter h visits env tick stands key q hq
  have nonempty : 0 < (t.after visits).ring.size := by
    rw [t.ring_after h.nonempty, Ring.size_after]
    exact h.nonempty
  cases rotated : ((t.after visits).ring.rotate tick).1.newestFirst id with
  | nil =>
    have size := congrArg List.length rotated
    rw [Ring.length_newestFirst, Ring.size_rotate, List.length_nil] at size
    omega
  | cons newest older =>
    have kind := h.kind_newest visits rotated
    have before (asked : ByteArray) := answerAfter_estimates nonempty stands rotated [] asked
    have after (asked : ByteArray) := answerAfter_estimates nonempty stands rotated
      (.replicate q (.recordAndEstimate key)) asked
    have counts := answerAfter_itemCounts nonempty stands rotated []
    have counts' := answerAfter_itemCounts nonempty stands rotated
      (.replicate q (.recordAndEstimate key))
    simp only [recorded_replicate, Bucket.recordAll_eq, List.length_replicate] at after counts'
    refine ⟨⟨_, _, before key, before key, ?_⟩, ?_, ⟨_, _, counts, counts'⟩⟩
    · rw [after, ← kind]
      refine congrArg (fun n => Answer.numbers (n :: _)) ?_
      exact newest.counter.estimate_replicate _ hq
    · intro other
      obtain ⟨least, most, filter⟩ := newest.counter.estimate_recordAll_bounds
        (.replicate q ((t.after visits).hasher.hash key)) ((t.after visits).hasher.hash other)
      rw [List.length_replicate] at most
      rw [kind] at filter
      exact ⟨_, _, _, before other, after other, least, most, filter⟩

/-- At tick 75 a rotation is due; two records then count in the bucket that it empties. -/
theorem recordAndEstimate_repeated_pending :
    small.IsBuiltOver (.sketch .small) ∧
    (Environment.atTick 75).Stands (small.after lateVisits).ring.source 75 ∧ 0 < 2 ∧
    (small.after lateVisits).answer ⟨.atTick 75, .itemCounts⟩ = .numbers [0, 1, 0] ∧
    (small.after lateVisits).answerAfter (.atTick 75)
      (.replicate 2 (.recordAndEstimate "a".toUTF8)) .itemCounts = .numbers [2, 1, 0] ∧
    ∃ newest older,
      (small.after lateVisits).answer ⟨.atTick 75, .recordAndEstimate "a".toUTF8⟩ =
        .numbers (newest :: older) ∧
      (small.after lateVisits).answerAfter (.atTick 75)
        (.replicate 2 (.recordAndEstimate "a".toUTF8)) (.estimates "a".toUTF8) =
          .numbers (min 255 (newest + 2) :: older) := by
  have stands : (Environment.atTick 75).Stands (small.after lateVisits).ring.source 75 := rfl
  have some_record : 0 < 2 := by decide
  have none_yet : (small.after lateVisits).answer ⟨.atTick 75, .itemCounts⟩ =
      .numbers [0, 1, 0] := rfl
  obtain ⟨⟨newest, older, asked, -, raised⟩, -, count, counts, before, after⟩ :=
    recordAndEstimate_repeated.2 small _ isBuiltOver_small lateVisits _ 75 stands "a".toUTF8 2
      some_record
  rw [none_yet] at before
  cases before
  exact ⟨isBuiltOver_small, stands, some_record, none_yet, after, newest, older, asked, raised⟩

end Tracker

end AccessHistory
