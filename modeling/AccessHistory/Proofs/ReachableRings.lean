import AccessHistory.Proofs.Changes
import AccessHistory.Proofs.RingCalls

/-!
Rings in use. Whatever a ring was asked since it was built, emptying one of its buckets gives a
fresh one, because a reset forgets all that a counter took.
-/

set_option autoImplicit false
set_option relaxedAutoImplicit false

namespace AccessHistory

variable {w : CellWidth}

/-- A counter that was fresh once and has been in use since then. -/
def Counter.IsReachable (c : Counter w) : Prop :=
  ∃ (fresh : Counter w) (changes : List Change),
    fresh.IsFresh ∧ c = changes.foldl (Change.apply record reset) fresh

theorem Counter.IsReachable.isFresh_reset {c : Counter w} (h : c.IsReachable) :
    c.reset.IsFresh := by
  obtain ⟨fresh, changes, hf, rfl⟩ := h
  have kept := foldl_apply_eq hf.reset_recordAll changes
  rw [kept]
  exact (hf.reset_recordAll _).symm ▸ hf

theorem Counter.IsFresh.isReachable {c : Counter w} (h : c.IsFresh) : c.IsReachable :=
  ⟨c, [], h, rfl⟩

namespace Ring

/-- A ring that was built and has been asked anything at any ticks since then. The counters that it
was built over need not have been fresh. -/
def IsReachable (r : Ring w) : Prop :=
  ∃ counters ticksPerBucket source built calls,
    ofCounters counters ticksPerBucket source = .ok built ∧ (∀ c ∈ counters, c.IsReachable) ∧
      r = built.after calls

/-- Emptying any of the buckets gives a fresh one. -/
def Resettable (r : Ring w) : Prop :=
  ∀ (i : Nat) (b : Bucket w), r.buckets[i]? = some b → b.counter.reset.IsFresh

theorem Resettable.enter {r : Ring w} (h : r.Resettable) (i : Nat) (hi : i < r.size) :
    (r.enter i hi).Resettable := by
  intro j b found
  rw [getElem?_enter] at found
  split at found
  · obtain ⟨before, there, rfl⟩ := Option.map_eq_some_iff.mp found
    have fresh := h j before there
    show before.counter.reset.reset.IsFresh
    rwa [fresh.reset_eq]
  · exact h j b found

theorem Resettable.recordNewest {r : Ring w} (h : r.Resettable) (hash : UInt64) :
    (r.recordNewest hash).Resettable := by
  intro j b found
  rw [getElem?_recordNewest] at found
  split at found
  · obtain ⟨before, there, rfl⟩ := Option.map_eq_some_iff.mp found
    show (before.counter.record hash).reset.IsFresh
    rw [Counter.reset_record]
    exact h j before there
  · exact h j b found

theorem Resettable.rotate {r : Ring w} (h : r.Resettable) (tick : UInt64) :
    (r.rotate tick).1.Resettable := by
  by_cases hr : 0 < r.size
  · rcases r.rotate_cases tick hr with ⟨-, stays⟩ | ⟨-, rotates⟩
    · rwa [stays]
    · rw [rotates]
      exact h.enter _ (r.target_lt tick hr)
  · rwa [r.rotate_of_not_pos hr]

theorem Resettable.after {r : Ring w} (h : r.Resettable) (calls : List Call) :
    (r.after calls).Resettable := by
  induction calls generalizing r with
  | nil => exact h
  | cons c calls ih =>
    apply ih
    cases recorded : c.recorded with
    | none =>
      rw [step_of_not_recorded r recorded]
      exact h.rotate c.tick
    | some hash =>
      rw [step_of_recorded r recorded]
      exact (h.rotate c.tick).recordNewest hash

theorem IsReachable.resettable {r : Ring w} (h : r.IsReachable) : r.Resettable ∧ 0 < r.size := by
  obtain ⟨counters, ticksPerBucket, source, built, calls, ok, used, rfl⟩ := h
  have nonempty := (of_ofCounters ok).2.2.2.2
  refine ⟨Resettable.after ?_ calls, by rwa [size_after]⟩
  intro i b found
  rw [buckets_of_ofCounters ok, Array.getElem?_map] at found
  obtain ⟨c, there, rfl⟩ := Option.map_eq_some_iff.mp found
  exact (used c (Array.mem_of_getElem? there)).isFresh_reset

end Ring

end AccessHistory
