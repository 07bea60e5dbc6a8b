import AccessHistory.Proofs.RingCalls
import Mathlib.Algebra.GroupWithZero.Nat
import Mathlib.Algebra.Order.BigOperators.Group.List
import Mathlib.Algebra.Order.Group.Nat

/-!
What each bucket holds after a run, whatever the ticks were: its fresh counter fed with the records
that went into it since it was last entered. Only entering a bucket takes records away.
-/

set_option autoImplicit false
set_option relaxedAutoImplicit false

namespace AccessHistory

/-- What a call did to a bucket. -/
inductive Deed (α : Type) where
  /-- The ring rotated into the bucket. -/
  | entered (bucket : Nat)
  | recorded (bucket : Nat) (item : α)
  deriving DecidableEq

namespace Deed

variable {α β : Type}

/-- What bucket `b` keeps of its items through a deed. -/
def keep (b : Nat) (kept : List α) : Deed α → List α
  | entered i => if i = b then [] else kept
  | recorded i item => if i = b then kept ++ [item] else kept

/-- The items that were recorded into bucket `b` since it was last entered, in order. -/
def keptIn (b : Nat) (deeds : List (Deed α)) : List α := deeds.foldl (keep b) []

end Deed

namespace Ring

variable {w : CellWidth}

/-! ### Histories -/

/-- The bucket that a check of the time enters, if it rotates. -/
def entries (r : Ring w) (tick : UInt64) : List (Deed UInt64) :=
  match (r.rotate tick).2 with
  | none => []
  | some rotation => [.entered rotation.target]

/-- What a call does: it may enter a bucket, and then it may record into the most recent one. -/
def deeds (r : Ring w) (c : Call) : List (Deed UInt64) :=
  r.entries c.tick ++
    match c.recorded with
    | none => []
    | some hash => [.recorded (r.rotate c.tick).1.mostRecent hash]

def history (r : Ring w) : List Call → List (Deed UInt64)
  | [] => []
  | c :: calls => r.deeds c ++ (r.step c).history calls

theorem history_append (r : Ring w) (calls later : List Call) :
    r.history (calls ++ later) = r.history calls ++ (r.after calls).history later := by
  induction calls generalizing r with
  | nil => rfl
  | cons c calls ih =>
    rw [List.cons_append, history, ih, history, List.append_assoc]
    rfl

variable {r : Ring w} {fresh : Array (Counter w)} {content : Nat → List UInt64}

private theorem holds_rotate (hf : ∀ c ∈ fresh, c.IsFresh) (h : r.Holds fresh content)
    (tick : UInt64) :
    (r.rotate tick).1.Holds fresh fun b => (r.entries tick).foldl (Deed.keep b) (content b) := by
  by_cases rotates : 0 < r.size ∧ ¬ r.IsCurrent (r.target tick)
  · have rotated := r.rotate_of_not_isCurrent tick rotates.1 rotates.2
    unfold entries
    rw [rotated]
    exact h.enter hf (r.target_lt tick rotates.1) (if_pos rfl) fun b other =>
      if_neg (Ne.symm other)
  · have stays : r.rotate tick = (r, none) := dif_neg rotates
    unfold entries
    rw [stays]
    exact h

private theorem holds_step (hf : ∀ c ∈ fresh, c.IsFresh) (h : r.Holds fresh content) (c : Call) :
    (r.step c).Holds fresh fun b => (r.deeds c).foldl (Deed.keep b) (content b) := by
  have checked := holds_rotate hf h c.tick
  unfold deeds
  cases recorded : c.recorded with
  | none =>
    rw [step_of_not_recorded r recorded]
    simpa only [List.append_nil] using checked
  | some hash =>
    rw [step_of_recorded r recorded]
    simp only [List.foldl_append, List.foldl_cons, List.foldl_nil]
    exact checked.recordNewest (if_pos rfl) fun b other => if_neg (Ne.symm other)

/-- After a run, a bucket holds what it held before and what the run's history keeps in it. -/
theorem Holds.after (hf : ∀ c ∈ fresh, c.IsFresh) (h : r.Holds fresh content)
    (calls : List Call) :
    (r.after calls).Holds fresh fun b => (r.history calls).foldl (Deed.keep b) (content b) := by
  induction calls generalizing r content with
  | nil => exact h
  | cons c calls ih =>
    have later := ih (holds_step hf h c)
    simp only [← List.foldl_append] at later
    exact later

/-! ### Conservation -/

def itemTotal (r : Ring w) : Nat := (r.buckets.toList.map Bucket.itemCount).sum

/-- The records that a check of the time wipes: those of the bucket that it enters. -/
def wipedAt (r : Ring w) (tick : UInt64) : Nat :=
  match (r.rotate tick).2 with
  | none => 0
  | some rotation => (r.buckets[rotation.target]?.map Bucket.itemCount).getD 0

/-- The records that the rotations of a run wipe. -/
def wiped (r : Ring w) : List Call → Nat
  | [] => 0
  | c :: calls => r.wipedAt c.tick + (r.step c).wiped calls

def recordCount (calls : List Call) : Nat := (calls.filterMap Call.recorded).length

theorem itemTotal_rotate (r : Ring w) (tick : UInt64) :
    (r.rotate tick).1.itemTotal + r.wipedAt tick = r.itemTotal := by
  by_cases rotates : 0 < r.size ∧ ¬ r.IsCurrent (r.target tick)
  · have rotated := r.rotate_of_not_isCurrent tick rotates.1 rotates.2
    have moved := sum_map_modify r.buckets.toList Bucket.itemCount Bucket.reset (r.target tick)
    have empty : Bucket.itemCount ∘ Bucket.reset = fun _ : Bucket w => 0 := rfl
    have nothing : (r.buckets[r.target tick]?.map fun _ => 0).getD 0 = 0 := by
      cases r.buckets[r.target tick]? <;> rfl
    unfold wipedAt
    rw [rotated]
    rw [empty, Array.getElem?_toList, nothing, ← Array.toList_modify] at moved
    exact moved
  · have stays : r.rotate tick = (r, none) := dif_neg rotates
    unfold wipedAt
    rw [stays]
    rfl

theorem itemTotal_recordNewest (r : Ring w) (hr : 0 < r.size) (hash : UInt64) :
    (r.recordNewest hash).itemTotal = r.itemTotal + 1 := by
  have inside : r.mostRecent < r.buckets.size := r.mostRecent_lt hr
  have moved := sum_map_modify r.buckets.toList Bucket.itemCount (·.record hash) r.mostRecent
  rw [Array.getElem?_toList, Array.getElem?_eq_getElem inside, ← Array.toList_modify] at moved
  change (r.recordNewest hash).itemTotal + r.buckets[r.mostRecent].itemCount =
    r.itemTotal + (r.buckets[r.mostRecent].itemCount + 1) at moved
  omega

/-- A record stays in its bucket until the bucket is wiped. -/
theorem itemTotal_after (r : Ring w) (hr : 0 < r.size) (calls : List Call) :
    (r.after calls).itemTotal + r.wiped calls = r.itemTotal + recordCount calls := by
  induction calls generalizing r with
  | nil => rfl
  | cons c calls ih =>
    have checked := r.itemTotal_rotate c.tick
    have later := ih (r.step c) ((r.frame_step c).1 ▸ hr)
    rw [after_cons, wiped, recordCount]
    cases recorded : c.recorded with
    | none =>
      rw [List.filterMap_cons_none recorded, ← recordCount]
      rw [step_of_not_recorded r recorded] at later ⊢
      omega
    | some hash =>
      have made := itemTotal_recordNewest (r.rotate c.tick).1 (by rwa [size_rotate]) hash
      rw [List.filterMap_cons_some recorded, List.length_cons, ← recordCount]
      rw [step_of_recorded r recorded] at later ⊢
      omega

theorem itemCount_le_itemTotal (r : Ring w) {b : Bucket w} (h : b ∈ r.buckets) :
    b.itemCount ≤ r.itemTotal :=
  List.le_sum_of_mem (List.mem_map_of_mem (Array.mem_def.mp h))

/-! ### All ticks, all runs -/

/-- Without a rotation into a bucket, a call leaves the bucket alone or records one key in it. -/
theorem getElem?_step (r : Ring w) (c : Call) {b : Nat}
    (h : ∀ rotation, (r.rotate c.tick).2 = some rotation → rotation.target ≠ b) :
    (r.step c).buckets[b]? = r.buckets[b]? ∨ ∃ hash, c.recorded = some hash ∧
      (r.step c).buckets[b]? = r.buckets[b]?.map (·.record hash) := by
  have checked : (r.rotate c.tick).1.buckets[b]? = r.buckets[b]? := by
    by_cases rotates : 0 < r.size ∧ ¬ r.IsCurrent (r.target c.tick)
    · have rotated := r.rotate_of_not_isCurrent c.tick rotates.1 rotates.2
      rw [rotated] at h ⊢
      exact (r.getElem?_enter _ (r.target_lt c.tick rotates.1) b).trans (if_neg (h _ rfl))
    · rw [show r.rotate c.tick = (r, none) from dif_neg rotates]
  cases recorded : c.recorded with
  | none =>
    rw [step_of_not_recorded r recorded]
    exact .inl checked
  | some hash =>
    rw [step_of_recorded r recorded, getElem?_recordNewest, checked]
    split
    · exact .inr ⟨hash, rfl, rfl⟩
    · exact .inl rfl

/-- After any run of a fresh ring, at any ticks, each bucket is its fresh counter fed with the
records since it was last entered, each record went into the bucket that was the most recent one
once its own check of the time was done, and a bucket only lost records by being entered. -/
theorem contents_since_entered {fresh : Array (Counter w)} {ticksPerBucket : UInt64}
    {source : TickSource} {r : Ring w} (hr : ofCounters fresh ticksPerBucket source = .ok r)
    (hf : ∀ c ∈ fresh, c.IsFresh) (calls : List Call) :
    (∀ b, (r.after calls).buckets[b]? = fresh[b]?.map fun c =>
      (⟨c.recordAll (Deed.keptIn b (r.history calls)),
        (Deed.keptIn b (r.history calls)).length⟩ : Bucket w)) ∧
    (∀ c hash, c.recorded = some hash →
      ((r.after calls).rotate c.tick).1.mostRecent < fresh.size ∧
      ((r.after calls).step c).buckets = ((r.after calls).rotate c.tick).1.buckets.modify
        ((r.after calls).rotate c.tick).1.mostRecent (·.record hash)) ∧
    (∀ c b, (∀ rotation, ((r.after calls).rotate c.tick).2 = some rotation →
        rotation.target ≠ b) →
      ((r.after calls).step c).buckets[b]? = (r.after calls).buckets[b]? ∨
      ∃ hash, c.recorded = some hash ∧ ((r.after calls).step c).buckets[b]? =
        (r.after calls).buckets[b]?.map (·.record hash)) ∧
    (r.after calls).itemTotal + r.wiped calls = recordCount calls ∧
    (recordCount calls < 2 ^ 64 → ∀ b ∈ (r.after calls).buckets, b.itemCount < 2 ^ 64) := by
  obtain ⟨holds, -, -, -, nonempty⟩ := of_ofCounters hr
  have size : ((r.after calls).size) = fresh.size := (r.size_after calls).trans holds.size_eq
  have nothing : r.itemTotal = 0 := by
    rw [itemTotal, List.sum_eq_zero_iff]
    intro count counted
    obtain ⟨b, inside, rfl⟩ := List.mem_map.mp counted
    obtain ⟨i, found⟩ := Array.mem_iff_getElem?.mp (Array.mem_def.mpr inside)
    rw [holds i] at found
    obtain ⟨c, -, rfl⟩ := Option.map_eq_some_iff.mp found
    rfl
  have conserved := r.itemTotal_after nonempty calls
  rw [nothing, Nat.zero_add] at conserved
  refine ⟨holds.after hf calls, ?_, ?_, conserved, ?_⟩
  · intro c hash recorded
    constructor
    · rw [← size, ← (r.after calls).size_rotate c.tick]
      exact mostRecent_lt _ (by rw [size_rotate, size_after]; exact nonempty)
    · rw [step_of_recorded _ recorded]
      rfl
  · intro c b others
    exact (r.after calls).getElem?_step c others
  · intro few b inside
    have := (r.after calls).itemCount_le_itemTotal inside
    omega

/-- Calls that come back to the filter in the middle at tick 9; the tick 0 among them is late. -/
def returningCalls : List Call :=
  [⟨2, .record 7⟩, ⟨0, .itemCounts⟩, ⟨5, .record 8⟩, ⟨6, .update⟩, ⟨9, .record 9⟩]

/-- The return wipes the key recorded at tick 2 and leaves the one of tick 9. -/
theorem contents_since_entered_returning :
    ofCounters mixedCounters 2 (.attached 0) = .ok mixed ∧ (∀ c ∈ mixedCounters, c.IsFresh) ∧
    (mixed.after returningCalls).buckets[1]? =
      some ⟨(Counter.filter .small).recordAll [9], 1⟩ ∧
    (mixed.after returningCalls).itemTotal + mixed.wiped returningCalls = 3 := by
  have kept : Deed.keptIn 1 (mixed.history returningCalls) = [9] := by decide
  obtain ⟨contents, -, -, conserved, -⟩ := contents_since_entered ofCounters_mixedCounters
    isFresh_mixedCounters returningCalls
  refine ⟨ofCounters_mixedCounters, isFresh_mixedCounters, ?_, conserved⟩
  rw [contents 1, kept]
  rfl

end Ring

end AccessHistory
