import AccessHistory.Proofs.RingCalls
import Mathlib.Data.List.Forall2
import Mathlib.Data.Nat.ModEq

/-!
Pairs of rings. Two rings that differ by a turn read alike, and stay turned as long as they are
asked the same and the polls of the one lie as many slices behind those of the other.
-/

set_option autoImplicit false
set_option relaxedAutoImplicit false

namespace AccessHistory.Ring

variable {w : CellWidth}

/-! ### Two runs -/

/-- A relation between rings that two runs keep, as long as they poll at ticks that belong
together. Related rings read alike. -/
structure Alike (R : Ring w → Ring w → Prop) (Together : UInt64 → UInt64 → Prop) : Prop where
  rotate : ∀ {r r'}, R r r' → ∀ {tick tick'}, Together tick tick' →
    R (r.rotate tick).1 (r'.rotate tick').1
  recordNewest : ∀ {r r'}, R r r' → ∀ hash, R (r.recordNewest hash) (r'.recordNewest hash)
  newestFirst : ∀ {r r'}, R r r' → ∀ read : Bucket w → Nat,
    r'.newestFirst read = r.newestFirst read

namespace Alike

variable {R : Ring w → Ring w → Prop} {Together : UInt64 → UInt64 → Prop} {r r' : Ring w}
  {c c' : Call}

theorem step_of_rotate (h : Alike R Together) (same : c'.request = c.request)
    (rotated : R (r.rotate c.tick).1 (r'.rotate c'.tick).1) : R (r.step c) (r'.step c') := by
  have recorded : c'.recorded = c.recorded := by
    unfold Call.recorded
    rw [same]
  cases known : c.recorded with
  | none =>
    rw [step_of_not_recorded r known, step_of_not_recorded r' (recorded.trans known)]
    exact rotated
  | some hash =>
    rw [step_of_recorded r known, step_of_recorded r' (recorded.trans known)]
    exact h.recordNewest rotated hash

/-- Only the question for the most recent bucket tells related rings apart. -/
theorem respondAt_of_rotate (h : Alike R Together) (same : c'.request = c.request)
    (rotated : R (r.rotate c.tick).1 (r'.rotate c'.tick).1) (other : c.request ≠ .update) :
    (r'.respondAt c'.tick c'.request).1 = (r.respondAt c.tick c.request).1 := by
  rw [same]
  cases asked : c.request with
  | update => exact absurd asked other
  | record hash => rfl
  | estimates hash => exact congrArg Answer.numbers (h.newestFirst rotated _)
  | itemCounts => exact congrArg Answer.numbers (h.newestFirst rotated _)

theorem after (h : Alike R Together) {calls calls' : List Call}
    (together : List.Forall₂ (fun c c' => c'.request = c.request ∧ Together c.tick c'.tick)
      calls calls') (related : R r r') : R (r.after calls) (r'.after calls') := by
  induction together generalizing r r' with
  | nil => exact related
  | cons pair _ ih => exact ih (h.step_of_rotate pair.1 (h.rotate related pair.2))

end Alike

/-! ### Turned rings -/

/-- The second ring is the first one, turned by `k` places. -/
structure Turned (span : UInt64) (k : Nat) (r r' : Ring w) : Prop where
  nonempty : 0 < r.size
  size : r'.size = r.size
  ticks : r.ticksPerBucket = span
  ticks' : r'.ticksPerBucket = span
  mostRecent : r'.mostRecent = (r.mostRecent + k) % r.size
  buckets : ∀ b < r.size, r'.buckets[(b + k) % r.size]? = r.buckets[b]?

/-- The second tick lies as many ticks after the first one. -/
def DelayedBy (ticks : Nat) (tick tick' : UInt64) : Prop := tick'.toNat = tick.toNat + ticks

theorem slice_delayed (r : Ring w) {s : Nat} {tick tick' : UInt64}
    (delayed : DelayedBy (s * r.ticksPerBucket.toNat) tick tick') :
    r.slice tick' = r.slice tick + s := by
  unfold slice
  rw [delayed, Nat.add_mul_div_right _ _ r.span_pos]

private theorem add_mod_inj {n k a b : Nat} (ha : a < n) (hb : b < n) :
    (a + k) % n = (b + k) % n ↔ a = b := by
  constructor
  · intro same
    have cancelled : a % n = b % n := Nat.ModEq.add_right_cancel' k same
    rwa [Nat.mod_eq_of_lt ha, Nat.mod_eq_of_lt hb] at cancelled
  · intro same
    rw [same]

namespace Turned

variable {span : UInt64} {k : Nat} {r r' : Ring w}

theorem isCurrent (h : Turned span k r r') {i : Nat} (hi : i < r.size) :
    r'.IsCurrent ((i + k) % r.size) ↔ r.IsCurrent i := by
  have newest := r.mostRecent_lt h.nonempty
  have next : ((i + k) % r.size + 1) % r.size = ((i + 1) % r.size + k) % r.size := by
    rw [Nat.mod_add_mod, Nat.mod_add_mod, Nat.add_right_comm]
  unfold IsCurrent
  rw [h.size, h.mostRecent, next, add_mod_inj hi newest,
    add_mod_inj (Nat.mod_lt _ h.nonempty) newest]

theorem slot (h : Turned span k r r') {i : Nat} (hi : i < r.size) :
    r'.slot i = (r.slot i + k) % r.size := by
  have hi' : i < r'.size := by rwa [h.size]
  have place : (r'.slot i + i) % r.size = (r.slot i + k + i) % r.size := by
    calc (r'.slot i + i) % r.size = r'.mostRecent := by rw [← h.size, r'.slot_add_mod hi']
      _ = ((r.slot i + i) % r.size + k) % r.size := by rw [h.mostRecent, r.slot_add_mod hi]
      _ = (r.slot i + k + i) % r.size := by rw [Nat.mod_add_mod, Nat.add_right_comm]
  have cancelled : r'.slot i % r.size = (r.slot i + k) % r.size :=
    Nat.ModEq.add_right_cancel' i place
  have inside : r'.slot i < r.size := by
    rw [← h.size]
    exact r'.slot_lt (by omega) i
  rwa [Nat.mod_eq_of_lt inside] at cancelled

theorem newestFirst {α : Type} (h : Turned span k r r') (read : Bucket w → α) :
    r'.newestFirst read = r.newestFirst read := by
  apply newestFirst_eq
  · rw [length_newestFirst, h.size]
  · intro i hi
    rw [h.size] at hi
    rw [r.getElem?_newestFirst read hi, h.slot hi, h.buckets _ (r.slot_lt h.nonempty i)]

theorem enter (h : Turned span k r r') {i i' : Nat} (hi : i < r.size)
    (hi' : i' < r'.size) (turned : i' = (i + k) % r.size) :
    Turned span k (r.enter i hi) (r'.enter i' hi') := by
  refine ⟨?_, ?_, h.ticks, h.ticks', ?_, ?_⟩
  · rw [size_enter]
    exact h.nonempty
  · rw [size_enter, size_enter, h.size]
  · rw [size_enter]
    exact turned
  · intro b hb
    rw [size_enter] at hb ⊢
    rw [getElem?_enter, getElem?_enter, h.buckets b hb, turned]
    simp only [add_mod_inj hi hb]

theorem recordNewest (h : Turned span k r r') (hash : UInt64) :
    Turned span k (r.recordNewest hash) (r'.recordNewest hash) := by
  refine ⟨?_, ?_, h.ticks, h.ticks', ?_, ?_⟩
  · rw [size_recordNewest]
    exact h.nonempty
  · rw [size_recordNewest, size_recordNewest, h.size]
  · rw [size_recordNewest]
    exact h.mostRecent
  · intro b hb
    rw [size_recordNewest] at hb ⊢
    rw [getElem?_recordNewest, getElem?_recordNewest, h.buckets b hb, h.mostRecent]
    simp only [add_mod_inj (r.mostRecent_lt h.nonempty) hb]

theorem rotate (h : Turned span k r r') {tick tick' : UInt64}
    (delayed : DelayedBy (k * span.toNat) tick tick') :
    Turned span k (r.rotate tick).1 (r'.rotate tick').1 := by
  have hr' : 0 < r'.size := by rw [h.size]; exact h.nonempty
  have slice : r'.slice tick' = r.slice tick + k := by
    rw [← h.ticks] at delayed
    rw [← r.slice_delayed delayed]
    unfold Ring.slice
    rw [h.ticks', h.ticks]
  have target : r'.target tick' = (r.target tick + k) % r.size := by
    unfold Ring.target
    rw [slice, h.size, Nat.mod_add_mod]
  have same := h.isCurrent (r.target_lt tick h.nonempty)
  rw [← target] at same
  rcases r.rotate_cases tick h.nonempty with ⟨current, stays⟩ | ⟨other, rotates⟩
  · rw [stays, r'.rotate_of_isCurrent tick' (same.mpr current)]
    exact h
  · rw [rotates, r'.rotate_of_not_isCurrent tick' hr' (mt same.mp other)]
    exact h.enter (r.target_lt tick h.nonempty) (r'.target_lt tick' hr') target

end Turned

theorem alike_turned (span : UInt64) (k : Nat) :
    Alike (w := w) (Turned span k) (DelayedBy (k * span.toNat)) :=
  ⟨fun turned _ _ => turned.rotate, fun turned => turned.recordNewest,
    fun turned => turned.newestFirst⟩

/-! ### Rings that stay where they start -/

/-- A tick whose slice belongs in the first bucket or the last one. -/
def Lingers (n : Nat) (span tick : UInt64) : Prop :=
  tick.toNat / span.toNat % n = 0 ∨ tick.toNat / span.toNat % n = n - 1

theorem alike_of_lingers (n : Nat) (hn : 0 < n) (span : UInt64) :
    Alike (w := w) (fun r r' => r' = r ∧ r.mostRecent = 0 ∧ r.size = n ∧ r.ticksPerBucket = span)
      (fun tick tick' => Lingers n span tick ∧ Lingers n span tick') := by
  have stays {r : Ring w} {tick : UInt64} (first : r.mostRecent = 0) (size : r.size = n)
      (ticks : r.ticksPerBucket = span) (lingers : Lingers n span tick) :
      r.rotate tick = (r, none) := by
    refine r.rotate_of_isCurrent tick ?_
    rw [← ticks, ← size] at lingers
    rcases lingers with here | last
    · exact .inl (Eq.trans here first.symm)
    · refine .inr ?_
      show (r.slice tick % r.size + 1) % r.size = r.mostRecent
      rw [show r.slice tick % r.size = r.size - 1 from last, Nat.sub_add_cancel (by omega),
        Nat.mod_self, first]
  refine ⟨?_, ?_, ?_⟩
  · rintro r _ ⟨rfl, first, size, ticks⟩ tick tick' ⟨lingers, lingers'⟩
    rw [stays first size ticks lingers, stays first size ticks lingers']
    exact ⟨rfl, first, size, ticks⟩
  · rintro r _ ⟨rfl, first, size, ticks⟩ hash
    exact ⟨rfl, first, (size_recordNewest _ hash).trans size, ticks⟩
  · rintro r _ ⟨rfl, -⟩ read
    rfl

/-! ### The first poll -/

section Start

variable {r : Ring w}

/-- A ring that starts at bucket 0 moves on to the bucket of its first poll, unless it takes that
poll for a late one. -/
theorem mostRecent_rotate_of_first (first : r.mostRecent = 0) (hr : 0 < r.size) (tick : UInt64) :
    (r.rotate tick).1.mostRecent =
      if r.slice tick % r.size = r.size - 1 then 0 else r.slice tick % r.size := by
  have inside : r.slice tick % r.size < r.size := r.target_lt tick hr
  rcases r.rotate_cases tick hr with ⟨current, stays⟩ | ⟨other, rotates⟩
  · rw [stays, first]
    split
    · rfl
    · next early =>
      rcases current with here | before
      · exact (here.trans first).symm
      · rw [first, target, Nat.mod_eq_of_lt (by omega)] at before
        omega
  · rw [rotates, if_neg ?_]
    · rfl
    · intro last
      refine other (.inr ?_)
      rw [first, target, last, Nat.sub_add_cancel hr, Nat.mod_self]

/-- Two first polls of one fresh ring turn it against itself, if it takes both of them for late ones
or neither. -/
theorem turned_of_first {counter : Counter w} (hc : counter.IsFresh) {n s : Nat}
    (holds : r.Holds (Array.replicate n counter) fun _ => []) (first : r.mostRecent = 0)
    (hr : 0 < r.size) {tick tick' : UInt64} (later : r.slice tick' = r.slice tick + s)
    (together : r.slice tick % r.size = r.size - 1 ↔ (r.slice tick + s) % r.size = r.size - 1) :
    Turned r.ticksPerBucket s (r.rotate tick).1 (r.rotate tick').1 := by
  have size : r.size = n := holds.size_eq.trans Array.size_replicate
  have filled (tick : UInt64) {b : Nat} (hb : b < n) :
      (r.rotate tick).1.buckets[b]? = some (.fill counter []) := by
    have fresh : ∀ c ∈ Array.replicate n counter, c.IsFresh := by
      intro c copy
      rw [Array.eq_of_mem_replicate copy]
      exact hc
    have checked : (r.rotate tick).1.Holds (Array.replicate n counter) fun _ => [] := by
      rcases r.rotate_cases tick hr with ⟨-, stays⟩ | ⟨-, rotates⟩
      · rwa [stays]
      · rw [rotates]
        exact holds.enter fresh (r.target_lt tick hr) rfl fun _ _ => rfl
    rw [checked b, Array.getElem?_replicate, if_pos hb]
    rfl
  refine ⟨?_, ?_, r.ticksPerBucket_rotate tick, r.ticksPerBucket_rotate tick', ?_, ?_⟩
  · rwa [size_rotate]
  · rw [size_rotate, size_rotate]
  · rw [mostRecent_rotate_of_first first hr, mostRecent_rotate_of_first first hr, later,
      size_rotate]
    by_cases last : r.slice tick % r.size = r.size - 1
    · have last' := together.mp last
      have whole : s % r.size = 0 % r.size :=
        Nat.ModEq.add_left_cancel' (r.slice tick) (last'.trans last.symm)
      rw [if_pos last, if_pos last', Nat.zero_add, whole, Nat.zero_mod]
    · rw [if_neg last, if_neg (mt together.mpr last), Nat.mod_add_mod]
  · intro b hb
    rw [size_rotate, size] at hb ⊢
    rw [filled tick hb, filled tick' (Nat.mod_lt _ (Nat.zero_lt_of_lt hb))]

theorem newest_of_recorded (hr : 0 < r.size) (tick hash : UInt64) :
    ∃ newest, (r.step ⟨tick, .record hash⟩).buckets[(r.step ⟨tick, .record hash⟩).mostRecent]? =
      some newest ∧ 0 < newest.itemCount := by
  have inside := (r.rotate tick).1.mostRecent_lt (by rwa [size_rotate])
  rw [step_of_recorded r rfl]
  refine ⟨(r.rotate tick).1.buckets[(r.rotate tick).1.mostRecent].record hash, ?_,
    Nat.succ_pos _⟩
  change ((r.rotate tick).1.recordNewest hash).buckets[(r.rotate tick).1.mostRecent]? = _
  rw [getElem?_recordNewest, if_pos rfl, Array.getElem?_eq_getElem inside, Option.map_some]

/-- The newest of the counts tells whether the check of the time rotated. -/
theorem newest_count_eq_zero_iff {newest : Bucket w} (here : r.buckets[r.mostRecent]? = some newest)
    (used : 0 < newest.itemCount) (tick : UInt64) :
    ((r.rotate tick).1.newestFirst (·.itemCount))[0]? = some 0 ↔
      ¬ r.IsCurrent (r.target tick) := by
  obtain ⟨inside, -⟩ := Array.getElem?_eq_some_iff.mp here
  have hr : 0 < r.size := Nat.zero_lt_of_lt inside
  have hr' : 0 < (r.rotate tick).1.size := by rwa [size_rotate]
  rw [getElem?_newestFirst _ _ hr', slot_zero _ hr']
  rcases r.rotate_cases tick hr with ⟨current, stays⟩ | ⟨other, rotates⟩
  · constructor
    · intro empty
      rw [stays, here, Option.map_some] at empty
      exact absurd (Option.some.inj empty) (Nat.ne_of_gt used)
    · intro other
      exact absurd current other
  · constructor
    · intro _
      exact other
    · intro _
      have target := r.target_lt tick hr
      rw [rotates]
      show (r.enter (r.target tick) target).buckets[r.target tick]?.map _ = _
      rw [getElem?_enter, if_pos rfl, Array.getElem?_eq_getElem target]
      rfl

private theorem succ_mod {n : Nat} (hn : 0 < n) (a : Nat) :
    (a + 1) % n = if a % n = n - 1 then 0 else a % n + 1 := by
  have := Nat.mod_lt a hn
  rw [← Nat.mod_add_mod]
  split
  · next last => rw [last, Nat.sub_add_cancel hn, Nat.mod_self]
  · next other => rw [Nat.mod_eq_of_lt (by omega)]

/-- Whether a poll next to the first one rotates, depends on whether the first one was taken for a
late one. -/
theorem isCurrent_of_first (first : r.mostRecent = 0) (hr : 3 ≤ r.size)
    (tick hash tick' : UInt64) :
    (r.slice tick' + 1 = r.slice tick →
      ((r.step ⟨tick, .record hash⟩).IsCurrent ((r.step ⟨tick, .record hash⟩).target tick') ↔
        r.slice tick % r.size ≠ r.size - 1)) ∧
    (r.slice tick' = r.slice tick + 1 →
      ((r.step ⟨tick, .record hash⟩).IsCurrent ((r.step ⟨tick, .record hash⟩).target tick') ↔
        r.slice tick % r.size = r.size - 1)) := by
  have newest : (r.step ⟨tick, .record hash⟩).mostRecent =
      if r.slice tick % r.size = r.size - 1 then 0 else r.slice tick % r.size :=
    mostRecent_rotate_of_first first (by omega) tick
  have slice := congrFun (r.slice_after [⟨tick, .record hash⟩]) tick'
  have size := (r.frame_step ⟨tick, .record hash⟩).1
  change (r.step ⟨tick, .record hash⟩).slice tick' = r.slice tick' at slice
  unfold IsCurrent target
  rw [newest, slice, size, Nat.mod_add_mod]
  have inside := Nat.mod_lt (r.slice tick') (show 0 < r.size by omega)
  have next := succ_mod (show 0 < r.size by omega) (r.slice tick')
  constructor
  · intro back
    rw [back] at next ⊢
    split_ifs at next ⊢ <;> omega
  · intro ahead
    have next' := succ_mod (show 0 < r.size by omega) (r.slice tick)
    rw [← ahead] at next'
    split_ifs at next next' ⊢ <;> omega

end Start

end AccessHistory.Ring
