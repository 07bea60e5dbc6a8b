import AccessHistory.Proofs.ReachableRings
import AccessHistory.Proofs.TrackerVisits
import Mathlib.Tactic.SplitIfs

/-!
What a move of time does to the answers of a ring. A query is answered with the numbers from before
it, moved on by as many places as the bucket of its tick is ahead of the most recent one; only the
newest number starts again at zero. Ticks of the most recent bucket and of the one before it move
nothing.
-/

set_option autoImplicit false
set_option relaxedAutoImplicit false

namespace AccessHistory

variable {w : CellWidth}

namespace Ring

/-! ### Places -/

/-- How many places bucket `i` is ahead of the most recent one, around the ring. -/
def lead (r : Ring w) (i : Nat) : Nat := (i + r.size - r.mostRecent) % r.size

private theorem add_sub_mod {a b n : Nat} (ha : a < n) (hb : b < n) :
    (a + n - b) % n = if b ≤ a then a - b else a + n - b := by
  split
  · next le =>
    rw [show a + n - b = a - b + n by omega, Nat.add_mod_right, Nat.mod_eq_of_lt (by omega)]
  · exact Nat.mod_eq_of_lt (by omega)

theorem isCurrent_iff_lead (r : Ring w) {i : Nat} (hi : i < r.size) :
    r.IsCurrent i ↔ r.lead i = 0 ∨ r.lead i = r.size - 1 := by
  have newest := r.mostRecent_lt (by omega)
  have next : (i + 1) % r.size = if i + 1 = r.size then 0 else i + 1 := by
    split
    · next last => rw [last, Nat.mod_self]
    · exact Nat.mod_eq_of_lt (by omega)
  rw [lead, add_sub_mod hi newest, IsCurrent, next]
  split_ifs <;> omega

/-- Entering a bucket makes every other one older, by the places between the newest ones. -/
theorem slot_enter (r : Ring w) {i : Nat} (hi : i < r.size) {k : Nat} (hk : k < r.size) :
    (r.enter i hi).slot k = r.slot ((k + r.size - r.lead i) % r.size) := by
  have newest := r.mostRecent_lt (by omega)
  have ahead : r.lead i < r.size := Nat.mod_lt _ (by omega)
  have age : (k + r.size - r.lead i) % r.size < r.size := Nat.mod_lt _ (by omega)
  have lead_eq : r.lead i = _ := add_sub_mod hi newest
  have age_eq := add_sub_mod hk ahead
  show (i + (r.enter i hi).size - k) % (r.enter i hi).size =
    (r.mostRecent + r.size - (k + r.size - r.lead i) % r.size) % r.size
  rw [size_enter, add_sub_mod hi hk, add_sub_mod newest age]
  split_ifs at * <;> omega

theorem getElem?_newestFirst_enter {α : Type} (r : Ring w) (read : Bucket w → α) {i : Nat}
    (hi : i < r.size) {k : Nat} (old : 1 ≤ k) (hk : k < r.size) :
    ((r.enter i hi).newestFirst read)[k]? =
      (r.newestFirst read)[(k + r.size - r.lead i) % r.size]? := by
  have hk' : k < (r.enter i hi).size := by rwa [size_enter]
  have other : i ≠ (r.enter i hi).slot k := ((r.enter i hi).slot_ne_mostRecent old hk').symm
  rw [getElem?_newestFirst _ _ hk', r.getElem?_newestFirst _ (Nat.mod_lt _ (by omega)),
    getElem?_enter, if_neg other, r.slot_enter hi hk]

/-! ### Queries -/

/-- What a ring shows: the raw counts of its buckets, or their estimates of a hash. -/
inductive Query where
  | itemCounts
  | estimates (hash : UInt64)

namespace Query

def request : Query → Request
  | itemCounts => .itemCounts
  | estimates hash => .estimates hash

def read : Query → Bucket w → Nat
  | itemCounts => Bucket.itemCount
  | estimates hash => (·.estimate hash)

end Query

theorem serve_query (r : Ring w) (hr : 0 < r.size) (env : Environment) (q : Query) :
    r.serve env q.request =
      ⟨.numbers ((r.rotate (env.poll r.source).1).1.newestFirst q.read),
        (r.rotate (env.poll r.source).1).1,
        (env.poll r.source).2.report ((r.rotate (env.poll r.source).1).2.map .rotated)⟩ := by
  rw [serve, if_neg (r.not_isEmpty_iff.mpr hr)]
  cases q <;> rfl

/-- A bucket that is entered shows zero for everything. -/
theorem Resettable.getElem?_newestFirst_enter {r : Ring w} (h : r.Resettable) {i : Nat}
    (hi : i < r.size) (q : Query) : ((r.enter i hi).newestFirst q.read)[0]? = some 0 := by
  have nonempty : 0 < (r.enter i hi).size := by rw [size_enter]; omega
  rw [getElem?_newestFirst _ _ nonempty, slot_zero _ nonempty]
  show (r.enter i hi).buckets[i]?.map q.read = some 0
  rw [getElem?_enter, if_pos rfl, Array.getElem?_eq_getElem hi, Option.map_some, Option.map_some]
  cases q with
  | itemCounts => rfl
  | estimates hash =>
    have fresh := h i r.buckets[i] (Array.getElem?_eq_getElem hi)
    exact congrArg some (fresh.estimate_eq_zero hash)

/-- Entering the next bucket puts a zero in front and drops the oldest number. -/
theorem Resettable.newestFirst_enter_next {r : Ring w} (h : r.Resettable) {i : Nat}
    (hi : i < r.size) (next : r.lead i = 1) (q : Query) :
    (r.enter i hi).newestFirst q.read = 0 :: (r.newestFirst q.read).dropLast := by
  have long := length_newestFirst (r.enter i hi) q.read
  have long' := length_newestFirst r q.read
  rw [size_enter] at long
  apply List.ext_getElem?
  intro k
  rcases Nat.lt_or_ge k r.size with hk | past
  · cases k with
    | zero => exact h.getElem?_newestFirst_enter hi q
    | succ k =>
      have before : (k + 1 + r.size - 1) % r.size = k := by
        rw [show k + 1 + r.size - 1 = k + r.size by omega, Nat.add_mod_right,
          Nat.mod_eq_of_lt (by omega)]
      rw [r.getElem?_newestFirst_enter q.read hi (by omega) hk, next, before,
        List.getElem?_cons_succ, List.getElem?_dropLast, if_pos (by omega)]
  · rw [List.getElem?_eq_none (by omega), List.getElem?_eq_none]
    simp only [List.length_cons, List.length_dropLast]
    omega

/-- A query at a tick of the most recent bucket or of the one before it shows what was there. At
any other tick it enters the tick's bucket, which shows zero, and all other numbers move on by the
places that this bucket was ahead. Entering the next bucket drops the oldest number. -/
theorem shift_of_query {r : Ring w} (h : r.IsReachable) {env : Environment} {tick : UInt64}
    (polled : (env.poll r.source).1 = tick) (q : Query) :
    ∃ new, (r.serve env q.request).answer = .numbers new ∧ new.length = r.size ∧
      (r.lead (r.target tick) = 0 ∨ r.lead (r.target tick) = r.size - 1 →
        new = r.newestFirst q.read ∧ (r.serve env q.request).state = r ∧
          (r.serve env q.request).env = (env.poll r.source).2) ∧
      (r.lead (r.target tick) ≠ 0 → r.lead (r.target tick) ≠ r.size - 1 →
        new[0]? = some 0 ∧
        (∀ i, 1 ≤ i → i < r.size → new[i]? =
          (r.newestFirst q.read)[(i + r.size - r.lead (r.target tick)) % r.size]?) ∧
        (r.serve env q.request).state.mostRecent = r.target tick ∧
        ∀ b, b ≠ r.target tick → (r.serve env q.request).state.buckets[b]? = r.buckets[b]?) ∧
      (r.lead (r.target tick) = 1 → 3 ≤ r.size →
        new = 0 :: (r.newestFirst q.read).dropLast) := by
  obtain ⟨resettable, hr⟩ := h.resettable
  have inside := r.target_lt tick hr
  rw [r.serve_query hr, polled]
  refine ⟨_, rfl, by rw [length_newestFirst, size_rotate], ?_⟩
  rcases r.rotate_cases tick hr with ⟨current, stays⟩ | ⟨other, rotates⟩
  · have near := (r.isCurrent_iff_lead inside).mp current
    rw [stays]
    refine ⟨fun _ => ⟨rfl, rfl, rfl⟩, ?_, ?_⟩
    · intro not_same not_before
      rcases near with same | before
      · exact absurd same not_same
      · exact absurd before not_before
    · intro next large
      omega
  · rw [r.isCurrent_iff_lead inside] at other
    rw [rotates]
    refine ⟨fun near => absurd near other, fun _ _ => ⟨?_, ?_, rfl, ?_⟩, ?_⟩
    · exact resettable.getElem?_newestFirst_enter inside q
    · intro i old hi
      exact r.getElem?_newestFirst_enter q.read inside old hi
    · intro b away
      exact (r.getElem?_enter _ inside b).trans (if_neg away.symm)
    · intro next _
      exact resettable.newestFirst_enter_next inside next q

/-- At tick 7 the ring comes round to its first bucket and drops the record of tick 0. -/
theorem shift_of_query_around :
    (mixed.after [⟨0, .record 7⟩, ⟨3, .record 8⟩, ⟨4, .record 9⟩]).IsReachable ∧
    ((Environment.atTick 7).poll
      (mixed.after [⟨0, .record 7⟩, ⟨3, .record 8⟩, ⟨4, .record 9⟩]).source).1 = 7 ∧
    (mixed.after [⟨0, .record 7⟩, ⟨3, .record 8⟩, ⟨4, .record 9⟩]).lead 0 = 1 ∧
    ((mixed.after [⟨0, .record 7⟩, ⟨3, .record 8⟩, ⟨4, .record 9⟩]).serve (.atTick 7)
      .itemCounts).answer = .numbers [0, 1, 1] := by
  have reachable :
      (mixed.after [⟨0, .record 7⟩, ⟨3, .record 8⟩, ⟨4, .record 9⟩]).IsReachable :=
    ⟨mixedCounters, 2, .attached 0, mixed, _, ofCounters_mixedCounters,
      fun c member => (isFresh_mixedCounters c member).isReachable, rfl⟩
  have polled : ((Environment.atTick 7).poll
      (mixed.after [⟨0, .record 7⟩, ⟨3, .record 8⟩, ⟨4, .record 9⟩]).source).1 = 7 := rfl
  have one : (mixed.after [⟨0, .record 7⟩, ⟨3, .record 8⟩, ⟨4, .record 9⟩]).lead 0 = 1 := rfl
  obtain ⟨new, answered, -, -, -, next⟩ := shift_of_query reachable polled .itemCounts
  have shown := next one (by decide)
  rw [shown] at answered
  exact ⟨reachable, polled, one, answered⟩

end Ring

end AccessHistory
