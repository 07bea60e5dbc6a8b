import AccessHistory.Proofs.BucketContents
import AccessHistory.Proofs.TrackerVisits
import Mathlib

/-!
Estimates of a tracker between what was recorded of a key and what was recorded at all, in each
bucket since it was last entered.
-/

set_option autoImplicit false
set_option relaxedAutoImplicit false

namespace AccessHistory

variable {w : CellWidth}

namespace Deed

variable {α β : Type}

def map (f : α → β) : Deed α → Deed β
  | entered i => entered i
  | recorded i item => recorded i (f item)

theorem keptIn_map (f : α → β) (b : Nat) (deeds : List (Deed α)) :
    keptIn b (deeds.map (map f)) = (keptIn b deeds).map f := by
  have keep_map (kept : List α) (deed : Deed α) :
      keep b (kept.map f) (deed.map f) = (keep b kept deed).map f := by
    cases deed with
    | entered i =>
      change (if i = b then [] else kept.map f) = (if i = b then [] else kept).map f
      split <;> rfl
    | recorded i item =>
      change (if i = b then kept.map f ++ [f item] else kept.map f) =
        (if i = b then kept ++ [item] else kept).map f
      split
      · rw [List.map_append, List.map_singleton]
      · rfl
  have folded (kept : List α) :
      (deeds.map (map f)).foldl (keep b) (kept.map f) = (deeds.foldl (keep b) kept).map f := by
    induction deeds generalizing kept with
    | nil => rfl
    | cons deed deeds ih => rw [List.map_cons, List.foldl_cons, keep_map, ih, List.foldl_cons]
  exact folded []

end Deed

/-! ### Histories by key -/

namespace Ring

/-- Renaming hashes does not change a history if it keeps the hashes that are recorded. -/
theorem map_history {f : UInt64 → UInt64} {calls : List Call}
    (hf : ∀ c ∈ calls, ∀ hash, c.recorded = some hash → f hash = hash) (r : Ring w) :
    (r.history calls).map (Deed.map f) = r.history calls := by
  induction calls generalizing r with
  | nil => rfl
  | cons c calls ih =>
    have later := ih (fun c' member => hf c' (List.mem_cons_of_mem c member)) (r.step c)
    have entries : (r.entries c.tick).map (Deed.map f) = r.entries c.tick := by
      unfold entries
      split <;> rfl
    rw [history, List.map_append, later, deeds, List.map_append, entries]
    cases recorded : c.recorded with
    | none => rfl
    | some hash =>
      have kept := hf c List.mem_cons_self hash recorded
      simp only [List.map_cons, List.map_nil, Deed.map, kept]

end Ring

namespace Tracker

/-- The key that a request is about; a request about all keys has none. -/
def Request.key : Request → ByteArray
  | .record key | .estimates key | .recordAndEstimate key => key
  | .itemCounts => .empty

/-- What a visit does to the buckets, told by its key instead of the key's hash. -/
def deeds (t : Tracker w) (v : Visit) : List (Deed ByteArray) :=
  (t.ring.history (t.calls v)).map (Deed.map fun _ => v.request.key)

def history (t : Tracker w) : List Visit → List (Deed ByteArray)
  | [] => []
  | v :: visits => t.deeds v ++ (t.step v).history visits

theorem map_deeds (t : Tracker w) (v : Visit) :
    (t.deeds v).map (Deed.map t.hasher.hash) = t.ring.history (t.calls v) := by
  have one_hash : ∀ c ∈ t.calls v, ∀ hash, c.recorded = some hash →
      t.hasher.hash v.request.key = hash := by
    obtain ⟨env, request⟩ := v
    intro c member hash recorded
    cases request with
    | record key =>
      rw [List.mem_singleton.mp member] at recorded
      exact Option.some.inj recorded
    | estimates key =>
      rw [List.mem_singleton.mp member] at recorded
      cases recorded
    | itemCounts =>
      rw [List.mem_singleton.mp member] at recorded
      cases recorded
    | recordAndEstimate key =>
      rcases List.mem_cons.mp member with rfl | member
      · cases recorded
      · rw [List.mem_singleton.mp member] at recorded
        exact Option.some.inj recorded
  have renamed := t.ring.map_history one_hash
  unfold deeds
  rw [List.map_map]
  refine Eq.trans (List.map_congr_left fun deed _ => ?_) renamed
  cases deed <;> rfl

/-- The history by keys is the ring's history once the keys are hashed. -/
theorem history_hash (t : Tracker w) (hr : 0 < t.ring.size) (visits : List Visit) :
    (t.history visits).map (Deed.map t.hasher.hash) = t.ring.history (t.allCalls visits) := by
  induction visits generalizing t with
  | nil => rfl
  | cons v visits ih =>
    have later := ih (t.step v) (by rwa [t.size_step hr])
    unfold allCalls at later ⊢
    rw [t.hasher_step, t.calls_step hr, t.ring_step hr] at later
    rw [history, List.map_append, t.map_deeds, later, List.flatMap_cons, Ring.history_append]

/-! ### Estimates -/

/-- Each bucket of a tracker is its fresh counter, filled with the keys recorded since it was last
entered. -/
theorem IsBuiltOver.getElem?_buckets {t : Tracker w} {counter : Counter w}
    (h : t.IsBuiltOver counter) (visits : List Visit) {b : Nat}
    (hb : b < t.config.bucketCount.toNat) :
    (t.after visits).ring.buckets[b]? = some
      (.fill counter ((Deed.keptIn b (t.history visits)).map t.hasher.hash)) := by
  have filled := (Ring.of_ofCounters h.ring).1.after h.fresh_copies (t.allCalls visits)
  rw [← Deed.keptIn_map, t.history_hash h.nonempty, t.ring_after h.nonempty, filled b,
    Array.getElem?_replicate, if_pos hb]
  rfl

/-- In all runs of a fresh tracker, the estimates of a key that a query answers lie between the
records of the key and all records that each bucket took since it was last entered; the latter are
what the raw counts show at the same tick. -/
theorem estimates_within :
    (∀ (config : Config) (t : Tracker w) (events : List Event),
      ofConfig config = .ok (t, events) →
        t.config = config ∧ ∃ counter, t.IsBuiltOver counter) ∧
    ∀ (t : Tracker w) (counter : Counter w), t.IsBuiltOver counter →
      ∀ (visits : List Visit) (env : Environment) (key : ByteArray), ∃ estimates itemCounts,
        (t.after visits).answer ⟨env, .estimates key⟩ = .numbers estimates ∧
        (t.after visits).answer ⟨env, .itemCounts⟩ = .numbers itemCounts ∧
        estimates.length = t.config.bucketCount.toNat ∧
        itemCounts.length = t.config.bucketCount.toNat ∧
        ∀ i < t.config.bucketCount.toNat, ∃ estimate itemCount,
          estimates[i]? = some estimate ∧ itemCounts[i]? = some itemCount ∧
          Counter.Estimates w
            ((Deed.keptIn ((t.after (visits ++ [⟨env, .estimates key⟩])).ring.slot i)
              (t.history (visits ++ [⟨env, .estimates key⟩]))).countP (· = key))
            itemCount estimate t.config.kind := by
  constructor
  · intro config t events built
    exact isBuiltOver_of_ofConfig built
  · intro t counter h visits env key
    let asked := t.after (visits ++ [⟨env, .estimates key⟩])
    have step : asked = (t.after visits).step ⟨env, .estimates key⟩ := t.after_append visits _
    have size : asked.ring.size = t.config.bucketCount.toNat := h.size_after _
    refine ⟨asked.ring.newestFirst (·.estimate (t.hasher.hash key)),
      asked.ring.newestFirst (·.itemCount), ?_, ?_, ?_, ?_, ?_⟩
    · rw [answer_estimates, hasher_after, step]
    · rw [answer_itemCounts, step, ring_step_estimates]
    · rw [Ring.length_newestFirst, size]
    · rw [Ring.length_newestFirst, size]
    · intro i hi
      have place : asked.ring.slot i < t.config.bucketCount.toNat := by
        rw [← size]
        exact asked.ring.slot_lt (by omega) i
      have bucket := h.getElem?_buckets (visits ++ [⟨env, .estimates key⟩]) place
      let keys := Deed.keptIn (asked.ring.slot i) (t.history (visits ++ [⟨env, .estimates key⟩]))
      refine ⟨(counter.recordAll (keys.map t.hasher.hash)).estimate (t.hasher.hash key),
        (keys.map t.hasher.hash).length, ?_, ?_, ?_⟩
      · rw [asked.ring.getElem?_newestFirst _ (by omega), bucket]
        rfl
      · rw [asked.ring.getElem?_newestFirst _ (by omega), bucket]
        rfl
      · have own : keys.countP (· = key) ≤
            (keys.map t.hasher.hash).count (t.hasher.hash key) := by
          rw [List.count_eq_countP, List.countP_map]
          apply List.countP_mono_left
          intro other _ same
          rw [of_decide_eq_true same]
          exact beq_self_eq_true _
        rw [← h.kind]
        exact (h.fresh.estimates _ _).mono own

/-- Slice 4 shows two records and at least the one of this key. -/
theorem estimates_within_late :
    small.IsBuiltOver (.sketch .small) ∧ ∃ estimates itemCounts estimate itemCount,
      (small.after lateVisits).answer ⟨.atTick 61, .estimates "a".toUTF8⟩ = .numbers estimates ∧
      (small.after lateVisits).answer ⟨.atTick 61, .itemCounts⟩ = .numbers itemCounts ∧
      estimates[2]? = some estimate ∧ itemCounts[2]? = some itemCount ∧
      Counter.Estimates .bits8 1 itemCount estimate .sketch := by
  obtain ⟨estimates, itemCounts, estimated, counted, -, -, within⟩ := estimates_within.2 small
    (.sketch .small) isBuiltOver_small lateVisits (.atTick 61) "a".toUTF8
  obtain ⟨estimate, itemCount, shown, total, bounds⟩ := within 2 (by decide)
  exact ⟨isBuiltOver_small, estimates, itemCounts, estimate, itemCount, estimated, counted,
    shown, total, bounds⟩

end Tracker

end AccessHistory
