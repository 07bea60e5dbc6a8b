import AccessHistory.Proofs.TrackerVisits
import Mathlib.Data.Nat.ModEq

/-!
The sliding window. As long as time moves on by at most one slice at a poll and falls behind by at
most one, a ring of three or more buckets shows exactly what was recorded in each of its latest
slices.
-/

set_option autoImplicit false
set_option relaxedAutoImplicit false

namespace AccessHistory

/-! ### Chronicles -/

/-- The latest slice that was polled, and each recorded hash with the slice that was the latest
when it was recorded, oldest first. -/
structure Chronicle where
  now : Nat := 0
  log : List (Nat × UInt64) := []

namespace Chronicle

/-- Moves on to a slice, unless it is an older one. -/
def turn (ch : Chronicle) (slice : Nat) : Chronicle := { ch with now := max ch.now slice }

def note (ch : Chronicle) (hash : UInt64) : Chronicle :=
  { ch with log := ch.log ++ [(ch.now, hash)] }

/-- Takes down a call: its poll first, then its record if it makes one. -/
def hear (ticksPerBucket : UInt64) (ch : Chronicle) (c : Ring.Call) : Chronicle :=
  match c.recorded with
  | none => ch.turn (c.tick.toNat / ticksPerBucket.toNat)
  | some hash => (ch.turn (c.tick.toNat / ticksPerBucket.toNat)).note hash

theorem now_hear (ticksPerBucket : UInt64) (ch : Chronicle) (c : Ring.Call) :
    (ch.hear ticksPerBucket c).now = max ch.now (c.tick.toNat / ticksPerBucket.toNat) := by
  unfold hear
  cases c.recorded <;> rfl

def ofCalls (ticksPerBucket : UInt64) (calls : List Ring.Call) : Chronicle :=
  calls.foldl (hear ticksPerBucket) {}

/-- The hashes that were recorded `age` slices before the latest one. -/
def aged (ch : Chronicle) (age : Nat) : List UInt64 :=
  (ch.log.filter fun entry => entry.1 + age = ch.now).map Prod.snd

/-- The hashes of the latest `n` slices that belong in bucket `b` of `n`. -/
def inBucket (ch : Chronicle) (n b : Nat) : List UInt64 :=
  (ch.log.filter fun entry => entry.1 % n = b ∧ ch.now < entry.1 + n).map Prod.snd

/-- The number of records in the latest `n` slices. -/
def recent (ch : Chronicle) (n : Nat) : Nat :=
  (ch.log.filter fun entry => ch.now < entry.1 + n).length

end Chronicle

/-- Polls that never leave the latest slice by more than one. -/
def Follows (now : Nat) : List Nat → Prop
  | [] => True
  | slice :: slices => now ≤ slice + 1 ∧ slice ≤ now + 1 ∧ Follows (max now slice) slices

/-- Polls that start in a slice of another bucket than the last one, and follow each other. -/
def Steady (n : Nat) : List Nat → Prop
  | [] => True
  | slice :: slices => slice % n ≠ n - 1 ∧ Follows slice slices

instance decidableFollows (now : Nat) : (slices : List Nat) → Decidable (Follows now slices)
  | [] => inferInstanceAs (Decidable True)
  | slice :: slices =>
    have := decidableFollows (max now slice) slices
    inferInstanceAs (Decidable (_ ∧ _ ∧ _))

instance (n : Nat) : (slices : List Nat) → Decidable (Steady n slices)
  | [] => inferInstanceAs (Decidable True)
  | slice :: slices => inferInstanceAs (Decidable (_ ∧ Follows slice slices))

/-! ### Residues -/

private theorem eq_of_mod_eq {a b n : Nat} (h : a % n = b % n) (ha : a < b + n)
    (hb : b < a + n) : a = b := by
  rcases Nat.le_total a b with le | le
  · have divides := Nat.sub_mod_eq_zero_of_mod_eq h.symm
    rw [Nat.mod_eq_of_lt (by omega)] at divides
    omega
  · have divides := Nat.sub_mod_eq_zero_of_mod_eq h
    rw [Nat.mod_eq_of_lt (by omega)] at divides
    omega

namespace Ring

variable {w : CellWidth} {r : Ring w} {fresh : Array (Counter w)} {ch : Chronicle}

/-! ### The invariant -/

/-- A ring keeps up with a chronicle: bucket `b` holds the latest slice with residue `b`. -/
structure Tracks (r : Ring w) (fresh : Array (Counter w)) (ch : Chronicle) : Prop where
  holds : r.Holds fresh (ch.inBucket fresh.size)
  mostRecent : r.mostRecent = ch.now % fresh.size
  past : ∀ entry ∈ ch.log, entry.1 ≤ ch.now

private theorem inBucket_turn {n : Nat} (hn : 0 < n) (past : ∀ entry ∈ ch.log, entry.1 ≤ ch.now)
    (b : Nat) : (ch.turn (ch.now + 1)).inBucket n b =
      if b = (ch.now + 1) % n then [] else ch.inBucket n b := by
  have next : max ch.now (ch.now + 1) = ch.now + 1 := by omega
  unfold Chronicle.inBucket Chronicle.turn
  rw [next]
  split
  · next entered =>
    rw [List.map_eq_nil_iff, List.filter_eq_nil_iff]
    intro entry logged kept
    have := past entry logged
    obtain ⟨same, inside⟩ := of_decide_eq_true kept
    have := eq_of_mod_eq (same.trans entered) (by omega) (by omega)
    omega
  · next other =>
    refine congrArg (List.map Prod.snd) (List.filter_congr fun entry logged => ?_)
    refine decide_eq_decide.mpr (and_congr_right fun same => ?_)
    have leaving : entry.1 + n ≠ ch.now + 1 := by
      intro wraps
      rw [← wraps, Nat.add_mod_right] at other
      exact other same.symm
    change ch.now + 1 < entry.1 + n ↔ ch.now < entry.1 + n
    omega

private theorem inBucket_note (n : Nat) (hn : 0 < n) (hash : UInt64) (b : Nat) :
    (ch.note hash).inBucket n b =
      if b = ch.now % n then ch.inBucket n b ++ [hash] else ch.inBucket n b := by
  have present : ch.now < ch.now + n := by omega
  unfold Chronicle.inBucket Chronicle.note
  rw [List.filter_append, List.map_append]
  split
  · next here => simp [here, hn]
  · next other => simp [Ne.symm other]

/-- At most one slice away from the latest one, only the next slice makes the ring rotate. -/
theorem Tracks.rotate (h : r.Tracks fresh ch) (hf : ∀ c ∈ fresh, c.IsFresh)
    (hn : 3 ≤ fresh.size) {tick : UInt64} (behind : ch.now ≤ r.slice tick + 1)
    (ahead : r.slice tick ≤ ch.now + 1) :
    (r.rotate tick).1.Tracks fresh (ch.turn (r.slice tick)) ∧
      (r.slice tick ≤ ch.now → r.rotate tick = (r, none)) := by
  have size := h.holds.size_eq
  have target : r.target tick = r.slice tick % fresh.size := by rw [Ring.target, size]
  have latest : r.mostRecent = ch.now % fresh.size := h.mostRecent
  by_cases next : r.slice tick = ch.now + 1
  · refine ⟨?_, fun le => by omega⟩
    have rotates : ¬ r.IsCurrent (r.target tick) := by
      rw [target, next]
      rintro (current | before)
      · have := eq_of_mod_eq (current.trans latest) (by omega) (by omega)
        omega
      · rw [size, Nat.mod_add_mod] at before
        have := eq_of_mod_eq (before.trans latest) (by omega) (by omega)
        omega
    rw [r.rotate_of_not_isCurrent tick (by omega) rotates]
    refine ⟨?_, ?_, ?_⟩
    · refine h.holds.enter hf (r.target_lt tick (by omega)) ?_ fun b other => ?_
      · rw [target, next, inBucket_turn (by omega) h.past, if_pos rfl]
      · rw [target, next] at other
        rw [next, inBucket_turn (by omega) h.past, if_neg other]
    · change r.target tick = max ch.now (r.slice tick) % fresh.size
      rw [target, next, Nat.max_eq_right (Nat.le_succ ch.now)]
    · intro entry logged
      exact Nat.le_trans (h.past entry logged) (Nat.le_max_left _ _)
  · have stays : r.rotate tick = (r, none) := by
      refine r.rotate_of_isCurrent tick ?_
      rw [target]
      have near : r.slice tick = ch.now ∨ r.slice tick + 1 = ch.now := by omega
      rcases near with same | before
      · exact .inl (by rw [same, latest])
      · exact .inr (by rw [size, Nat.mod_add_mod, before, latest])
    have same : ch.turn (r.slice tick) = ch := by
      unfold Chronicle.turn
      rw [Nat.max_eq_left (by omega)]
    rw [stays, same]
    exact ⟨h, fun _ => rfl⟩

theorem Tracks.recordNewest (h : r.Tracks fresh ch) (hn : 0 < fresh.size) (hash : UInt64) :
    (r.recordNewest hash).Tracks fresh (ch.note hash) := by
  refine ⟨?_, h.mostRecent, ?_⟩
  · refine h.holds.recordNewest ?_ fun b other => ?_
    · rw [inBucket_note _ hn, if_pos h.mostRecent]
    · rw [h.mostRecent] at other
      rw [inBucket_note _ hn, if_neg other]
  · intro entry logged
    rcases List.mem_append.mp logged with before | made
    · exact h.past entry before
    · rw [List.mem_singleton.mp made]
      exact Nat.le_refl ch.now

theorem Tracks.step_of_rotate {c : Call} (hn : 0 < fresh.size)
    (checked : (r.rotate c.tick).1.Tracks fresh (ch.turn (r.slice c.tick))) :
    (r.step c).Tracks fresh (ch.hear r.ticksPerBucket c) := by
  unfold Chronicle.hear
  cases recorded : c.recorded with
  | none =>
    rw [step_of_not_recorded r recorded]
    exact checked
  | some hash =>
    rw [step_of_recorded r recorded]
    exact checked.recordNewest hn hash

theorem Tracks.after (h : r.Tracks fresh ch) (hf : ∀ c ∈ fresh, c.IsFresh) (hn : 3 ≤ fresh.size)
    {calls : List Call} (steady : Follows ch.now (calls.map fun c => r.slice c.tick)) :
    (r.after calls).Tracks fresh (calls.foldl (Chronicle.hear r.ticksPerBucket) ch) := by
  induction calls generalizing r ch with
  | nil => exact h
  | cons c calls ih =>
    obtain ⟨behind, ahead, steady⟩ := steady
    have checked := (h.rotate hf hn behind ahead).1
    have slices : (r.step c).slice = r.slice := r.slice_after [c]
    have later := ih (checked.step_of_rotate (by omega)) (by rwa [Chronicle.now_hear, slices])
    rwa [(r.frame_step c).2.1] at later

/-! ### The start -/

/-- The first poll of a fresh ring puts it in step with time, unless that poll lands in the bucket
before the first one and is taken for a late one. -/
theorem tracks_rotate_of_ofCounters {ticksPerBucket : UInt64} {source : TickSource}
    (hr : ofCounters fresh ticksPerBucket source = .ok r) (hf : ∀ c ∈ fresh, c.IsFresh)
    {tick : UInt64} (early : r.slice tick % fresh.size ≠ fresh.size - 1) :
    (r.rotate tick).1.Tracks fresh (({} : Chronicle).turn (r.slice tick)) := by
  obtain ⟨holds, first, -, -, nonempty⟩ := of_ofCounters hr
  have size := holds.size_eq
  have now : max 0 (r.slice tick) = r.slice tick := Nat.zero_max _
  rcases r.rotate_cases tick nonempty with ⟨current, stays⟩ | ⟨-, rotated⟩
  · rw [stays]
    have target : r.slice tick % fresh.size = 0 := by
      rw [← size] at early ⊢
      rcases current with here | before
      · exact here.trans first
      · have inside := r.target_lt tick nonempty
        have short : ¬ r.target tick + 1 < r.size := by
          intro short
          rw [Nat.mod_eq_of_lt short, first] at before
          omega
        exact absurd (show r.target tick = r.size - 1 by omega) early
    refine ⟨holds, ?_, fun entry logged => nomatch logged⟩
    change r.mostRecent = max 0 (r.slice tick) % fresh.size
    rw [now, target, first]
  · rw [rotated]
    refine ⟨holds.enter hf (r.target_lt tick nonempty) rfl fun _ _ => rfl, ?_,
      fun entry logged => nomatch logged⟩
    change r.target tick = max 0 (r.slice tick) % fresh.size
    rw [now, ← size]
    rfl

/-- A fresh ring keeps up with the chronicle of any steady run. -/
theorem tracks_after {ticksPerBucket : UInt64} {source : TickSource}
    (hr : ofCounters fresh ticksPerBucket source = .ok r) (hf : ∀ c ∈ fresh, c.IsFresh)
    (hn : 3 ≤ fresh.size) {calls : List Call}
    (steady : Steady fresh.size (calls.map fun c => r.slice c.tick)) :
    (r.after calls).Tracks fresh (.ofCalls ticksPerBucket calls) := by
  obtain ⟨holds, first, ticks, -, -⟩ := of_ofCounters hr
  subst ticks
  cases calls with
  | nil => exact ⟨holds, by rw [after, List.foldl_nil, first]; exact (Nat.zero_mod _).symm,
      fun entry logged => nomatch logged⟩
  | cons c calls =>
    obtain ⟨early, steady⟩ := steady
    have checked := tracks_rotate_of_ofCounters hr hf early
    have now : (({} : Chronicle).hear r.ticksPerBucket c).now = r.slice c.tick :=
      (Chronicle.now_hear _ _ c).trans (Nat.zero_max _)
    have slices : (r.step c).slice = r.slice := r.slice_after [c]
    have onwards : Follows (({} : Chronicle).hear r.ticksPerBucket c).now
        (calls.map fun c' => (r.step c).slice c'.tick) := by rwa [now, slices]
    have later := (checked.step_of_rotate (by omega)).after hf hn onwards
    rwa [(r.frame_step c).2.1] at later

/-! ### Reading the window -/

/-- The bucket of age `i` is the one of the slice `i` before the latest. -/
theorem Tracks.inBucket_slot (h : r.Tracks fresh ch) {i : Nat} (hi : i < fresh.size) :
    ch.inBucket fresh.size (r.slot i) = ch.aged i := by
  refine congrArg (List.map Prod.snd) (List.filter_congr fun entry logged => ?_)
  have := h.past entry logged
  have turns : (r.slot i + i) % fresh.size = ch.now % fresh.size := by
    rw [← h.holds.size_eq] at hi ⊢
    rw [r.slot_add_mod hi, h.mostRecent, h.holds.size_eq]
  refine decide_eq_decide.mpr ⟨?_, fun aged => ⟨?_, by omega⟩⟩
  · rintro ⟨same, inside⟩
    have aged : (entry.1 + i) % fresh.size = (r.slot i + i) % fresh.size := by
      rw [← same, Nat.mod_add_mod]
    exact eq_of_mod_eq (aged.trans turns) (by omega) (by omega)
  · have residue : entry.1 % fresh.size = r.slot i % fresh.size := by
      refine Nat.ModEq.add_right_cancel' i ?_
      change (entry.1 + i) % fresh.size = _
      rw [aged, turns]
    rw [residue, ← h.holds.size_eq, Nat.mod_eq_of_lt (r.slot_lt (by rw [h.holds.size_eq]; omega) i)]

private theorem sum_aged (ch : Chronicle) (past : ∀ entry ∈ ch.log, entry.1 ≤ ch.now) (n : Nat) :
    ((List.range n).map fun i => (ch.aged i).length).sum = ch.recent n := by
  induction n with
  | zero =>
    refine (List.length_eq_zero_iff.mpr (List.filter_eq_nil_iff.mpr fun entry logged => ?_)).symm
    have := past entry logged
    simp only [decide_eq_true_eq]
    omega
  | succ n ih =>
    have split (log : List (Nat × UInt64)) :
        (log.filter fun entry => ch.now < entry.1 + (n + 1)).length =
          (log.filter fun entry => ch.now < entry.1 + n).length +
            (log.filter fun entry => entry.1 + n = ch.now).length := by
      simp only [← List.countP_eq_length_filter]
      induction log with
      | nil => rfl
      | cons entry log ih =>
        simp only [List.countP_cons, ih, decide_eq_true_eq]
        split_ifs <;> omega
    rw [List.range_succ, List.map_append, List.sum_append, ih]
    unfold Chronicle.recent Chronicle.aged
    rw [split, List.map_singleton, List.sum_singleton, List.length_map]

/-- What a ring shows of a chronicle. Entry `i` of its answers is about the slice `i` before the
latest one, and nothing changes until time moves past the latest slice. -/
structure Shows (r : Ring w) (fresh : Array (Counter w)) (ch : Chronicle) : Prop where
  itemCounts : r.newestFirst (·.itemCount) =
    (List.range fresh.size).map fun i => (ch.aged i).length
  estimates : ∀ i < fresh.size, ∃ c, fresh[r.slot i]? = some c ∧ ∀ hash,
    (r.newestFirst (·.estimate hash))[i]? = some ((c.recordAll (ch.aged i)).estimate hash)
  total : (r.newestFirst (·.itemCount)).sum = ch.recent fresh.size
  still : ∀ tick, r.slice tick = ch.now ∨ r.slice tick + 1 = ch.now → r.rotate tick = (r, none)

theorem Tracks.shows (h : r.Tracks fresh ch) (hf : ∀ c ∈ fresh, c.IsFresh)
    (hn : 3 ≤ fresh.size) : r.Shows fresh ch := by
  have size := h.holds.size_eq
  have aged {i : Nat} (hi : i < fresh.size) :
      ∃ c, fresh[r.slot i]? = some c ∧ r.buckets[r.slot i]? = some (.fill c (ch.aged i)) := by
    have inside : r.slot i < fresh.size := by
      rw [← size]
      exact r.slot_lt (by omega) i
    refine ⟨fresh[r.slot i], Array.getElem?_eq_getElem inside, ?_⟩
    rw [h.holds, h.inBucket_slot hi, Array.getElem?_eq_getElem inside, Option.map_some]
  have itemCounts : r.newestFirst (·.itemCount) =
      (List.range fresh.size).map fun i => (ch.aged i).length := by
    apply newestFirst_eq
    · rw [List.length_map, List.length_range]
      omega
    · intro i hi
      obtain ⟨c, -, filled⟩ := aged (i := i) (by omega)
      rw [filled, List.getElem?_map, List.getElem?_range (by omega)]
      rfl
  refine ⟨itemCounts, ?_, ?_, ?_⟩
  · intro i hi
    obtain ⟨c, counter, filled⟩ := aged hi
    refine ⟨c, counter, ?_⟩
    intro hash
    rw [r.getElem?_newestFirst _ (by omega), filled]
    rfl
  · rw [itemCounts, sum_aged ch h.past]
  · intro tick near
    exact (h.rotate hf hn (by omega) (by omega)).2 (by omega)

end Ring

/-! ### Steady runs -/

variable {w : CellWidth}

theorem Tracker.shows_after {t : Tracker w} {counter : Counter w} (h : t.IsBuiltOver counter)
    (hn : 3 ≤ t.config.bucketCount.toNat) {visits : List Tracker.Visit}
    (steady : Steady t.config.bucketCount.toNat
      ((t.allCalls visits).map fun c => t.ring.slice c.tick)) :
    (t.after visits).ring.Shows (Array.replicate t.config.bucketCount.toNat counter)
      (.ofCalls t.config.ticksPerBucket (t.allCalls visits)) := by
  have size : (Array.replicate t.config.bucketCount.toNat counter).size =
      t.config.bucketCount.toNat := Array.size_replicate
  rw [t.ring_after h.nonempty]
  exact (Ring.tracks_after h.ring h.fresh_copies (by rwa [size]) (by rwa [size])).shows
    h.fresh_copies (by rwa [size])

/-- In a steady run of a fresh ring or tracker with at least three buckets, the ring shows after
every operation exactly the records of each of the latest slices, and queries are answered from
the ring that they leave behind. -/
theorem shows_of_steady :
    (∀ (fresh : Array (Counter w)) (ticksPerBucket : UInt64) (source : TickSource) (r : Ring w),
      Ring.ofCounters fresh ticksPerBucket source = .ok r → (∀ c ∈ fresh, c.IsFresh) →
      3 ≤ fresh.size → ∀ calls : List Ring.Call,
      Steady fresh.size (calls.map fun c => r.slice c.tick) →
        (r.after calls).Shows fresh (.ofCalls ticksPerBucket calls) ∧
        (∀ tick hash, ((r.after calls).respondAt tick (.estimates hash)).1 = .numbers
          ((r.after (calls ++ [⟨tick, .estimates hash⟩])).newestFirst (·.estimate hash))) ∧
        ∀ tick, ((r.after calls).respondAt tick .itemCounts).1 = .numbers
          ((r.after (calls ++ [⟨tick, .itemCounts⟩])).newestFirst (·.itemCount))) ∧
    (∀ (config : Config) (t : Tracker w) (events : List Event),
      Tracker.ofConfig config = .ok (t, events) →
        t.config = config ∧ ∃ counter, t.IsBuiltOver counter) ∧
    ∀ (t : Tracker w) (counter : Counter w), t.IsBuiltOver counter →
      3 ≤ t.config.bucketCount.toNat → ∀ visits : List Tracker.Visit,
      Steady t.config.bucketCount.toNat
        ((t.allCalls visits).map fun c => t.ring.slice c.tick) →
        (t.after visits).ring.Shows (Array.replicate t.config.bucketCount.toNat counter)
          (.ofCalls t.config.ticksPerBucket (t.allCalls visits)) ∧
        (∀ env key, (t.after visits).answer ⟨env, .estimates key⟩ = .numbers
          ((t.after (visits ++ [⟨env, .estimates key⟩])).ring.newestFirst
            (·.estimate ((t.after visits).hasher.hash key)))) ∧
        (∀ env, (t.after visits).answer ⟨env, .itemCounts⟩ = .numbers
          ((t.after (visits ++ [⟨env, .itemCounts⟩])).ring.newestFirst (·.itemCount))) ∧
        ∀ env key, (t.after visits).answer ⟨env, .recordAndEstimate key⟩ =
          (t.after visits).answer ⟨env, .estimates key⟩ := by
  refine ⟨?_, ?_, ?_⟩
  · intro fresh ticksPerBucket source r built hf hn calls steady
    refine ⟨(Ring.tracks_after built hf hn steady).shows hf hn, ?_, ?_⟩
    · intro tick hash
      rw [Ring.after_append]
      rfl
    · intro tick
      rw [Ring.after_append]
      rfl
  · intro config t events built
    exact Tracker.isBuiltOver_of_ofConfig built
  · intro t counter h hn visits steady
    refine ⟨Tracker.shows_after h hn steady, ?_, ?_, ?_⟩
    · intro env key
      rw [Tracker.after_append]
      exact (t.after visits).answer_estimates env key
    · intro env
      rw [Tracker.after_append]
      exact (t.after visits).answer_itemCounts env
    · intro env key
      exact (t.after visits).answer_recordAndEstimate env key

/-- The late record counts in slice 4, and the record of slice 3 is out of the window of three. -/
theorem shows_of_steady_late :
    Tracker.small.IsBuiltOver (.sketch .small) ∧
    Steady 3 ((Tracker.small.allCalls Tracker.lateVisits).map fun c =>
      Tracker.small.ring.slice c.tick) ∧
    (Tracker.small.after Tracker.lateVisits).ring.Shows (.replicate 3 (.sketch .small))
      (.ofCalls 10 (Tracker.small.allCalls Tracker.lateVisits)) ∧
    (Tracker.small.after Tracker.lateVisits).ring.newestFirst (·.itemCount) = [1, 0, 2] := by
  have steady : Steady 3 ((Tracker.small.allCalls Tracker.lateVisits).map fun c =>
    Tracker.small.ring.slice c.tick) := by decide
  have shown := (shows_of_steady.2.2 Tracker.small (.sketch .small) Tracker.isBuiltOver_small
    (by decide) Tracker.lateVisits steady).1
  exact ⟨Tracker.isBuiltOver_small, steady, shown, shown.itemCounts.trans (by decide)⟩

end AccessHistory
