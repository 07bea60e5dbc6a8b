import AccessHistory.Proofs.TrackerVisits
import AccessHistory.Proofs.TurnedRings

/-!
Independence of the origin of time. Moving a whole run by some slices turns the ring, and turned
rings show the same history. The start breaks the symmetry: every ring starts at bucket 0, whatever
the first slice, so a first poll that belongs in the last bucket is taken for a late one.
-/

set_option autoImplicit false
set_option relaxedAutoImplicit false

namespace AccessHistory

variable {w : CellWidth}

namespace Tracker

def polls (t : Tracker w) (v : Visit) : List UInt64 := (t.calls v).map (·.tick)

/-- Visits with the same request, at ticks that belong together. -/
def Paired (t : Tracker w) (Together : UInt64 → UInt64 → Prop) (v v' : Visit) : Prop :=
  v'.request = v.request ∧ List.Forall₂ Together (t.polls v) (t.polls v')

theorem Paired.calls {t : Tracker w} {Together : UInt64 → UInt64 → Prop} {v v' : Visit}
    (h : t.Paired Together v v') :
    List.Forall₂ (fun c c' => c'.request = c.request ∧ Together c.tick c'.tick)
      (t.calls v) (t.calls v') := by
  obtain ⟨env, request⟩ := v
  obtain ⟨env', request'⟩ := v'
  obtain ⟨same, together⟩ := h
  cases same
  cases request with
  | record key =>
    obtain ⟨first, -⟩ := List.forall₂_cons.mp together
    exact .cons ⟨rfl, first⟩ .nil
  | estimates key =>
    obtain ⟨first, -⟩ := List.forall₂_cons.mp together
    exact .cons ⟨rfl, first⟩ .nil
  | itemCounts =>
    obtain ⟨first, -⟩ := List.forall₂_cons.mp together
    exact .cons ⟨rfl, first⟩ .nil
  | recordAndEstimate key =>
    obtain ⟨first, rest⟩ := List.forall₂_cons.mp together
    obtain ⟨second, -⟩ := List.forall₂_cons.mp rest
    exact .cons ⟨rfl, first⟩ (.cons ⟨rfl, second⟩ .nil)

theorem answer_of_alike {R : Ring w → Ring w → Prop} {Together : UInt64 → UInt64 → Prop}
    (h : Ring.Alike R Together) {t t' : Tracker w} (hr : 0 < t.ring.size) (hr' : 0 < t'.ring.size)
    (calls : t'.calls = t.calls) {v v' : Visit} (pair : t.Paired Together v v')
    (rotated : ∀ tick tick', Together tick tick' → (t.polls v).head? = some tick →
      R (t.ring.rotate tick).1 (t'.ring.rotate tick').1) :
    t'.answer v' = t.answer v ∧ R (t.step v).ring (t'.step v').ring := by
  obtain ⟨c, rest, other, -, calls_v⟩ := t.calls_eq_cons v
  have together := pair.calls
  rw [calls_v] at together
  obtain ⟨c', rest', first, later, calls_v'⟩ := List.forall₂_cons_left_iff.mp together
  have checked : R (t.ring.rotate c.tick).1 (t'.ring.rotate c'.tick).1 := by
    refine rotated c.tick c'.tick first.2 ?_
    rw [polls, calls_v]
    rfl
  constructor
  · rw [t.answer_eq v (congrArg List.head? calls_v),
      t'.answer_eq v' (congrArg List.head? (calls ▸ calls_v'))]
    exact h.respondAt_of_rotate first.1 checked other
  · rw [t.ring_step hr, t'.ring_step hr', calls, calls_v, calls_v']
    rw [Ring.after_cons, Ring.after_cons]
    exact h.after later (h.step_of_rotate first.1 checked)

theorem answers_of_alike {R : Ring w → Ring w → Prop} {Together : UInt64 → UInt64 → Prop}
    (h : Ring.Alike R Together) {t t' : Tracker w} (hr : 0 < t.ring.size) (hr' : 0 < t'.ring.size)
    (calls : t'.calls = t.calls) {visits visits' : List Visit}
    (paired : List.Forall₂ (t.Paired Together) visits visits')
    (rotated : ∀ tick tick', Together tick tick' → (visits.flatMap t.polls).head? = some tick →
      R (t.ring.rotate tick).1 (t'.ring.rotate tick').1) :
    t'.answers visits' = t.answers visits := by
  induction visits generalizing t t' visits' with
  | nil =>
    cases paired
    rfl
  | cons v visits ih =>
    obtain ⟨v', rest', pair, rest, rfl⟩ := List.forall₂_cons_left_iff.mp paired
    have first := answer_of_alike h hr hr' calls pair fun tick tick' together polled => by
      refine rotated tick tick' together ?_
      rw [List.flatMap_cons, List.head?_append, polled]
      rfl
    have calls_t := t.calls_step hr v
    have paired_later : List.Forall₂ ((t.step v).Paired Together) visits rest' := by
      unfold Paired polls at rest ⊢
      rwa [calls_t]
    have later := ih (by rwa [t.size_step hr]) (by rwa [t'.size_step hr'])
      ((t'.calls_step hr' v').trans (calls.trans calls_t.symm)) paired_later
      fun tick tick' together _ => h.rotate first.2 together
    rw [answers, answers, first.1, later]

theorem Paired.imp {t : Tracker w} {Together Together' : UInt64 → UInt64 → Prop}
    (h : ∀ tick tick', Together tick tick' → Together' tick tick') {visits visits' : List Visit}
    (paired : List.Forall₂ (t.Paired Together) visits visits') :
    List.Forall₂ (t.Paired Together') visits visits' :=
  List.Forall₂.imp (fun _ _ pair => ⟨pair.1, List.Forall₂.imp h pair.2⟩) paired

/-! ### Moving a run -/

namespace IsBuiltOver

variable {t : Tracker w} {counter : Counter w} {first : UInt64} {s : Nat}

/-- A run that is moved by some slices is answered the same, if both first polls are taken for late
ones or neither is. -/
theorem answers_delayed (h : t.IsBuiltOver counter)
    (together : t.ring.slice first % t.ring.size = t.ring.size - 1 ↔
      (t.ring.slice first + s) % t.ring.size = t.ring.size - 1)
    {visits visits' : List Visit} (polled : (visits.flatMap t.polls).head? = some first)
    (delayed : List.Forall₂ (t.Paired (Ring.DelayedBy (s * t.ring.ticksPerBucket.toNat)))
      visits visits') :
    t.answers visits' = t.answers visits := by
  obtain ⟨holds, start, -, -, nonempty⟩ := Ring.of_ofCounters h.ring
  apply answers_of_alike (Ring.alike_turned t.ring.ticksPerBucket s) nonempty nonempty rfl delayed
  intro tick tick' later earliest
  cases polled.symm.trans earliest
  exact Ring.turned_of_first h.fresh holds start nonempty (t.ring.slice_delayed later) together

/-- A run that has no room to leave its first slice is answered the same wherever both runs stay in
the first bucket or the last one. -/
theorem answers_confined (h : t.IsBuiltOver counter)
    (last : s % t.ring.size = t.ring.size - 1)
    (confined : 2 ^ 64 ≤ (s + 1) * t.ring.ticksPerBucket.toNat)
    {visits visits' : List Visit}
    (delayed : List.Forall₂ (t.Paired (Ring.DelayedBy (s * t.ring.ticksPerBucket.toNat)))
      visits visits') :
    t.answers visits' = t.answers visits := by
  obtain ⟨-, start, -, -, nonempty⟩ := Ring.of_ofCounters h.ring
  have alike := Ring.alike_of_lingers (w := w) t.ring.size nonempty t.ring.ticksPerBucket
  have lingers : ∀ tick tick',
      Ring.DelayedBy (s * t.ring.ticksPerBucket.toNat) tick tick' →
        Ring.Lingers t.ring.size t.ring.ticksPerBucket tick ∧
          Ring.Lingers t.ring.size t.ring.ticksPerBucket tick' := by
    intro tick tick' later
    have zero : t.ring.slice tick = 0 := by
      refine Nat.div_eq_of_lt ?_
      have := tick'.toNat_lt
      unfold Ring.DelayedBy at later
      rw [Nat.succ_mul] at confined
      omega
    have moved := t.ring.slice_delayed later
    rw [zero, Nat.zero_add] at moved
    unfold Ring.slice at zero moved
    unfold Ring.Lingers
    rw [zero, moved, Nat.zero_mod]
    exact ⟨.inl rfl, .inr last⟩
  exact answers_of_alike alike nonempty nonempty rfl (Paired.imp lingers delayed)
    fun tick tick' together _ => alike.rotate ⟨rfl, start, rfl, rfl⟩ together

end IsBuiltOver

/-! ### Telling two starts apart -/

theorem Paired.atTick (t : Tracker w) {Together : UInt64 → UInt64 → Prop} {tick tick' : UInt64}
    (together : Together tick tick') (request : Request) :
    t.Paired Together ⟨.atTick tick, request⟩ ⟨.atTick tick', request⟩ := by
  refine ⟨rfl, ?_⟩
  unfold polls Tracker.calls
  cases request <;> simp [Environment.poll_atTick, Environment.snd_poll_atTick, together]

theorem answers_record_itemCounts (t : Tracker w) (hr : 0 < t.ring.size) (tick tick' : UInt64)
    (key : ByteArray) :
    t.answers [⟨.atTick tick, .record key⟩, ⟨.atTick tick', .itemCounts⟩] =
      [.done, .numbers (((t.ring.step ⟨tick, .record (t.hasher.hash key)⟩).rotate tick').1.newestFirst
        (·.itemCount))] := by
  have polled (tick : UInt64) : ((Environment.atTick tick).poll t.ring.source).1 = tick :=
    Environment.poll_atTick tick t.ring.source
  have recorded : (t.step ⟨.atTick tick, .record key⟩).ring =
      t.ring.step ⟨tick, .record (t.hasher.hash key)⟩ := by
    rw [t.ring_step hr, calls, polled]
    rfl
  have counted : ((t.step ⟨.atTick tick, .record key⟩).step ⟨.atTick tick', .itemCounts⟩).ring =
      ((t.ring.step ⟨tick, .record (t.hasher.hash key)⟩).rotate tick').1 := by
    rw [ring_step _ (by rwa [t.size_step hr]), t.calls_step hr, recorded, calls, polled]
    rfl
  rw [answers, answers, answers, answer_itemCounts, counted, t.answer_eq _ rfl]
  rfl

/-- A record and a question in the slice before it or after it tell whether the record's poll was
taken for a late one. -/
theorem IsBuiltOver.together_of_answers {t : Tracker w} {counter : Counter w}
    (h : t.IsBuiltOver counter) (hn : 3 ≤ t.ring.size) (key : ByteArray)
    {tick near tick' near' : UInt64}
    (next : t.ring.slice near + 1 = t.ring.slice tick ∧
        t.ring.slice near' + 1 = t.ring.slice tick' ∨
      t.ring.slice near = t.ring.slice tick + 1 ∧ t.ring.slice near' = t.ring.slice tick' + 1)
    (same : t.answers [⟨.atTick tick', .record key⟩, ⟨.atTick near', .itemCounts⟩] =
      t.answers [⟨.atTick tick, .record key⟩, ⟨.atTick near, .itemCounts⟩]) :
    t.ring.slice tick % t.ring.size = t.ring.size - 1 ↔
      t.ring.slice tick' % t.ring.size = t.ring.size - 1 := by
  obtain ⟨-, start, -, -, nonempty⟩ := Ring.of_ofCounters h.ring
  rw [answers_record_itemCounts t nonempty, answers_record_itemCounts t nonempty] at same
  simp only [List.cons.injEq, Answer.numbers.injEq, true_and, and_true] at same
  have counts := congrArg (fun counts : List Nat => counts[0]? = some 0) same
  obtain ⟨newest, here, used⟩ := Ring.newest_of_recorded nonempty tick (t.hasher.hash key)
  obtain ⟨newest', here', used'⟩ := Ring.newest_of_recorded nonempty tick' (t.hasher.hash key)
  have before := Ring.isCurrent_of_first start hn tick (t.hasher.hash key) near
  have before' := Ring.isCurrent_of_first start hn tick' (t.hasher.hash key) near'
  rw [eq_iff_iff, Ring.newest_count_eq_zero_iff here used near,
    Ring.newest_count_eq_zero_iff here' used' near', not_iff_not] at counts
  rcases next with ⟨back, back'⟩ | ⟨ahead, ahead'⟩
  · rw [before.1 back, before'.1 back', not_iff_not] at counts
    exact counts.symm
  · rw [before.2 ahead, before'.2 ahead'] at counts
    exact counts.symm

/-- If moving runs never changes an answer, then both starts are taken for late ones or neither is,
unless there is no room for a second slice. -/
theorem IsBuiltOver.together_of_delayed {t : Tracker w} {counter : Counter w}
    (h : t.IsBuiltOver counter) (hn : 3 ≤ t.ring.size) {first : UInt64} {s : Nat}
    (room : first.toNat + s * t.ring.ticksPerBucket.toNat < 2 ^ 64)
    (same : ∀ visits visits', (visits.flatMap t.polls).head? = some first →
      List.Forall₂ (t.Paired (Ring.DelayedBy (s * t.ring.ticksPerBucket.toNat))) visits visits' →
      t.answers visits' = t.answers visits) :
    (t.ring.slice first % t.ring.size = t.ring.size - 1 ↔
        (t.ring.slice first + s) % t.ring.size = t.ring.size - 1) ∨
      t.ring.slice first = 0 ∧ 2 ^ 64 ≤ (s + 1) * t.ring.ticksPerBucket.toNat := by
  have exists_tick {n : Nat} (small : n < 2 ^ 64) : ∃ tick : UInt64, tick.toNat = n :=
    ⟨.ofNat n, UInt64.toNat_ofNat_of_lt small⟩
  obtain ⟨first', moved⟩ := exists_tick room
  -- A second poll next to the first one, in both runs, settles the question.
  have told (slice : Nat) (next : slice + 1 = t.ring.slice first ∨ slice = t.ring.slice first + 1)
      (fits : slice * t.ring.ticksPerBucket.toNat + s * t.ring.ticksPerBucket.toNat < 2 ^ 64) :
      t.ring.slice first % t.ring.size = t.ring.size - 1 ↔
        (t.ring.slice first + s) % t.ring.size = t.ring.size - 1 := by
    obtain ⟨near, at_slice⟩ := exists_tick (Nat.lt_of_le_of_lt (Nat.le_add_right _ _) fits)
    obtain ⟨near', later⟩ := exists_tick fits
    rw [← at_slice] at later
    have place : t.ring.slice near = slice := by
      unfold Ring.slice
      rw [at_slice, Nat.mul_div_cancel _ t.ring.span_pos]
    have place' := t.ring.slice_delayed later
    have start' := t.ring.slice_delayed moved
    have neighbours : t.ring.slice near + 1 = t.ring.slice first ∧
          t.ring.slice near' + 1 = t.ring.slice first' ∨
        t.ring.slice near = t.ring.slice first + 1 ∧
          t.ring.slice near' = t.ring.slice first' + 1 := by omega
    rw [← start']
    refine h.together_of_answers hn .empty neighbours (same _ _ ?_ ?_)
    · change some ((Environment.atTick first).poll t.ring.source).1 = some first
      rw [Environment.poll_atTick]
    · exact .cons (Paired.atTick t moved _) (.cons (Paired.atTick t later _) .nil)
  have whole := Nat.div_mul_le_self first.toNat t.ring.ticksPerBucket.toNat
  change t.ring.slice first * _ ≤ _ at whole
  rcases Nat.eq_zero_or_pos (t.ring.slice first) with zero | positive
  · by_cases confined : 2 ^ 64 ≤ (s + 1) * t.ring.ticksPerBucket.toNat
    · exact .inr ⟨zero, confined⟩
    · refine .inl (told 1 (.inr (by omega)) ?_)
      rw [Nat.succ_mul] at confined
      omega
  · refine .inl (told (t.ring.slice first - 1) (.inl (by omega)) ?_)
    rw [Nat.sub_mul]
    omega

/-- For every fresh tracker of three or more buckets: all runs that poll first at a given tick are
answered the same when they are moved by `s` slices, just when both starts are taken for late ones
or neither is, or when no run can ever leave its first slice. -/
theorem answers_delayed_iff :
    (∀ (config : Config) (t : Tracker w) (events : List Event),
      ofConfig config = .ok (t, events) →
        t.config = config ∧ ∃ counter, t.IsBuiltOver counter) ∧
    ∀ (t : Tracker w) (counter : Counter w), t.IsBuiltOver counter →
      ∀ n span : Nat, n = t.config.bucketCount.toNat → span = t.config.ticksPerBucket.toNat →
        3 ≤ n → ∀ (first : UInt64) (s : Nat), first.toNat + s * span < 2 ^ 64 →
          ((∀ visits visits', (visits.flatMap t.polls).head? = some first →
              List.Forall₂ (t.Paired (Ring.DelayedBy (s * span))) visits visits' →
              t.answers visits' = t.answers visits) ↔
            (first.toNat / span % n = n - 1 ↔ (first.toNat / span + s) % n = n - 1) ∨
              first.toNat / span = 0 ∧ 2 ^ 64 ≤ (s + 1) * span) := by
  constructor
  · intro config t events built
    exact isBuiltOver_of_ofConfig built
  · rintro t counter h n span count cut hn first s room
    obtain ⟨holds, -, ticks, -, nonempty⟩ := Ring.of_ofCounters h.ring
    have size : t.ring.size = n := by rw [count, holds.size_eq, Array.size_replicate]
    rw [← ticks] at cut
    have slice (tick : UInt64) : t.ring.slice tick = tick.toNat / span := by rw [cut]; rfl
    constructor
    · intro same
      rw [cut] at same room ⊢
      have told := h.together_of_delayed (by rwa [size]) room same
      rwa [size] at told
    · rintro (together | ⟨zero, confined⟩) visits visits' polled delayed
      · rw [cut] at delayed
        refine h.answers_delayed ?_ polled delayed
        rw [size, slice]
        exact together
      · rw [cut] at confined delayed
        by_cases last : s % n = n - 1
        · exact h.answers_confined (by rwa [size]) confined delayed
        · refine h.answers_delayed ?_ polled delayed
          rw [size, slice, zero, Nat.zero_mod, Nat.zero_add]
          constructor
          · intro zero_late
            omega
          · intro late
            exact absurd late last

/-- The late visits, moved by a whole turn. -/
def lateVisitsTurned : List Visit :=
  [⟨.atTick 60, .record "a".toUTF8⟩, ⟨.atTick 75, .recordAndEstimate "a".toUTF8⟩,
    ⟨.atTick 69, .record "b".toUTF8⟩, ⟨.atTick 80, .itemCounts⟩, ⟨.atTick 91, .record "a".toUTF8⟩]

/-- A whole turn does not show. One slice shows, if it moves the start into the last bucket. -/
theorem answers_delayed_iff_small :
    small.IsBuiltOver (.sketch .small) ∧
      small.answers lateVisitsTurned = small.answers lateVisits ∧
      ∃ visits visits', (visits.flatMap small.polls).head? = some 40 ∧
        List.Forall₂ (small.Paired (Ring.DelayedBy 10)) visits visits' ∧
        small.answers visits' ≠ small.answers visits := by
  have moved := answers_delayed_iff.2 small (.sketch .small) isBuiltOver_small 3 10 rfl rfl
    (Nat.le_refl 3)
  refine ⟨isBuiltOver_small, ?_, ?_⟩
  · have turned (tick tick' : UInt64) (later : Ring.DelayedBy 30 tick tick') (request : Request) :
        small.Paired (Ring.DelayedBy 30) ⟨.atTick tick, request⟩ ⟨.atTick tick', request⟩ :=
      .atTick small later request
    refine (moved 30 3 (by decide)).mpr (.inl (by decide)) _ _ rfl ?_
    refine .cons (turned 30 60 rfl _) (.cons (turned 45 75 rfl _) (.cons (turned 39 69 rfl _) ?_))
    exact .cons (turned 50 80 rfl _) (.cons (turned 61 91 rfl _) .nil)
  · have differs := mt (moved 40 1 (by decide)).mp (by decide)
    simp only [not_forall] at differs
    obtain ⟨visits, visits', polled, delayed, other⟩ := differs
    exact ⟨visits, visits', polled, delayed, other⟩

end Tracker

end AccessHistory
