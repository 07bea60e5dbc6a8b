import AccessHistory.Proofs.TrackerVisits

/-!
Requests at one tick. The first of them checks the time and may rotate the ring; all later checks
find nothing to do, so that what remains are records, and these may change places.
-/

set_option autoImplicit false
set_option relaxedAutoImplicit false

namespace AccessHistory

variable {w : CellWidth}

/-! ### Time that stands still -/

/-- All polls from now on read this tick. -/
def Ticker.Stands (tick : UInt64) : Ticker → Prop
  | manual now => now = tick
  | script ticks polls => ∀ later, polls ≤ later → ticks[min later (ticks.size - 1)]?.getD 0 = tick

theorem Ticker.Stands.poll {tick : UInt64} {ticker : Ticker} (h : ticker.Stands tick) :
    ticker.poll.1 = tick ∧ ticker.poll.2.Stands tick := by
  cases ticker with
  | manual now => exact ⟨h, h⟩
  | script ticks polls =>
    constructor
    · exact h polls (Nat.le_refl polls)
    · intro later polled
      exact h later (Nat.le_of_succ_le polled)

namespace Environment

def Stands (env : Environment) (source : TickSource) (tick : UInt64) : Prop :=
  (env.ticker source).Stands tick

variable {env : Environment} {source : TickSource} {tick : UInt64}

theorem Stands.poll (h : env.Stands source tick) :
    (env.poll source).1 = tick ∧ (env.poll source).2.Stands source tick := by
  have polled : (env.poll source).2.ticker source = (env.ticker source).poll.2 :=
    env.ticker_setTicker source _
  unfold Stands
  rw [polled]
  exact Ticker.Stands.poll h

theorem Stands.report (h : env.Stands source tick) (event : Option Event) :
    (env.report event).Stands source tick := by
  cases event <;> cases source <;> exact h

theorem report_poll (env : Environment) (event : Option Event) (source : TickSource) :
    ((env.report event).poll source).2 = (env.poll source).2.report event := by
  cases event <;> cases source <;> rfl

end Environment

/-! ### Rings -/

namespace Ring

theorem recordNewest_comm (r : Ring w) (first second : UInt64) :
    (r.recordNewest first).recordNewest second = (r.recordNewest second).recordNewest first := by
  have buckets := modify_comm r.buckets (f := (·.record first)) (g := (·.record second))
    (fun b => b.record_comm second first) r.mostRecent r.mostRecent
  unfold recordNewest
  simp only [buckets]

theorem respond_comm (r : Ring w) (q q' : Request) :
    ((r.respond q).2.respond q').2 = ((r.respond q').2.respond q).2 := by
  cases q with
  | record hash =>
    cases q' with
    | record hash' => exact r.recordNewest_comm hash hash'
    | update => rfl
    | estimates hash' => rfl
    | itemCounts => rfl
  | update => cases q' <;> rfl
  | estimates hash => cases q' <;> rfl
  | itemCounts => cases q' <;> rfl

def serveAll (r : Ring w) (env : Environment) (qs : List Request) : Ring w × Environment :=
  qs.foldl (fun (r, env) q => let o := r.serve env q; (o.state, o.env)) (r, env)

/-- Serves a request where the check of the time has nothing to do: polls, and that is all. -/
def calm (source : TickSource) (s : Ring w × Environment) (q : Request) : Ring w × Environment :=
  ((s.1.respond q).2, (s.2.poll source).2)

theorem calm_comm (source : TickSource) (s : Ring w × Environment) (q q' : Request) :
    calm source (calm source s q) q' = calm source (calm source s q') q :=
  Prod.ext (s.1.respond_comm q q') rfl

/-- The first request at a tick does the pending rotation, the others find the time checked. -/
theorem serveAll_eq_calm {r : Ring w} (hr : 0 < r.size) {env : Environment} {tick : UInt64}
    (stands : env.Stands r.source tick) {qs : List Request}
    (some_poll : qs ≠ [] ∨ r.rotate tick = (r, none)) :
    r.serveAll env qs = qs.foldl (calm r.source)
      ((r.rotate tick).1, env.report ((r.rotate tick).2.map .rotated)) := by
  induction qs generalizing r env with
  | nil =>
    rcases some_poll with absent | stays
    · exact absurd rfl absent
    · rw [stays]
      rfl
  | cons q qs ih =>
    have polls : (r.serve env q).state = ((r.rotate tick).1.respond q).2 ∧
        (r.serve env q).env = (env.poll r.source).2.report ((r.rotate tick).2.map .rotated) := by
      unfold serve
      rw [if_neg (r.not_isEmpty_iff.mpr hr)]
      simp only [respondAt, stands.poll.1, and_self]
    have checked : ((r.rotate tick).1.respond q).2.rotate tick =
        (((r.rotate tick).1.respond q).2, none) := by
      cases q with
      | record hash => exact rotate_recordNewest _ (r.rotate_rotate tick) hash
      | update => exact r.rotate_rotate tick
      | estimates hash => exact r.rotate_rotate tick
      | itemCounts => exact r.rotate_rotate tick
    have source : ((r.rotate tick).1.respond q).2.source = r.source := by
      cases q <;> exact r.source_rotate tick
    have nonempty : 0 < ((r.rotate tick).1.respond q).2.size := by
      rwa [size_respond, size_rotate]
    have still_stands : ((env.poll r.source).2.report ((r.rotate tick).2.map .rotated)).Stands
        ((r.rotate tick).1.respond q).2.source tick := by
      rw [source]
      exact stands.poll.2.report _
    have later := ih nonempty still_stands (.inr checked)
    rw [checked, source] at later
    change (r.serve env q).state.serveAll (r.serve env q).env qs = _
    rw [polls.1, polls.2, later, List.foldl_cons, calm, Environment.report_poll]
    rfl

/-- Requests at one tick may change places. -/
theorem serveAll_perm {r : Ring w} (hr : 0 < r.size) {env : Environment} {tick : UInt64}
    (stands : env.Stands r.source tick) {qs qs' : List Request} (h : qs.Perm qs') :
    r.serveAll env qs = r.serveAll env qs' := by
  cases qs with
  | nil => rw [h.nil_eq]
  | cons q qs =>
    have absent' : qs' ≠ [] := by
      rintro rfl
      cases h.eq_nil
    rw [serveAll_eq_calm hr stands (.inl (List.cons_ne_nil q qs)),
      serveAll_eq_calm hr stands (.inl absent')]
    exact h.foldl_eq' (fun q _ q' _ s => calm_comm r.source s q q') _

def Request.recorded : Request → Option UInt64
  | record hash => some hash
  | update => none
  | estimates _ => none
  | itemCounts => none

/-- Where the check of the time has nothing to do, requests only record in the newest bucket. -/
theorem newestFirst_calm (source : TickSource) (s : Ring w × Environment) (qs : List Request)
    {newest : Bucket w} {older : List (Bucket w)} (h : s.1.newestFirst id = newest :: older) :
    (qs.foldl (calm source) s).1.newestFirst id =
      newest.recordAll (qs.filterMap Request.recorded) :: older := by
  induction qs generalizing s newest with
  | nil => exact h
  | cons q qs ih =>
    rw [List.foldl_cons]
    cases q with
    | record hash => exact ih _ (s.1.newestFirst_recordNewest hash h)
    | update => exact ih _ h
    | estimates hash => exact ih _ h
    | itemCounts => exact ih _ h

end Ring

/-! ### Trackers -/

namespace Tracker

/-- The ring requests that a request comes to. -/
def ringRequests (t : Tracker w) : Request → List Ring.Request
  | .record key => [.record (t.hasher.hash key)]
  | .estimates key => [.estimates (t.hasher.hash key)]
  | .recordAndEstimate key => [.estimates (t.hasher.hash key), .record (t.hasher.hash key)]
  | .itemCounts => [.itemCounts]

/-- The hashes that requests record, in order. -/
def recorded (t : Tracker w) (qs : List Request) : List UInt64 :=
  (qs.flatMap t.ringRequests).filterMap Ring.Request.recorded

theorem recorded_cons (t : Tracker w) (q : Request) (qs : List Request) :
    t.recorded (q :: qs) = (t.ringRequests q).filterMap Ring.Request.recorded ++ t.recorded qs := by
  rw [recorded, List.flatMap_cons, List.filterMap_append]
  rfl

/-- What is recorded depends on the hasher alone. -/
theorem recorded_congr {t t' : Tracker w} (h : t'.hasher = t.hasher) :
    t'.recorded = t.recorded := by
  have requests : t'.ringRequests = t.ringRequests := by
    funext q
    cases q <;> simp only [ringRequests, h]
  funext qs
  rw [recorded, recorded, requests]

theorem length_recorded (t : Tracker w) (qs : List Request) :
    (t.recorded qs).length = qs.countP Request.isRecord := by
  induction qs with
  | nil => rfl
  | cons q qs ih =>
    rw [recorded_cons, List.length_append, ih, List.countP_cons, Nat.add_comm]
    cases q <;> rfl

theorem serveAll_eq_ring (t : Tracker w) (env : Environment) (qs : List Request) :
    t.serveAll env qs =
      ({ t with ring := (t.ring.serveAll env (qs.flatMap t.ringRequests)).1 },
        (t.ring.serveAll env (qs.flatMap t.ringRequests)).2) := by
  induction qs generalizing t env with
  | nil => rfl
  | cons q qs ih =>
    have later := ih (t.serve env q).state (t.serve env q).env
    change (t.serve env q).state.serveAll (t.serve env q).env qs = _
    rw [later]
    cases q <;> rfl

/-- The check of the time rotates the ring once, and then each record goes to its newest bucket. -/
theorem newestFirst_serveAll {t : Tracker w} (ht : 0 < t.ring.size) {env : Environment}
    {tick : UInt64} (stands : env.Stands t.ring.source tick) {newest : Bucket w}
    {older : List (Bucket w)} (rotated : (t.ring.rotate tick).1.newestFirst id = newest :: older)
    (qs : List Request) (some_poll : qs ≠ []) :
    (t.serveAll env qs).1.ring.newestFirst id = newest.recordAll (t.recorded qs) :: older := by
  have some_ring_poll : qs.flatMap t.ringRequests ≠ [] := by
    cases qs with
    | nil => exact absurd rfl some_poll
    | cons q qs => cases q <;> exact List.cons_ne_nil _ _
  rw [serveAll_eq_ring, Ring.serveAll_eq_calm ht stands (.inl some_ring_poll)]
  exact Ring.newestFirst_calm _ _ _ rotated

theorem itemCounts_serveAll {t : Tracker w} (ht : 0 < t.ring.size) {env : Environment}
    {tick : UInt64} (stands : env.Stands t.ring.source tick) {newest : Nat} {older : List Nat}
    (rotated : (t.ring.rotate tick).1.newestFirst (·.itemCount) = newest :: older)
    {qs : List Request} (some_poll : qs ≠ []) :
    (t.serveAll env qs).1.ring.newestFirst (·.itemCount) =
      (newest + qs.countP Request.isRecord) :: older := by
  rw [Ring.newestFirst_eq_map] at rotated
  obtain ⟨b, bs, buckets, rfl, rfl⟩ := List.map_eq_cons_iff.mp rotated
  rw [Ring.newestFirst_eq_map, newestFirst_serveAll ht stands buckets qs some_poll, List.map_cons,
    Bucket.recordAll_eq, length_recorded]

/-- Item counts asked for after requests are those that the ring shows once the question is served
like the others. -/
theorem answer_itemCounts_serveAll (t : Tracker w) (env : Environment) (qs : List Request) :
    (t.serveAll env qs).1.answer ⟨(t.serveAll env qs).2, .itemCounts⟩ =
      .numbers ((t.serveAll env (qs ++ [.itemCounts])).1.ring.newestFirst (·.itemCount)) := by
  rw [answer_itemCounts]
  unfold serveAll
  rw [List.foldl_append]
  rfl

/-- Requests at one tick leave the same tracker and the same environment in every order, and hence
the same answers to all later requests. Once the pending rotation is done, they add to the newest
item count what they record, and nothing to any other one. -/
theorem serveAll_perm_at_tick :
    (∀ (config : Config) (t : Tracker w) (events : List Event),
      ofConfig config = .ok (t, events) → ∀ visits, 0 < (t.after visits).ring.size) ∧
    ∀ t : Tracker w, 0 < t.ring.size →
      ∀ (env : Environment) (tick : UInt64), env.Stands t.ring.source tick →
        ∀ qs qs' : List Request, qs.Perm qs' →
          t.serveAll env qs = t.serveAll env qs' ∧
          (∀ later, (t.serveAll env qs).1.answers later = (t.serveAll env qs').1.answers later) ∧
          ∃ newest older,
            t.answer ⟨env, .itemCounts⟩ = .numbers (newest :: older) ∧
            (t.serveAll env qs).1.answer ⟨(t.serveAll env qs).2, .itemCounts⟩ =
              .numbers ((newest + qs.countP Request.isRecord) :: older) ∧
            (qs ≠ [] → (t.serveAll env qs).1.ring.newestFirst (·.itemCount) =
              (newest + qs.countP Request.isRecord) :: older) := by
  constructor
  · intro config t events built visits
    obtain ⟨-, counter, built_over⟩ := isBuiltOver_of_ofConfig built
    rw [t.ring_after built_over.nonempty, Ring.size_after]
    exact built_over.nonempty
  · intro t ht env tick stands qs qs' reordered
    have same : t.serveAll env qs = t.serveAll env qs' := by
      rw [serveAll_eq_ring, serveAll_eq_ring,
        Ring.serveAll_perm ht stands (reordered.flatMap_right t.ringRequests)]
    refine ⟨same, fun later => by rw [same], ?_⟩
    cases rotated : (t.ring.rotate tick).1.newestFirst (·.itemCount) with
    | nil =>
      have size := congrArg List.length rotated
      rw [Ring.length_newestFirst, Ring.size_rotate, List.length_nil] at size
      omega
    | cons newest older =>
      have shown (asked : List Request) :
          (t.serveAll env asked).1.answer ⟨(t.serveAll env asked).2, .itemCounts⟩ =
            .numbers ((newest + asked.countP Request.isRecord) :: older) := by
        have some_poll : asked ++ [.itemCounts] ≠ [] := List.append_ne_nil_of_right_ne_nil asked
          (List.cons_ne_nil _ _)
        rw [answer_itemCounts_serveAll, itemCounts_serveAll ht stands rotated some_poll,
          List.countP_append]
        rfl
      exact ⟨newest, older, shown [], shown qs, itemCounts_serveAll ht stands rotated⟩

/-- At tick 45 a rotation from bucket 0 to bucket 1 is due; three of the four requests record. -/
theorem serveAll_perm_at_tick_rotating :
    0 < small.ring.size ∧ (Environment.atTick 45).Stands small.ring.source 45 ∧
    small.serveAll (.atTick 45) [.record "a".toUTF8, .itemCounts, .recordAndEstimate "b".toUTF8,
        .record "b".toUTF8] =
      small.serveAll (.atTick 45) [.recordAndEstimate "b".toUTF8, .record "b".toUTF8, .itemCounts,
        .record "a".toUTF8] ∧
    (small.serveAll (.atTick 45) [.record "a".toUTF8, .itemCounts,
        .recordAndEstimate "b".toUTF8, .record "b".toUTF8]).1.ring.newestFirst (·.itemCount) =
      [3, 0, 0] := by
  have nonempty : 0 < small.ring.size := by decide
  have stands : (Environment.atTick 45).Stands small.ring.source 45 := rfl
  have reordered : [Request.record "a".toUTF8, .itemCounts, .recordAndEstimate "b".toUTF8,
        .record "b".toUTF8].Perm [.recordAndEstimate "b".toUTF8, .record "b".toUTF8, .itemCounts,
          .record "a".toUTF8] := by
    refine (List.reverse_perm _).symm.trans ?_
    exact .swap _ _ _
  obtain ⟨same, -, newest, older, before, -, recorded⟩ :=
    serveAll_perm_at_tick.2 small nonempty (.atTick 45) 45 stands _ _ reordered
  have none_yet : small.answer ⟨.atTick 45, .itemCounts⟩ = .numbers [0, 0, 0] := rfl
  rw [none_yet] at before
  cases before
  exact ⟨nonempty, stands, same, recorded (List.cons_ne_nil _ _)⟩

end Tracker

end AccessHistory
