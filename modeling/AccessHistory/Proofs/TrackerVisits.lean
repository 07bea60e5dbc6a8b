import AccessHistory.Proofs.RingCalls
import AccessHistory.Tracker

/-!
Runs of a tracker, and the ring calls that they come to. Each request is served in an environment
of its own, so that between two requests tickers may be moved, polled and replaced in any way.
-/

set_option autoImplicit false
set_option relaxedAutoImplicit false

namespace AccessHistory

variable {w : CellWidth}

def Environment.atTick (tick : UInt64) : Environment :=
  { clock := .manual tick, attached := fun _ => .manual tick }

theorem Environment.poll_atTick (tick : UInt64) (source : TickSource) :
    ((Environment.atTick tick).poll source).1 = tick := by
  cases source <;> rfl

theorem Environment.snd_poll_atTick (tick : UInt64) (source : TickSource) :
    ((Environment.atTick tick).poll source).2 = Environment.atTick tick := by
  have stands : (Environment.atTick tick).ticker source = .manual tick := by
    cases source <;> rfl
  have unchanged := (Environment.atTick tick).setTicker_ticker source
  unfold Environment.poll
  rw [stands] at unchanged ⊢
  exact unchanged

theorem Environment.poll_report (env : Environment) (event : Option Event) (source : TickSource) :
    ((env.report event).poll source).1 = (env.poll source).1 := by
  cases event <;> cases source <;> rfl

namespace Ring

/-- A ring answers what it would answer at the tick that its source reads. -/
theorem serve_eq (r : Ring w) (env : Environment) (q : Request) :
    (r.serve env q).answer = (r.respondAt (env.poll r.source).1 q).1 ∧
      (r.serve env q).state = r.step ⟨(env.poll r.source).1, q⟩ := by
  unfold serve
  split
  · next none_left =>
    have stays := r.rotate_of_not_pos (fun hr => r.not_isEmpty_iff.mpr hr none_left)
      (env.poll r.source).1
    unfold step respondAt
    rw [stays]
    exact ⟨rfl, rfl⟩
  · exact ⟨rfl, rfl⟩

theorem poll_serve (r : Ring w) (hr : 0 < r.size) (env : Environment) (q : Request)
    (source : TickSource) :
    ((r.serve env q).env.poll source).1 = ((env.poll r.source).2.poll source).1 := by
  unfold serve
  split
  · next none_left => exact absurd none_left (r.not_isEmpty_iff.mpr hr)
  · exact Environment.poll_report _ _ source

end Ring

namespace Tracker

/-! ### Visits -/

/-- A request and the environment that it is served in. -/
structure Visit where
  env : Environment
  request : Request

def step (t : Tracker w) (v : Visit) : Tracker w := (t.serve v.env v.request).state

def after (t : Tracker w) (visits : List Visit) : Tracker w := visits.foldl step t

def answer (t : Tracker w) (v : Visit) : Answer := (t.serve v.env v.request).answer

def answers (t : Tracker w) : List Visit → List Answer
  | [] => []
  | v :: visits => t.answer v :: (t.step v).answers visits

def Request.isRecord : Request → Bool
  | record _ => true
  | recordAndEstimate _ => true
  | estimates _ => false
  | itemCounts => false

/-- The ring calls that a visit comes to, one for each poll. -/
def calls (t : Tracker w) (v : Visit) : List Ring.Call :=
  let first := v.env.poll t.ring.source
  match v.request with
  | .record key => [⟨first.1, .record (t.hasher.hash key)⟩]
  | .estimates key => [⟨first.1, .estimates (t.hasher.hash key)⟩]
  | .recordAndEstimate key =>
    [⟨first.1, .estimates (t.hasher.hash key)⟩,
      ⟨(first.2.poll t.ring.source).1, .record (t.hasher.hash key)⟩]
  | .itemCounts => [⟨first.1, .itemCounts⟩]

/-- The calls of a visit begin with a request other than an update, at the tick polled first. -/
theorem calls_eq_cons (t : Tracker w) (v : Visit) :
    ∃ c rest, c.request ≠ .update ∧ c.tick = (v.env.poll t.ring.source).1 ∧
      t.calls v = c :: rest := by
  obtain ⟨env, request⟩ := v
  cases request <;> exact ⟨_, _, Ring.Request.noConfusion, rfl, rfl⟩

def allCalls (t : Tracker w) (visits : List Visit) : List Ring.Call := visits.flatMap t.calls

theorem after_append (t : Tracker w) (visits later : List Visit) :
    t.after (visits ++ later) = (t.after visits).after later := List.foldl_append

/-! ### Visits as ring calls -/

theorem ring_step (t : Tracker w) (hr : 0 < t.ring.size) (v : Visit) :
    (t.step v).ring = t.ring.after (t.calls v) := by
  obtain ⟨env, request⟩ := v
  cases request with
  | record key => exact (t.ring.serve_eq env _).2
  | estimates key => exact (t.ring.serve_eq env _).2
  | itemCounts => exact (t.ring.serve_eq env _).2
  | recordAndEstimate key =>
    have estimated := t.ring.serve_eq env (.estimates (t.hasher.hash key))
    have polled := t.ring.poll_serve hr env (.estimates (t.hasher.hash key)) t.ring.source
    have kept := (t.ring.frame_step ⟨(env.poll t.ring.source).1,
      .estimates (t.hasher.hash key)⟩).2.2
    refine (Ring.serve_eq _ _ _).2.trans ?_
    change ((t.ring.serve env _).state).step ⟨((t.ring.serve env _).env.poll
      (t.ring.serve env _).state.source).1, _⟩ = _
    rw [estimated.2, kept, polled]
    rfl

theorem hasher_step (t : Tracker w) (v : Visit) : (t.step v).hasher = t.hasher := by
  obtain ⟨env, request⟩ := v
  cases request <;> rfl

/-- A visit is answered what its first ring call is answered. -/
theorem answer_eq (t : Tracker w) (v : Visit) {c : Ring.Call} (h : (t.calls v).head? = some c) :
    t.answer v = (t.ring.respondAt c.tick c.request).1 := by
  obtain ⟨env, request⟩ := v
  cases request <;> cases h <;> exact (t.ring.serve_eq env _).1

theorem size_step (t : Tracker w) (hr : 0 < t.ring.size) (v : Visit) :
    (t.step v).ring.size = t.ring.size := by
  rw [t.ring_step hr, Ring.size_after]

theorem calls_step (t : Tracker w) (hr : 0 < t.ring.size) (v : Visit) :
    (t.step v).calls = t.calls := by
  funext later
  have source : (t.step v).ring.source = t.ring.source := by
    rw [t.ring_step hr]
    exact (t.ring.frame_after _).2.2
  unfold calls
  rw [source, t.hasher_step]

theorem hasher_after (t : Tracker w) (visits : List Visit) :
    (t.after visits).hasher = t.hasher := by
  induction visits generalizing t with
  | nil => rfl
  | cons v visits ih => exact (ih (t.step v)).trans (t.hasher_step v)

theorem ring_after (t : Tracker w) (hr : 0 < t.ring.size) (visits : List Visit) :
    (t.after visits).ring = t.ring.after (t.allCalls visits) := by
  induction visits generalizing t with
  | nil => rfl
  | cons v visits ih =>
    have later := ih (t.step v) (by rwa [t.size_step hr])
    unfold allCalls at later ⊢
    rw [t.calls_step hr, t.ring_step hr, ← Ring.after_append] at later
    exact later

/-! ### Answers -/

/-- Estimates are read off the ring that the visit leaves behind. -/
theorem answer_estimates (t : Tracker w) (env : Environment) (key : ByteArray) :
    t.answer ⟨env, .estimates key⟩ = .numbers
      ((t.step ⟨env, .estimates key⟩).ring.newestFirst (·.estimate (t.hasher.hash key))) := by
  have served := t.ring.serve_eq env (.estimates (t.hasher.hash key))
  change (t.ring.serve env _).answer = .numbers ((t.ring.serve env _).state.newestFirst _)
  rw [served.1, served.2]
  rfl

theorem answer_itemCounts (t : Tracker w) (env : Environment) :
    t.answer ⟨env, .itemCounts⟩ =
      .numbers ((t.step ⟨env, .itemCounts⟩).ring.newestFirst (·.itemCount)) := by
  have served := t.ring.serve_eq env .itemCounts
  change (t.ring.serve env _).answer = .numbers ((t.ring.serve env _).state.newestFirst _)
  rw [served.1, served.2]
  rfl

theorem ring_step_estimates (t : Tracker w) (env : Environment) (key : ByteArray) :
    (t.step ⟨env, .estimates key⟩).ring = (t.step ⟨env, .itemCounts⟩).ring :=
  (t.ring.serve_eq env _).2.trans (t.ring.serve_eq env .itemCounts).2.symm

/-- A key's estimates do not count the record that comes with the question. -/
theorem answer_recordAndEstimate (t : Tracker w) (env : Environment) (key : ByteArray) :
    t.answer ⟨env, .recordAndEstimate key⟩ = t.answer ⟨env, .estimates key⟩ := rfl

/-! ### Building -/

/-- A tracker as its config describes it: over copies of one fresh counter of the right kind. -/
structure IsBuiltOver (t : Tracker w) (counter : Counter w) : Prop where
  fresh : counter.IsFresh
  kind : counter.kind = t.config.kind
  hasher : t.hasher = {}
  ring : Ring.ofCounters (Array.replicate t.config.bucketCount.toNat counter)
    t.config.ticksPerBucket t.config.source = .ok t.ring

/-- What a construction that did not fail went through. -/
theorem of_ofConfig {c : Config} {t : Tracker w} {events : List Event}
    (h : ofConfig c = .ok (t, events)) :
    c.validate = .ok () ∧ ∃ counter, Counter.ofConfig c = .ok counter ∧
      Ring.ofCounters (.replicate c.bucketCount.toNat counter) c.ticksPerBucket c.source =
        .ok t.ring ∧
      t = ⟨c, {}, t.ring⟩ ∧ events = buildEvents c t.ring := by
  unfold ofConfig at h
  obtain ⟨u, valid, h⟩ := bind_eq_ok h
  obtain ⟨counter, sized, h⟩ := bind_eq_ok h
  obtain ⟨ring, in_ring, h⟩ := bind_eq_ok h
  cases h
  exact ⟨valid, counter, sized, in_ring, rfl, rfl⟩

theorem isBuiltOver_of_ofConfig {config : Config} {t : Tracker w} {events : List Event}
    (h : ofConfig config = .ok (t, events)) :
    t.config = config ∧ ∃ counter, t.IsBuiltOver counter := by
  obtain ⟨-, counter, sized, in_ring, shape, -⟩ := of_ofConfig h
  obtain ⟨fresh, kind⟩ := Counter.of_ofConfig sized
  rw [shape]
  exact ⟨rfl, counter, fresh, kind, rfl, in_ring⟩

namespace IsBuiltOver

variable {t : Tracker w} {counter : Counter w}

theorem fresh_copies (h : t.IsBuiltOver counter) :
    ∀ c ∈ Array.replicate t.config.bucketCount.toNat counter, c.IsFresh := by
  intro c copy
  rw [Array.eq_of_mem_replicate copy]
  exact h.fresh

theorem nonempty (h : t.IsBuiltOver counter) : 0 < t.ring.size := (Ring.of_ofCounters h.ring).2.2.2.2

theorem size_after (h : t.IsBuiltOver counter) (visits : List Visit) :
    (t.after visits).ring.size = t.config.bucketCount.toNat := by
  rw [t.ring_after h.nonempty, Ring.size_after, (Ring.of_ofCounters h.ring).1.size_eq,
    Array.size_replicate]

end IsBuiltOver

/-! ### A small tracker -/

def small : Tracker .bits8 where
  config := { bucketCount := 3, ticksPerBucket := 10, source := .attached 0 }
  hasher := {}
  ring :=
    { buckets := #[.ofCounter (.sketch .small), .ofCounter (.sketch .small),
        .ofCounter (.sketch .small)]
      mostRecent := 0
      ticksPerBucket := 10
      source := .attached 0
      mostRecent_valid := .inl rfl
      ticksPerBucket_ne_zero := by decide }

theorem isBuiltOver_small : small.IsBuiltOver (.sketch .small) := by
  refine ⟨⟨2, 2, rfl⟩, rfl, rfl, ?_⟩
  change Ring.ofCounters #[.sketch .small, .sketch .small, .sketch .small] 10 (.attached 0) = _
  simp [Ring.ofCounters, small]

/-- Visits over four slices, one of them late. -/
def lateVisits : List Visit :=
  [⟨.atTick 30, .record "a".toUTF8⟩, ⟨.atTick 45, .recordAndEstimate "a".toUTF8⟩,
    ⟨.atTick 39, .record "b".toUTF8⟩, ⟨.atTick 50, .itemCounts⟩, ⟨.atTick 61, .record "a".toUTF8⟩]

end Tracker

end AccessHistory
