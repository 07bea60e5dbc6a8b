import AccessHistory.Proofs.TrackerVisits

/-!
Runs in which each request is served in an environment of its own: the answers, the state that they
leave behind, and the events that they report. The run of a ring comes to calls at the ticks that
were polled, that of a tracker to the calls of its ring, and what both report are the rotations of
these calls. Other runs stay in one environment, which may change between two requests.
-/

set_option autoImplicit false
set_option relaxedAutoImplicit false

namespace AccessHistory

variable {w : CellWidth}

/-! ### Logs -/

namespace Environment

/-- The events that were reported since the environment was the earlier one. -/
def newsSince (env earlier : Environment) : List Event := env.log.toList.drop earlier.log.size

@[simp]
theorem log_poll (env : Environment) (source : TickSource) : (env.poll source).2.log = env.log := by
  cases source <;> rfl

@[simp]
theorem toList_log_report (env : Environment) (event : Option Event) :
    (env.report event).log.toList = env.log.toList ++ event.toList := by
  cases event <;> simp [report]

theorem newsSince_eq {env earlier : Environment} {events : List Event}
    (h : env.log.toList = earlier.log.toList ++ events) : env.newsSince earlier = events := by
  simp [newsSince, h]

end Environment

/-! ### Requests one after the other -/

section Each

variable {σ ρ : Type}

/-- Serves requests one after the other, each in an environment of its own. -/
def serveEach (serve : σ → Environment → ρ → Outcome σ) (s : σ) :
    List (Environment × ρ) → List Answer × σ
  | [] => ([], s)
  | (env, q) :: visits =>
    let o := serve s env q
    let (answers, s) := serveEach serve o.state visits
    (o.answer :: answers, s)

/-- The events that requests report, each in the environment that it is served in. -/
def reportEach (serve : σ → Environment → ρ → Outcome σ) (s : σ) :
    List (Environment × ρ) → List Event
  | [] => []
  | (env, q) :: visits =>
    let o := serve s env q
    o.env.newsSince env ++ reportEach serve o.state visits

variable (serve : σ → Environment → ρ → Outcome σ)

theorem serveEach_append (s : σ) (visits later : List (Environment × ρ)) :
    serveEach serve s (visits ++ later) =
      ((serveEach serve s visits).1 ++ (serveEach serve (serveEach serve s visits).2 later).1,
        (serveEach serve (serveEach serve s visits).2 later).2) := by
  induction visits generalizing s with
  | nil => rfl
  | cons visit visits ih => simp [serveEach, ih]

theorem reportEach_append (s : σ) (visits later : List (Environment × ρ)) :
    reportEach serve s (visits ++ later) =
      reportEach serve s visits ++ reportEach serve (serveEach serve s visits).2 later := by
  induction visits generalizing s with
  | nil => rfl
  | cons visit visits ih => simp [serveEach, reportEach, ih]

end Each

theorem serveEach_keeps {σ ρ α : Type} {serve : σ → Environment → ρ → Outcome σ} (read : σ → α)
    (h : ∀ s env q, read (serve s env q).state = read s) (s : σ)
    (visits : List (Environment × ρ)) : read (serveEach serve s visits).2 = read s := by
  induction visits generalizing s with
  | nil => rfl
  | cons visit visits ih => exact (ih _).trans (h s visit.1 visit.2)

/-! ### Requests in one environment -/

/-- What happens in an environment: something is asked, or the environment changes otherwise, as
when a ticker is moved or somebody else polls it. -/
inductive Turn (ρ : Type) where
  | ask (q : ρ)
  | change (f : Environment → Environment)

section Through

variable {σ ρ : Type}

/-- Serves what is asked, each time in the environment that the turns before left behind. -/
def serveThrough (serve : σ → Environment → ρ → Outcome σ) (s : σ) (env : Environment) :
    List (Turn ρ) → List Answer × σ × Environment
  | [] => ([], s, env)
  | .ask q :: turns =>
    let o := serve s env q
    let (answers, left) := serveThrough serve o.state o.env turns
    (o.answer :: answers, left)
  | .change f :: turns => serveThrough serve s (f env) turns

end Through

/-! ### Maps of states that requests do not notice -/

section Commutes

variable {σ ρ : Type} {serve : σ → Environment → ρ → Outcome σ} {f : σ → σ}

theorem serveEach_of_commutes
    (h : ∀ s env q, serve (f s) env q =
      ⟨(serve s env q).answer, f (serve s env q).state, (serve s env q).env⟩)
    (s : σ) (visits : List (Environment × ρ)) :
    serveEach serve (f s) visits = ((serveEach serve s visits).1, f (serveEach serve s visits).2) ∧
      reportEach serve (f s) visits = reportEach serve s visits := by
  induction visits generalizing s with
  | nil => exact ⟨rfl, rfl⟩
  | cons visit visits ih =>
    obtain ⟨answered, reported⟩ := ih (serve s visit.1 visit.2).state
    simp [serveEach, reportEach, h, answered, reported]

theorem serveThrough_of_commutes
    (h : ∀ s env q, serve (f s) env q =
      ⟨(serve s env q).answer, f (serve s env q).state, (serve s env q).env⟩)
    (s : σ) (env : Environment) (turns : List (Turn ρ)) :
    serveThrough serve (f s) env turns =
      ((serveThrough serve s env turns).1, f (serveThrough serve s env turns).2.1,
        (serveThrough serve s env turns).2.2) := by
  induction turns generalizing s env with
  | nil => rfl
  | cons turn turns ih =>
    cases turn with
    | ask q => simp [serveThrough, h, ih]
    | change g => simp [serveThrough, ih]

end Commutes

/-! ### Rings -/

namespace Ring

/-- The call that a request comes to where it is served. -/
def call (r : Ring w) (visit : Environment × Request) : Call :=
  ⟨(visit.1.poll r.source).1, visit.2⟩

def rotations (r : Ring w) : List Call → List Rotation
  | [] => []
  | c :: calls => (r.rotate c.tick).2.toList ++ (r.step c).rotations calls

theorem rotations_append (r : Ring w) (calls later : List Call) :
    r.rotations (calls ++ later) = r.rotations calls ++ (r.after calls).rotations later := by
  induction calls generalizing r with
  | nil => rfl
  | cons c calls ih => simp [rotations, after_cons, ih]

/-- A request polls once, and reports what its check of the time did. -/
theorem env_serve (r : Ring w) (hr : 0 < r.size) (env : Environment) (q : Request) :
    (r.serve env q).env = (env.poll r.source).2.report
      ((r.rotate (env.poll r.source).1).2.map .rotated) := by
  rw [serve, if_neg (r.not_isEmpty_iff.mpr hr)]
  rfl

theorem toList_log_serve (r : Ring w) (hr : 0 < r.size) (env : Environment) (q : Request) :
    (r.serve env q).env.log.toList =
      env.log.toList ++ (r.rotations [r.call (env, q)]).map .rotated := by
  rw [env_serve r hr]
  cases rotated : (r.rotate (env.poll r.source).1).2 <;> simp [rotations, call, rotated]

theorem state_serve (r : Ring w) (env : Environment) (q : Request) :
    (r.serve env q).state = r.step (r.call (env, q)) := (r.serve_eq env q).2

theorem call_step (r : Ring w) (c : Call) : (r.step c).call = r.call := by
  funext visit
  rw [call, (r.frame_step c).2.2, call]

theorem state_serveEach (r : Ring w) (visits : List (Environment × Request)) :
    (serveEach serve r visits).2 = r.after (visits.map r.call) := by
  induction visits generalizing r with
  | nil => rfl
  | cons visit visits ih =>
    have first := r.state_serve visit.1 visit.2
    simp [serveEach, first, ih, call_step, after_cons]

/-- Requests change neither the number of buckets, nor how time is cut, nor where it is read. -/
theorem frame_serveEach (r : Ring w) (visits : List (Environment × Request)) :
    (serveEach serve r visits).2.size = r.size ∧
      (serveEach serve r visits).2.ticksPerBucket = r.ticksPerBucket ∧
      (serveEach serve r visits).2.source = r.source := by
  rw [state_serveEach]
  exact r.frame_after _

theorem reportEach_eq (r : Ring w) (hr : 0 < r.size) (visits : List (Environment × Request)) :
    reportEach serve r visits = (r.rotations (visits.map r.call)).map .rotated := by
  induction visits generalizing r with
  | nil => rfl
  | cons visit visits ih =>
    obtain ⟨env, q⟩ := visit
    have later := ih (r.step (r.call (env, q))) ((r.frame_step _).1 ▸ hr)
    simp [reportEach, Environment.newsSince_eq (r.toList_log_serve hr env q), r.state_serve,
      later, call_step, rotations]

end Ring

/-! ### Trackers -/

attribute [ext] Tracker

namespace Tracker

/-- The ring calls that requests come to, one for each poll. -/
def callsOf (t : Tracker w) (visits : List (Environment × Request)) : List Ring.Call :=
  visits.flatMap fun visit => t.calls ⟨visit.1, visit.2⟩

theorem toList_log_serve (t : Tracker w) (hr : 0 < t.ring.size) (env : Environment) (q : Request) :
    (t.serve env q).env.log.toList =
      env.log.toList ++ (t.ring.rotations (t.calls ⟨env, q⟩)).map .rotated := by
  cases q with
  | record key => exact t.ring.toList_log_serve hr env _
  | estimates key => exact t.ring.toList_log_serve hr env _
  | itemCounts => exact t.ring.toList_log_serve hr env _
  | recordAndEstimate key =>
    -- The second poll reads what the first one left of the ticker; the report in between is no part
    -- of that.
    let hash := t.hasher.hash key
    let estimated := t.ring.serve env (.estimates hash)
    have state : estimated.state = t.ring.step (t.ring.call (env, .estimates hash)) :=
      t.ring.state_serve env _
    have nonempty : 0 < estimated.state.size := by
      rw [state, (t.ring.frame_step _).1]
      exact hr
    have second : estimated.state.call (estimated.env, .record hash) =
        ⟨((env.poll t.ring.source).2.poll t.ring.source).1, .record hash⟩ := by
      rw [state, Ring.call_step, Ring.call, t.ring.poll_serve hr]
    have first := t.ring.toList_log_serve hr env (.estimates hash)
    have later := estimated.state.toList_log_serve nonempty estimated.env (.record hash)
    rw [second, first, List.append_assoc, ← List.map_append] at later
    refine later.trans ?_
    rw [state]
    exact congrArg (env.log.toList ++ ·.map .rotated) (t.ring.rotations_append [_] [_]).symm

theorem config_serve (t : Tracker w) (env : Environment) (q : Request) :
    (t.serve env q).state.config = t.config := by
  cases q <;> rfl

theorem callsOf_step (t : Tracker w) (hr : 0 < t.ring.size) (v : Visit) :
    (t.step v).callsOf = t.callsOf := by
  funext visits
  rw [callsOf, t.calls_step hr, callsOf]

theorem ring_serveEach (t : Tracker w) (hr : 0 < t.ring.size)
    (visits : List (Environment × Request)) :
    (serveEach serve t visits).2.ring = t.ring.after (t.callsOf visits) := by
  induction visits generalizing t with
  | nil => rfl
  | cons visit visits ih =>
    obtain ⟨env, q⟩ := visit
    have later := ih (t.step ⟨env, q⟩) (by rwa [t.size_step hr])
    rw [t.callsOf_step hr, t.ring_step hr, ← Ring.after_append] at later
    exact later

theorem config_serveEach (t : Tracker w) (visits : List (Environment × Request)) :
    (serveEach serve t visits).2.config = t.config :=
  serveEach_keeps config config_serve t visits

theorem hasher_serveEach (t : Tracker w) (visits : List (Environment × Request)) :
    (serveEach serve t visits).2.hasher = t.hasher :=
  serveEach_keeps hasher (fun t env q => t.hasher_step ⟨env, q⟩) t visits

theorem frame_serveEach (t : Tracker w) (hr : 0 < t.ring.size)
    (visits : List (Environment × Request)) :
    (serveEach serve t visits).2.ring.size = t.ring.size ∧
      (serveEach serve t visits).2.ring.ticksPerBucket = t.ring.ticksPerBucket ∧
      (serveEach serve t visits).2.ring.source = t.ring.source := by
  rw [t.ring_serveEach hr]
  exact t.ring.frame_after _

theorem reportEach_eq (t : Tracker w) (hr : 0 < t.ring.size)
    (visits : List (Environment × Request)) :
    reportEach serve t visits = (t.ring.rotations (t.callsOf visits)).map .rotated := by
  induction visits generalizing t with
  | nil => rfl
  | cons visit visits ih =>
    obtain ⟨env, q⟩ := visit
    have later := ih (t.step ⟨env, q⟩) (by rwa [t.size_step hr])
    rw [t.callsOf_step hr, t.ring_step hr] at later
    have first := Environment.newsSince_eq (t.toList_log_serve hr env q)
    change (t.serve env q).env.newsSince env ++ reportEach serve (t.step ⟨env, q⟩) visits =
      (t.ring.rotations (t.calls ⟨env, q⟩ ++ t.callsOf visits)).map .rotated
    rw [first, later, Ring.rotations_append, List.map_append]

end Tracker

end AccessHistory
