import AccessHistory.Proofs.CheckedRuns

/-!
Trackers that are moved out of their place, and the empty ones that stay behind. The two share an
environment, and what is asked of them may alternate in any way. The empty one answers without a
look at the environment, so the other goes on as if it had never been moved.
-/

set_option autoImplicit false
set_option relaxedAutoImplicit false

namespace AccessHistory

variable {w : CellWidth}

/-! ### Entry points -/

namespace Ring

/-- Checks the time and says which bucket is the most recent one. Without buckets there is nothing
to poll for. -/
def mostRecentNow? (r : Ring w) (env : Environment) : Except Trap (Nat × Ring w × Environment) :=
  if r.size = 0 then .ok (0, r, env)
  else do
    let (tick, env) := env.poll r.source
    let (r, rotation) ← r.rotate? tick
    .ok (r.mostRecent, r, env.report (rotation.map .rotated))

theorem mostRecent_valid_slots (r : Ring w) (slots : Vector (Bucket w) r.size) :
    r.mostRecent = 0 ∨ r.mostRecent < slots.toArray.size := by
  rw [slots.size_toArray]
  exact r.mostRecent_valid

def recordNow? (r : Ring w) (env : Environment) (hash : UInt64) : Except Trap (Outcome (Ring w)) :=
  if r.isEmpty then .ok ⟨.done, r, env⟩
  else do
    let (i, r, env) ← r.mostRecentNow? env
    let slots ← Checked.update r.slots i (·.record? hash)
    let recorded :=
      { r with buckets := slots.toArray, mostRecent_valid := r.mostRecent_valid_slots slots }
    .ok ⟨.done, recorded, env⟩

def readNow? (r : Ring w) (env : Environment) (read : Bucket w → Except Trap Nat) :
    Except Trap (Outcome (Ring w)) :=
  if r.size = 0 then .ok ⟨.numbers [], r, env⟩
  else do
    let (_, r, env) ← r.mostRecentNow? env
    let values ← r.newestFirst? read
    .ok ⟨.numbers values, r, env⟩

/-- Serves a request through its own entry point, each of which looks for buckets on its own. -/
def serveNow? (r : Ring w) (env : Environment) : Request → Except Trap (Outcome (Ring w))
  | .update => do
    let (i, r, env) ← r.mostRecentNow? env
    .ok ⟨.index i, r, env⟩
  | .record hash => r.recordNow? env hash
  | .estimates hash => r.readNow? env (·.estimate? hash)
  | .itemCounts => r.readNow? env fun b => .ok b.itemCount

theorem serveNow?_eq (r : Ring w) (env : Environment) (q : Request) :
    r.serveNow? env q = r.serve? env q := by
  -- Either every entry point finds the ring empty, or all of them go on to the check of the time.
  by_cases none_left : r.isEmpty = true
  · have size := r.isEmpty_iff.mp none_left
    cases q <;>
      simp [serveNow?, mostRecentNow?, recordNow?, readNow?, serve?, size, none_left, Request.idle]
  · have size : r.size ≠ 0 := fun zero => none_left (r.isEmpty_iff.mpr zero)
    cases q <;>
      simp [serveNow?, mostRecentNow?, recordNow?, readNow?, serve?, size, none_left, respondAt?,
        respond?, recordNewest?]

/-- Without buckets, no request touches the environment. -/
theorem serve_of_isEmpty (r : Ring w) (h : r.isEmpty = true) (env : Environment) (q : Request) :
    r.serve env q = ⟨q.idle, r, env⟩ := by
  simp [serve, h, r.respond_of_isEmpty h]

/-- A check of the time would divide by the number of buckets. -/
theorem target?_of_isEmpty (r : Ring w) (h : r.isEmpty = true) (tick : UInt64) :
    r.target? tick = .error (.fault .zeroDivisor) := by
  have none_left := r.isEmpty_iff.mp h
  have sliced := Checked.div_eq (a := tick.toNat) r.span_pos
  simp [target?, sliced, Checked.mod, none_left]

end Ring

/-! ### Empty trackers -/

namespace Tracker

/-- What a tracker without buckets answers. -/
def Request.idle : Request → Answer
  | .record _ => .done
  | .estimates _ => .numbers []
  | .recordAndEstimate _ => .numbers []
  | .itemCounts => .numbers []

theorem serve_empty (env : Environment) (q : Request) :
    (empty : Tracker w).serve env q = ⟨q.idle, empty, env⟩ := by
  have idle (env : Environment) (q : Ring.Request) :
      (empty : Tracker w).forward env q = ⟨q.idle, empty, env⟩ := by
    have served := (Ring.empty : Ring w).serve_of_isEmpty rfl env q
    simp [forward, empty, served]
  cases q <;> simp [serve, idle, Request.idle, Ring.Request.idle]

/-- With calculations checked it is the same, as there is none. -/
theorem serve?_empty (env : Environment) (q : Request) :
    (empty : Tracker w).serve? env q = .ok ⟨q.idle, empty, env⟩ := by
  cases q <;> rfl

end Tracker

/-! ### Taken trackers -/

/-- A tracker that was moved out of its place, what is in that place since, and the environment that
they share. -/
structure Taken (w : CellWidth) where
  moved : Tracker w
  source : Tracker w
  env : Environment

namespace Taken

inductive Party where
  | moved
  | source
  deriving DecidableEq

/-- Either tracker may be asked or taken once more, and the environment may change in between. -/
inductive Act where
  | ask (who : Party) (q : Tracker.Request)
  | take (who : Party)
  | change (f : Environment → Environment)

def ofTake (t : Tracker w) (env : Environment) : Taken w := ⟨t.take.1, t.take.2, env⟩

/-- Does one act; there is an answer if somebody was asked. -/
def play (s : Taken w) : Act → Option (Party × Answer) × Taken w
  | .ask .moved q =>
    let o := s.moved.serve s.env q
    (some (.moved, o.answer), { s with moved := o.state, env := o.env })
  | .ask .source q =>
    let o := s.source.serve s.env q
    (some (.source, o.answer), { s with source := o.state, env := o.env })
  | .take .moved => (none, { s with moved := s.moved.take.1 })
  | .take .source => (none, { s with source := s.source.take.2 })
  | .change f => (none, { s with env := f s.env })

def run (s : Taken w) : List Act → List (Party × Answer) × Taken w
  | [] => ([], s)
  | act :: acts =>
    let (answer, s) := s.play act
    let (answers, s) := s.run acts
    (answer.toList ++ answers, s)

def answersOf (who : Party) (answers : List (Party × Answer)) : List Answer :=
  (answers.filter (·.1 = who)).map (·.2)

theorem answersOf_cons (who who' : Party) (a : Answer) (answers : List (Party × Answer)) :
    answersOf who ((who', a) :: answers) =
      if who' = who then a :: answersOf who answers else answersOf who answers := by
  by_cases same : who' = who <;> simp [answersOf, same]

/-- What is left of an act for the moved tracker, had it never been taken. -/
def Act.own : Act → Option (Turn Tracker.Request)
  | ask .moved q => some (.ask q)
  | ask .source _ => none
  | take _ => none
  | change f => some (.change f)

def Act.askedOfSource : Act → Option Tracker.Request
  | ask .source q => some q
  | ask .moved _ => none
  | take _ => none
  | change _ => none

/-- The acts on the empty tracker can be left out, and each is answered on its own. -/
theorem run_of_empty (t : Tracker w) (env : Environment) (acts : List Act) :
    answersOf .moved ((⟨t, .empty, env⟩ : Taken w).run acts).1 =
        (serveThrough Tracker.serve t env (acts.filterMap Act.own)).1 ∧
      answersOf .source ((⟨t, .empty, env⟩ : Taken w).run acts).1 =
        (acts.filterMap Act.askedOfSource).map Tracker.Request.idle ∧
      ((⟨t, .empty, env⟩ : Taken w).run acts).2 =
        ⟨(serveThrough Tracker.serve t env (acts.filterMap Act.own)).2.1, .empty,
          (serveThrough Tracker.serve t env (acts.filterMap Act.own)).2.2⟩ := by
  -- Only what is asked of the moved tracker and what changes from outside reach the environment.
  induction acts generalizing t env with
  | nil => exact ⟨rfl, rfl, rfl⟩
  | cons act acts ih =>
    cases act with
    | ask who q =>
      cases who with
      | moved =>
        have later := ih (t.serve env q).state (t.serve env q).env
        simp [run, play, List.filterMap_cons, Act.own, Act.askedOfSource, serveThrough,
          answersOf_cons, later]
      | source =>
        have later := ih t env
        simp [run, play, List.filterMap_cons, Act.own, Act.askedOfSource, answersOf_cons,
          Tracker.serve_empty, later]
    | take who =>
      have later := ih t env
      cases who <;>
        simp [run, play, List.filterMap_cons, Act.own, Act.askedOfSource, Tracker.take, later]
    | change f =>
      have later := ih t (f env)
      simp [run, play, List.filterMap_cons, Act.own, Act.askedOfSource, serveThrough, later]

end Taken

/-- A tracker that was taken is answered, polls and reports as if it had never been moved, whatever
is asked of the tracker that it left behind. That one is always empty, its answers are idle, and no
request to it touches the environment or calculates anything. Through whichever entry point, an
empty ring never comes to the division by its number of buckets. -/
theorem taken_undisturbed :
    (∀ (t : Tracker w) (env : Environment) (acts : List Taken.Act),
      let alone := serveThrough Tracker.serve t env (acts.filterMap Taken.Act.own)
      let (answers, last) := (Taken.ofTake t env).run acts
      Taken.answersOf .moved answers = alone.1 ∧
      Taken.answersOf .source answers =
        (acts.filterMap Taken.Act.askedOfSource).map Tracker.Request.idle ∧
      last = ⟨alone.2.1, .empty, alone.2.2⟩) ∧
    (∀ (env : Environment) (q : Tracker.Request),
      (Tracker.empty : Tracker w).serve env q = ⟨q.idle, .empty, env⟩ ∧
      (Tracker.empty : Tracker w).serve? env q = .ok ⟨q.idle, .empty, env⟩) ∧
    ((default : Tracker w) = .empty ∧ (Tracker.empty : Tracker w).bucketCount = 0 ∧
      (Tracker.empty : Tracker w).byteSize = 0 ∧ (Tracker.empty : Tracker w).isEmpty = true) ∧
    (∀ (r : Ring w) (env : Environment) (q : Ring.Request),
      r.serveNow? env q = r.serve? env q) ∧
    (∀ (env : Environment) (q : Ring.Request),
      (Ring.empty : Ring w).serveNow? env q = .ok ⟨q.idle, .empty, env⟩) ∧
    ∀ tick, (Ring.empty : Ring w).target? tick = .error (.fault .zeroDivisor) := by
  refine ⟨?_, ?_, ⟨rfl, rfl, rfl, rfl⟩, fun r => r.serveNow?_eq, ?_, ?_⟩
  · intro t env acts
    exact Taken.run_of_empty t env acts
  · intro env q
    exact ⟨Tracker.serve_empty env q, Tracker.serve?_empty env q⟩
  · intro env q
    rw [Ring.serveNow?_eq]
    rfl
  · intro tick
    exact Ring.empty.target?_of_isEmpty rfl tick

/-- The second poll of the tracker that was taken is the second one of the script. -/
example :
    ((Taken.ofTake Tracker.small { attached := fun _ => .script #[5, 11, 21] 0 }).run
      [.ask .source .itemCounts, .ask .moved (.record ⟨#[97]⟩), .ask .source (.record ⟨#[97]⟩),
        .ask .moved .itemCounts]).1 =
      [(.source, .numbers []), (.moved, .done), (.source, .done),
        (.moved, .numbers [0, 1, 0])] := by
  decide

end AccessHistory
