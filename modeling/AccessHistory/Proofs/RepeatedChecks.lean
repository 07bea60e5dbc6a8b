import AccessHistory.Proofs.ServedRuns

/-!
Checks of the time at one tick. The first of them does whatever rotation is due, so that later ones
at the same tick find nothing to do. Questions at the tick of a request may therefore be asked
before it without being noticed: all later answers, states and events are the same.
-/

set_option autoImplicit false
set_option relaxedAutoImplicit false

namespace AccessHistory

variable {w : CellWidth}

/-! ### Runs with requests put in -/

section Each

variable {σ ρ : Type}

/-- Requests put into a run that later requests do not notice: these are answered alike and leave
the same state, and the whole run reports the same events. -/
structure Unnoticed (serve : σ → Environment → ρ → Outcome σ) (s : σ)
    (before inserted later : List (Environment × ρ)) : Prop where
  answers : (serveEach serve (serveEach serve s (before ++ inserted)).2 later).1 =
    (serveEach serve (serveEach serve s before).2 later).1
  state : (serveEach serve s (before ++ inserted ++ later)).2 =
    (serveEach serve s (before ++ later)).2
  events : reportEach serve s (before ++ inserted ++ later) = reportEach serve s (before ++ later)

/-- What the next request does not notice, no later one does. -/
theorem Unnoticed.of_next {serve : σ → Environment → ρ → Outcome σ} {s now asked : σ}
    {before inserted : List (Environment × ρ)} {env : Environment} {q : ρ}
    (reached : (serveEach serve s before).2 = now)
    (inserting : (serveEach serve now inserted).2 = asked)
    (answer : (serve asked env q).answer = (serve now env q).answer)
    (state : (serve asked env q).state = (serve now env q).state)
    (events : reportEach serve now (inserted ++ [(env, q)]) = reportEach serve now [(env, q)])
    (later : List (Environment × ρ)) : Unnoticed serve s before inserted ((env, q) :: later) := by
  have rest (visits : List (Environment × ρ)) :
      serveEach serve asked ((env, q) :: visits) = serveEach serve now ((env, q) :: visits) := by
    simp only [serveEach, answer, state]
  constructor
  · rw [serveEach_append, reached, inserting, rest]
  · rw [List.append_assoc, serveEach_append, serveEach_append, serveEach_append, reached,
      inserting, rest]
  · -- The events agree only together with those of the next request, which may report less.
    have last : (serveEach serve now (inserted ++ [(env, q)])).2 = (serve now env q).state := by
      rw [serveEach_append, inserting]
      exact state
    have split : inserted ++ (env, q) :: later = inserted ++ [(env, q)] ++ later := by simp
    rw [List.append_assoc, reportEach_append, reached, split, reportEach_append, events, last,
      reportEach_append, reached]
    exact congrArg _ (reportEach_append serve now [(env, q)] later).symm

end Each

/-! ### Rings -/

namespace Ring

theorem respondAt_rotate (r : Ring w) (tick : UInt64) (q : Request) :
    (r.rotate tick).1.respondAt tick q =
      ((r.respondAt tick q).1, (r.respondAt tick q).2.1, none) := by
  simp only [respondAt, r.rotate_rotate tick]

/-- A call finds the same ring whether or not its tick was checked before. -/
theorem step_rotate (r : Ring w) (c : Call) : (r.rotate c.tick).1.step c = r.step c := by
  simp only [step, r.respondAt_rotate]

/-- The most recent bucket after a check is that of the tick or the one after it. -/
theorem mostRecent_rotate (r : Ring w) (hr : 0 < r.size) (tick : UInt64) :
    (r.rotate tick).1.mostRecent = r.target tick ∨
      (r.rotate tick).1.mostRecent = (r.target tick + 1) % r.size := by
  rcases r.rotate_cases tick hr with ⟨same | before, stays⟩ | ⟨-, enters⟩
  · rw [stays]
    exact .inl same.symm
  · rw [stays]
    exact .inr before.symm
  · rw [enters]
    exact .inl rfl

theorem recorded_eq_none {c : Call} (h : c.request.isRecord = false) : c.recorded = none := by
  obtain ⟨tick, request⟩ := c
  cases request with
  | record hash => cases h
  | update => rfl
  | estimates hash => rfl
  | itemCounts => rfl

section

variable {tick : UInt64} {queries : List Call}

theorem after_queries_of_checked {r : Ring w} (checked : r.rotate tick = (r, none))
    (h : ∀ c ∈ queries, c.tick = tick ∧ c.recorded = none) : r.after queries = r := by
  induction queries with
  | nil => rfl
  | cons c queries ih =>
    obtain ⟨at_tick, silent⟩ := h c List.mem_cons_self
    rw [after_cons, step_of_not_recorded r silent, at_tick, checked]
    exact ih fun query member => h query (List.mem_cons_of_mem c member)

/-- All that questions at a tick do is the check of the time. -/
theorem after_queries (r : Ring w) (h : ∀ c ∈ queries, c.tick = tick ∧ c.recorded = none)
    (some_query : queries ≠ []) : r.after queries = (r.rotate tick).1 := by
  cases queries with
  | nil => exact absurd rfl some_query
  | cons c queries =>
    obtain ⟨at_tick, silent⟩ := h c List.mem_cons_self
    rw [after_cons, step_of_not_recorded r silent, at_tick]
    exact after_queries_of_checked (r.rotate_rotate tick) fun query member =>
      h query (List.mem_cons_of_mem c member)

/-- The rotation at a tick is reported once, by whichever call comes first. -/
theorem rotations_queries (r : Ring w) (h : ∀ c ∈ queries, c.tick = tick ∧ c.recorded = none)
    {c : Call} (at_tick : c.tick = tick) (rest : List Call) :
    r.rotations (queries ++ c :: rest) = r.rotations (c :: rest) := by
  induction queries generalizing r with
  | nil => rfl
  | cons query queries ih =>
    obtain ⟨query_tick, silent⟩ := h query List.mem_cons_self
    -- The first question has done the rotation, so the rest of the run finds its tick checked.
    have later := ih (r.rotate tick).1 fun other member => h other (List.mem_cons_of_mem _ member)
    subst at_tick
    rw [List.cons_append, rotations, step_of_not_recorded r silent, query_tick, later, rotations,
      rotations, r.rotate_rotate, step_rotate]
    rfl

end

theorem serve_rotate (r : Ring w) {env : Environment} {tick : UInt64}
    (polled : (env.poll r.source).1 = tick) (q : Request) :
    ((r.rotate tick).1.serve env q).answer = (r.serve env q).answer ∧
      ((r.rotate tick).1.serve env q).state = (r.serve env q).state := by
  subst polled
  obtain ⟨answer, state⟩ := (r.rotate (env.poll r.source).1).1.serve_eq env q
  obtain ⟨answer', state'⟩ := r.serve_eq env q
  rw [source_rotate] at answer state
  rw [answer, state, answer', state', respondAt_rotate]
  exact ⟨rfl, r.step_rotate ⟨(env.poll r.source).1, q⟩⟩

end Ring

/-! ### Trackers -/

namespace Tracker

/-- The tracker after a check of the time. -/
def checked (t : Tracker w) (tick : UInt64) : Tracker w :=
  { t with ring := (t.ring.rotate tick).1 }

theorem calls_checked (t : Tracker w) (tick : UInt64) : (t.checked tick).calls = t.calls := by
  funext v
  have source : (t.checked tick).ring.source = t.ring.source := t.ring.source_rotate tick
  rw [calls, source]
  rfl

theorem serve_checked (t : Tracker w) (hr : 0 < t.ring.size) {env : Environment} {tick : UInt64}
    (polled : (env.poll t.ring.source).1 = tick) (q : Request) :
    ((t.checked tick).serve env q).answer = (t.serve env q).answer ∧
      ((t.checked tick).serve env q).state = (t.serve env q).state := by
  obtain ⟨c, rest, -, at_tick, calls⟩ := t.calls_eq_cons ⟨env, q⟩
  rw [polled] at at_tick
  subst at_tick
  have calls' : (t.checked c.tick).calls ⟨env, q⟩ = c :: rest := by rw [calls_checked, calls]
  have hr' : 0 < (t.checked c.tick).ring.size := by
    change 0 < (t.ring.rotate c.tick).1.size
    rwa [Ring.size_rotate]
  constructor
  · have answer := t.answer_eq ⟨env, q⟩ (congrArg List.head? calls)
    have answer' := (t.checked c.tick).answer_eq ⟨env, q⟩ (congrArg List.head? calls')
    refine answer'.trans (Eq.trans ?_ answer.symm)
    change ((t.ring.rotate c.tick).1.respondAt c.tick c.request).1 = _
    rw [Ring.respondAt_rotate]
  · ext1
    · rw [config_serve, config_serve]
      rfl
    · exact ((t.checked c.tick).hasher_step ⟨env, q⟩).trans (t.hasher_step ⟨env, q⟩).symm
    · change ((t.checked c.tick).step ⟨env, q⟩).ring = (t.step ⟨env, q⟩).ring
      rw [ring_step _ hr', t.ring_step hr, calls, calls', Ring.after_cons, Ring.after_cons]
      exact congrArg (Ring.after · rest) (t.ring.step_rotate c)

theorem calls_query (t : Tracker w) {env : Environment} {q : Request} (h : q.isRecord = false) :
    ∀ c ∈ t.calls ⟨env, q⟩, c.tick = (env.poll t.ring.source).1 ∧ c.recorded = none := by
  cases q with
  | record key => cases h
  | recordAndEstimate key => cases h
  | estimates key => simp [calls, Ring.Call.recorded]
  | itemCounts => simp [calls, Ring.Call.recorded]

section

variable {tick : UInt64} {queries : List (Environment × Request)}

theorem callsOf_queries (t : Tracker w)
    (h : ∀ query ∈ queries, query.2.isRecord = false ∧ (query.1.poll t.ring.source).1 = tick) :
    ∀ c ∈ t.callsOf queries, c.tick = tick ∧ c.recorded = none := by
  intro c member
  obtain ⟨query, inside, made⟩ := List.mem_flatMap.mp member
  obtain ⟨silent, polled⟩ := h query inside
  rw [← polled]
  exact t.calls_query silent c made

theorem serveEach_queries (t : Tracker w) (hr : 0 < t.ring.size)
    (h : ∀ query ∈ queries, query.2.isRecord = false ∧ (query.1.poll t.ring.source).1 = tick)
    (some_query : queries ≠ []) : (serveEach serve t queries).2 = t.checked tick := by
  have some_call : t.callsOf queries ≠ [] := by
    cases queries with
    | nil => exact absurd rfl some_query
    | cons query queries =>
      obtain ⟨c, rest, -, -, calls⟩ := t.calls_eq_cons ⟨query.1, query.2⟩
      simp [callsOf, calls]
  ext1
  · exact t.config_serveEach queries
  · exact t.hasher_serveEach queries
  · rw [t.ring_serveEach hr, t.ring.after_queries (t.callsOf_queries h) some_call]
    rfl

end

end Tracker

/-! ### Questions at the tick of a request -/

theorem Ring.queries_unnoticed (r : Ring w) (hr : 0 < r.size)
    (before queries later : List (Environment × Request)) (env : Environment) (q : Request)
    (h : ∀ query ∈ queries, query.2.isRecord = false ∧
      (query.1.poll r.source).1 = (env.poll r.source).1) :
    Unnoticed serve r before queries ((env, q) :: later) := by
  let now := (serveEach serve r before).2
  obtain ⟨size, -, source⟩ := r.frame_serveEach before
  have nonempty : 0 < now.size := hr.trans_eq size.symm
  have asked : ∀ c ∈ queries.map now.call, c.tick = (env.poll now.source).1 ∧ c.recorded = none := by
    intro c member
    obtain ⟨query, inside, rfl⟩ := List.mem_map.mp member
    obtain ⟨silent, polled⟩ := h query inside
    rw [← source] at polled
    exact ⟨polled, recorded_eq_none silent⟩
  have same : ((serveEach serve now queries).2.serve env q).answer = (now.serve env q).answer ∧
      ((serveEach serve now queries).2.serve env q).state = (now.serve env q).state := by
    rw [now.state_serveEach]
    rcases eq_or_ne (queries.map now.call) [] with none_asked | some_asked
    · rw [none_asked]
      exact ⟨rfl, rfl⟩
    · rw [now.after_queries asked some_asked]
      exact now.serve_rotate rfl q
  refine .of_next rfl rfl same.1 same.2 ?_ later
  rw [now.reportEach_eq nonempty, now.reportEach_eq nonempty, List.map_append]
  exact congrArg _ (now.rotations_queries asked rfl [])

theorem Tracker.queries_unnoticed (t : Tracker w) (hr : 0 < t.ring.size)
    (before queries later : List (Environment × Request)) (env : Environment) (q : Request)
    (h : ∀ query ∈ queries, query.2.isRecord = false ∧
      (query.1.poll t.ring.source).1 = (env.poll t.ring.source).1) :
    Unnoticed serve t before queries ((env, q) :: later) := by
  let now := (serveEach serve t before).2
  obtain ⟨size, -, source⟩ := t.frame_serveEach hr before
  have nonempty : 0 < now.ring.size := hr.trans_eq size.symm
  rw [← source] at h
  have same : ((serveEach serve now queries).2.serve env q).answer = (now.serve env q).answer ∧
      ((serveEach serve now queries).2.serve env q).state = (now.serve env q).state := by
    rcases eq_or_ne queries [] with rfl | some_asked
    · exact ⟨rfl, rfl⟩
    · rw [now.serveEach_queries nonempty h some_asked]
      exact now.serve_checked nonempty rfl q
  refine .of_next rfl rfl same.1 same.2 ?_ later
  obtain ⟨c, rest, -, at_tick, calls⟩ := now.calls_eq_cons ⟨env, q⟩
  have alone : now.callsOf [(env, q)] = c :: rest := by simp [callsOf, calls]
  have made : now.callsOf (queries ++ [(env, q)]) = now.callsOf queries ++ c :: rest := by
    rw [← alone, callsOf, List.flatMap_append]
    rfl
  rw [now.reportEach_eq nonempty, now.reportEach_eq nonempty, made, alone,
    now.ring.rotations_queries (now.callsOf_queries h) at_tick rest]

/-- A check of the time answers with the most recent bucket, which is that of the tick or the one
after it. Questions at the same tick then leave the whole state as it is, report nothing, and are
answered as without the check. Hence any questions may be put before a request that polls the same
tick, in every run of a ring or a tracker, and nothing that comes later notices. -/
theorem check_settles_tick :
    (∀ (r : Ring w) (env : Environment), 0 < r.size →
      (∃ i, (r.serve env .update).answer = .index i ∧
        i = (r.serve env .update).state.mostRecent ∧
        (i = r.target (env.poll r.source).1 ∨ i = (r.target (env.poll r.source).1 + 1) % r.size)) ∧
      ∀ (later : Environment) (q : Ring.Request), q.isRecord = false →
        (later.poll r.source).1 = (env.poll r.source).1 →
        (r.serve env .update).state.serve later q =
          ⟨(r.serve later q).answer, (r.serve env .update).state, (later.poll r.source).2⟩) ∧
    (∀ r : Ring w, 0 < r.size →
      ∀ (before queries later : List (Environment × Ring.Request)) (env : Environment)
        (q : Ring.Request), (∀ query ∈ queries, query.2.isRecord = false ∧
          (query.1.poll r.source).1 = (env.poll r.source).1) →
        Unnoticed Ring.serve r before queries ((env, q) :: later)) ∧
    ∀ t : Tracker w, 0 < t.ring.size →
      ∀ (before queries later : List (Environment × Tracker.Request)) (env : Environment)
        (q : Tracker.Request), (∀ query ∈ queries, query.2.isRecord = false ∧
          (query.1.poll t.ring.source).1 = (env.poll t.ring.source).1) →
        Unnoticed Tracker.serve t before queries ((env, q) :: later) := by
  refine ⟨?_, Ring.queries_unnoticed, Tracker.queries_unnoticed⟩
  intro r env hr
  have state : (r.serve env .update).state = (r.rotate (env.poll r.source).1).1 :=
    r.state_serve env .update
  constructor
  · refine ⟨(r.rotate (env.poll r.source).1).1.mostRecent, (r.serve_eq env .update).1, ?_,
      r.mostRecent_rotate hr (env.poll r.source).1⟩
    rw [state]
  · intro later q silent polled
    rw [state]
    have nonempty : 0 < (r.rotate (env.poll r.source).1).1.size := by rwa [Ring.size_rotate]
    have asked := r.serve_rotate polled q
    have kept := (r.rotate (env.poll r.source).1).1.state_serve later q
    have reported := Ring.env_serve _ nonempty later q
    rw [Ring.step_of_not_recorded _ (Ring.recorded_eq_none silent)] at kept
    simp only [Ring.call, Ring.source_rotate, polled, r.rotate_rotate] at kept reported
    have eta (o : Outcome (Ring w)) : o = ⟨o.answer, o.state, o.env⟩ := rfl
    rw [eta (Ring.serve _ later q), asked.1, kept, reported]
    rfl

/-- At tick 2 a rotation is due. Whoever asks first causes it, and the record after the questions
goes where it would have gone without them. -/
theorem check_settles_tick_of_due :
    (0 < Ring.mixed.size ∧
      (Ring.mixed.serve (.atTick 2) .update).answer = .index 1 ∧
      (Ring.mixed.serve (.atTick 2) .update).state.serve (.atTick 2) .itemCounts =
        ⟨(Ring.mixed.serve (.atTick 2) .itemCounts).answer,
          (Ring.mixed.serve (.atTick 2) .update).state, .atTick 2⟩) ∧
    Unnoticed Ring.serve Ring.mixed [(.atTick 9, .record 7)]
      [(.atTick 2, .estimates 7), (.atTick 2, .update)]
      [(.atTick 2, .record 7), (.atTick 0, .itemCounts)] ∧
    Unnoticed Tracker.serve Tracker.small [(.atTick 45, .record "a".toUTF8)]
      [(.atTick 20, .itemCounts)]
      [(.atTick 20, .recordAndEstimate "a".toUTF8), (.atTick 0, .itemCounts)] := by
  obtain ⟨checks, rings, trackers⟩ := check_settles_tick (w := .bits8)
  obtain ⟨⟨i, answer, recent, -⟩, settled⟩ := checks .mixed (.atTick 2) (by decide)
  have entered : (Ring.mixed.serve (.atTick 2) .update).state.mostRecent = 1 := by decide
  rw [recent, entered] at answer
  have unchanged := settled (.atTick 2) .itemCounts rfl rfl
  rw [Environment.snd_poll_atTick] at unchanged
  refine ⟨⟨by decide, answer, unchanged⟩, ?_, ?_⟩
  · refine rings .mixed (by decide) _ _ _ _ _ ?_
    simp [Ring.Request.isRecord]
  · refine trackers .small (by decide) _ _ _ _ _ ?_
    simp [Tracker.Request.isRecord]

end AccessHistory
