import AccessHistory.Proofs.Construction
import AccessHistory.Proofs.ServedRuns
import AccessHistory.Proofs.TimeOrigin

/-!
Settings for the kind of counter that a config does not select. Whatever they are, proper numbers or
not, they change neither the check of the config, nor the construction, nor any run.
-/

set_option autoImplicit false
set_option relaxedAutoImplicit false

namespace AccessHistory

variable {w : CellWidth}

/-- Configs that differ at most in the settings for the kind of counter that they do not select. -/
structure Config.Agrees (c c' : Config) : Prop where
  bucketCount : c'.bucketCount = c.bucketCount
  ticksPerBucket : c'.ticksPerBucket = c.ticksPerBucket
  source : c'.source = c.source
  countsAccesses : c'.countsAccesses = c.countsAccesses
  maxOps : c'.maxOps = c.maxOps
  sketches : c.countsAccesses = true →
    c'.maxErrorValue = c.maxErrorValue ∧ c'.certainty = c.certainty ∧
      c'.maxWidth = c.maxWidth ∧ c'.maxDepth = c.maxDepth
  filters : c.countsAccesses = false → c'.falsePositiveRate = c.falsePositiveRate

namespace Config.Agrees

variable {c c' : Config}

theorem kind (agree : c.Agrees c') : c'.kind = c.kind := by
  simp only [Config.kind, agree.countsAccesses]

theorem validate (agree : c.Agrees c') : c'.validate = c.validate := by
  cases counts : c.countsAccesses with
  | true =>
    obtain ⟨maxErrorValue, certainty, -, -⟩ := agree.sketches counts
    simp [Config.validate, agree.bucketCount, agree.ticksPerBucket, agree.maxOps,
      agree.countsAccesses, counts, maxErrorValue, certainty]
  | false =>
    simp [Config.validate, agree.bucketCount, agree.ticksPerBucket, agree.maxOps,
      agree.countsAccesses, counts, agree.filters counts]

theorem counter (agree : c.Agrees c') :
    (Counter.ofConfig c' : Except BuildError (Counter w)) = Counter.ofConfig c := by
  cases counts : c.countsAccesses with
  | true =>
    obtain ⟨maxErrorValue, certainty, maxWidth, maxDepth⟩ := agree.sketches counts
    simp [Counter.ofConfig, agree.maxOps, agree.countsAccesses, counts, maxErrorValue, certainty,
      maxWidth, maxDepth]
  | false =>
    simp [Counter.ofConfig, agree.maxOps, agree.countsAccesses, counts, agree.filters counts]

end Config.Agrees

namespace Tracker

/-! ### Trackers with another config -/

def withConfig (t : Tracker w) (c : Config) : Tracker w := { t with config := c }

theorem buildEvents_of_agrees {c c' : Config} (agree : c.Agrees c') (ring : Ring w) :
    buildEvents c' ring = buildEvents c ring := by
  simp only [buildEvents, agree.bucketCount, agree.ticksPerBucket, agree.kind]

theorem ofConfig_of_agrees {c c' : Config} (agree : c.Agrees c') :
    (ofConfig c' : Except BuildError (Tracker w × List Event)) =
      (ofConfig c).map fun built => (built.1.withConfig c', built.2) := by
  cases valid : c.validate with
  | error e =>
    have valid' : c'.validate = .error e := agree.validate.trans valid
    rw [ofConfig_of_error valid, ofConfig_of_error valid']
    rfl
  | ok u =>
    have valid' : c'.validate = .ok () := agree.validate.trans valid
    cases sized : (Counter.ofConfig c : Except BuildError (Counter w)) with
    | error e =>
      rw [ofConfig_of_counter_error valid sized,
        ofConfig_of_counter_error valid' (agree.counter.trans sized)]
      rfl
    | ok counter =>
      obtain ⟨ring, in_ring, built⟩ := ofConfig_of_ok valid sized
      obtain ⟨ring', in_ring', built'⟩ := ofConfig_of_ok valid' (agree.counter.trans sized)
      rw [agree.bucketCount, agree.ticksPerBucket, agree.source, in_ring] at in_ring'
      cases in_ring'
      rw [built, built', buildEvents_of_agrees agree]
      rfl

/-- Requests look at the hasher and the ring alone. -/
theorem serve_withConfig (c : Config) (t : Tracker w) (env : Environment) (q : Request) :
    (t.withConfig c).serve env q =
      ⟨(t.serve env q).answer, (t.serve env q).state.withConfig c, (t.serve env q).env⟩ := by
  cases q <;> rfl

/-! ### Runs over the same ticks -/

/-- The same request at the same ticks, whatever else there is in the two environments. -/
def SamePolls (t : Tracker w) (visit visit' : Environment × Request) : Prop :=
  t.Paired Eq ⟨visit.1, visit.2⟩ ⟨visit'.1, visit'.2⟩

theorem SamePolls.refl (t : Tracker w) (visit : Environment × Request) : t.SamePolls visit visit :=
  ⟨rfl, List.forall₂_same.mpr fun _ _ => rfl⟩

theorem SamePolls.calls_eq {t : Tracker w} {visit visit' : Environment × Request}
    (h : t.SamePolls visit visit') :
    t.calls ⟨visit'.1, visit'.2⟩ = t.calls ⟨visit.1, visit.2⟩ := by
  have equal (c c' : Ring.Call) (same : c'.request = c.request ∧ c.tick = c'.tick) : c = c' := by
    cases c
    cases c'
    simp_all
  exact (List.forall₂_eq_eq_eq ▸ (Paired.calls h).imp equal).symm

/-- Visits that come to the same calls are answered the same, and leave the same tracker behind. -/
theorem serveEach_of_calls_eq {t : Tracker w} (hr : 0 < t.ring.size)
    {visits visits' : List (Environment × Request)}
    (h : List.Forall₂ (fun v v' => t.calls ⟨v'.1, v'.2⟩ = t.calls ⟨v.1, v.2⟩) visits visits') :
    serveEach serve t visits' = serveEach serve t visits := by
  -- The first visits leave the same tracker behind, and the calls of the others are the same to it.
  induction visits generalizing t visits' with
  | nil =>
    cases h
    rfl
  | cons visit visits ih =>
    obtain ⟨visit', rest', same, rest, rfl⟩ := List.forall₂_cons_left_iff.mp h
    obtain ⟨env, q⟩ := visit
    obtain ⟨env', q'⟩ := visit'
    obtain ⟨c, later, -, -, calls⟩ := t.calls_eq_cons ⟨env, q⟩
    have answer : t.answer ⟨env', q'⟩ = t.answer ⟨env, q⟩ := by
      rw [t.answer_eq ⟨env, q⟩ (congrArg List.head? calls),
        t.answer_eq ⟨env', q'⟩ (congrArg List.head? (same.trans calls))]
    have state : t.step ⟨env', q'⟩ = t.step ⟨env, q⟩ := by
      ext1
      · exact (t.config_serve env' q').trans (t.config_serve env q).symm
      · rw [t.hasher_step, t.hasher_step]
      · rw [t.ring_step hr, t.ring_step hr, same]
    have others := ih (t := t.step ⟨env, q⟩) (by rwa [t.size_step hr])
      (by rwa [t.calls_step hr])
    rw [← state] at others
    change (t.answer ⟨env', q'⟩ :: (serveEach serve (t.step ⟨env', q'⟩) rest').1,
      (serveEach serve (t.step ⟨env', q'⟩) rest').2) = _
    rw [others, answer, state]
    rfl

theorem serveEach_of_samePolls {t : Tracker w} (hr : 0 < t.ring.size)
    {visits visits' : List (Environment × Request)}
    (h : List.Forall₂ t.SamePolls visits visits') :
    serveEach serve t visits' = serveEach serve t visits ∧
      reportEach serve t visits' = reportEach serve t visits := by
  have calls := h.imp fun _ _ => SamePolls.calls_eq
  have all_calls : t.callsOf visits' = t.callsOf visits := by
    clear h
    induction calls with
    | nil => rfl
    | cons same _ ih =>
      simp only [callsOf, List.flatMap_cons, same] at ih ⊢
      rw [ih]
  refine ⟨serveEach_of_calls_eq hr calls, ?_⟩
  rw [t.reportEach_eq hr, t.reportEach_eq hr, all_calls]

end Tracker

/-- Two configs that differ at most in the settings for the other kind of counter pass the same
check, and are built with the same events or fail with the same error. Over the same ticks the two
trackers are answered the same and report the same, and they stay the same but for their configs;
so they do in one environment, and leave the same tickers and events behind. -/
theorem settings_of_other_kind (c c' : Config) (agree : c.Agrees c') :
    c'.validate = c.validate ∧
    (∀ e, (Tracker.ofConfig c' : Except BuildError (Tracker w × List Event)) = .error e ↔
      (Tracker.ofConfig c : Except BuildError (Tracker w × List Event)) = .error e) ∧
    ∀ (t : Tracker w) (events : List Event), Tracker.ofConfig c = .ok (t, events) →
      Tracker.ofConfig c' = .ok (t.withConfig c', events) ∧
      (∀ visits visits', List.Forall₂ t.SamePolls visits visits' →
        serveEach Tracker.serve (t.withConfig c') visits' =
          ((serveEach Tracker.serve t visits).1,
            (serveEach Tracker.serve t visits).2.withConfig c') ∧
        reportEach Tracker.serve (t.withConfig c') visits' =
          reportEach Tracker.serve t visits) ∧
      (∀ env turns, serveThrough Tracker.serve (t.withConfig c') env turns =
        ((serveThrough Tracker.serve t env turns).1,
          (serveThrough Tracker.serve t env turns).2.1.withConfig c',
          (serveThrough Tracker.serve t env turns).2.2)) ∧
      ∀ s : Tracker w, (s.withConfig c').bucketCount = s.bucketCount ∧
        (s.withConfig c').byteSize = s.byteSize ∧ (s.withConfig c').isEmpty = s.isEmpty := by
  have construction := Tracker.ofConfig_of_agrees (w := w) agree
  refine ⟨agree.validate, ?_, ?_⟩
  · intro e
    rw [construction]
    cases (Tracker.ofConfig c : Except BuildError (Tracker w × List Event)) <;> simp [Except.map]
  · intro t events built
    have commutes := Tracker.serve_withConfig (w := w) c'
    refine ⟨?_, ?_, ?_, fun _ => ⟨rfl, rfl, rfl⟩⟩
    · rw [construction, built]
      rfl
    · intro visits visits' same
      have nonempty := Tracker.size_pos_of_ofConfig built
      obtain ⟨answered, reported⟩ := Tracker.serveEach_of_samePolls nonempty same
      obtain ⟨answered', reported'⟩ := serveEach_of_commutes commutes t visits'
      rw [answered', reported', answered, reported]
      exact ⟨rfl, rfl⟩
    · intro env turns
      exact serveThrough_of_commutes commutes t env turns

/-- Rows of two cells, with a false positive rate that is no number. -/
def Config.oddRow (bucketCount : UInt64) : Config :=
  { oneRow bucketCount with falsePositiveRate := 0 / 0 }

/-- A false positive rate that is no number is not noticed where accesses are counted. -/
theorem settings_of_other_kind_oddRow :
    (Config.oneRow 3).Agrees (.oddRow 3) ∧
    ¬ Sizing.IsProportion (Config.oddRow 3).falsePositiveRate ∧
    (Config.oddRow 3).validate = .ok () ∧
    ∃ (t t' : Tracker .bits8) (events : List Event),
      Tracker.ofConfig (.oneRow 3) = .ok (t, events) ∧
      Tracker.ofConfig (.oddRow 3) = .ok (t', events) ∧
      (serveEach Tracker.serve t' [(.atTick 30, .record "a".toUTF8), (.atTick 31, .itemCounts)]).1 =
        (serveEach Tracker.serve t
          [(.atTick 30, .record "a".toUTF8), (.atTick 31, .itemCounts)]).1 := by
  have agree : (Config.oneRow 3).Agrees (.oddRow 3) :=
    ⟨rfl, rfl, rfl, rfl, rfl, fun _ => ⟨rfl, rfl, rfl, rfl⟩, Bool.noConfusion⟩
  obtain ⟨validates, -, constructs⟩ := settings_of_other_kind (w := .bits8) _ _ agree
  obtain ⟨t, events, built⟩ := Tracker.exists_ofConfig_oneRow (w := .bits8)
    (show (3 : UInt64) ≠ 0 by decide)
  obtain ⟨built', runs, -⟩ := constructs t events built
  refine ⟨agree, by decide +kernel, ?_, t, _, events, built, built', ?_⟩
  · rw [validates]
    exact Config.validate_oneRow (by decide)
  · rw [(runs _ _ (List.forall₂_same.mpr fun visit _ => .refl t visit)).1]

end AccessHistory
