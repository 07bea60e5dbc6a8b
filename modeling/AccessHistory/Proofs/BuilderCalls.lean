import AccessHistory.Proofs.Construction

/-!
Builders, which take the settings of a tracker one call at a time. A builder is complete once it has
the number of buckets, and only a complete one builds. Each field has the value of the last call that
sets it, so that only calls for the same field depend on their order.
-/

set_option autoImplicit false
set_option relaxedAutoImplicit false

namespace AccessHistory

variable {w : CellWidth}

/-! ### Fields -/

namespace Config

/-- A field of a config, with the type of what it holds. -/
inductive Slot : Type → Type where
  | bucketCount : Slot UInt64
  | ticksPerBucket : Slot UInt64
  | source : Slot TickSource
  | countsAccesses : Slot Bool
  | maxOps : Slot UInt64
  | maxErrorValue : Slot UInt64
  | certainty : Slot Float
  | maxWidth : Slot UInt64
  | maxDepth : Slot UInt64
  | falsePositiveRate : Slot Float

variable {α : Type}

def read (c : Config) : Slot α → α
  | .bucketCount => c.bucketCount
  | .ticksPerBucket => c.ticksPerBucket
  | .source => c.source
  | .countsAccesses => c.countsAccesses
  | .maxOps => c.maxOps
  | .maxErrorValue => c.maxErrorValue
  | .certainty => c.certainty
  | .maxWidth => c.maxWidth
  | .maxDepth => c.maxDepth
  | .falsePositiveRate => c.falsePositiveRate

theorem eq_of_read {c c' : Config} (h : ∀ (α : Type) (slot : Slot α), c.read slot = c'.read slot) :
    c = c' := by
  cases c
  cases c'
  simp only [mk.injEq]
  exact ⟨h _ .bucketCount, h _ .ticksPerBucket, h _ .source, h _ .countsAccesses, h _ .maxOps,
    h _ .maxErrorValue, h _ .certainty, h _ .maxWidth, h _ .maxDepth, h _ .falsePositiveRate⟩

end Config

namespace Setting

open Config (Slot)

variable {α : Type}

/-- The value that a setting gives to a field. -/
def value? (slot : Slot α) (s : Setting) : Option α :=
  match slot, s with
  | .bucketCount, .bucketCount count => some count
  | .ticksPerBucket, .ticksPerBucket ticks => some ticks
  | .source, .source ticker => some ticker
  | .countsAccesses, .countAccesses counts => some counts
  | .maxOps, .maxOps ops => some ops
  | .maxErrorValue, .maxErrorValue value => some value
  | .certainty, .certainty level => some level
  | .maxWidth, .maxSketchShape width _ => some width
  | .maxDepth, .maxSketchShape _ depth => some depth
  | .falsePositiveRate, .falsePositiveRate rate => some rate
  | _, _ => none

def isBucketCount : Setting → Bool
  | bucketCount _ => true
  | _ => false

theorem read_apply (c : Config) (s : Setting) (slot : Slot α) :
    (c.apply s).read slot = (s.value? slot).getD (c.read slot) := by
  cases s <;> cases slot <;> rfl

/-- After any settings, a field has the value that it was given last. -/
theorem read_foldl_apply (settings : List Setting) (c : Config) (slot : Slot α) :
    (settings.foldl Config.apply c).read slot =
      (settings.filterMap (value? slot)).getLastD (c.read slot) := by
  induction settings generalizing c with
  | nil => rfl
  | cons s settings ih =>
    rw [List.foldl_cons, ih, read_apply]
    cases given : s.value? slot with
    | none => rw [List.filterMap_cons_none given, Option.getD_none]
    | some value => rw [List.filterMap_cons_some given, List.getLastD_cons, Option.getD_some]

/-! ### Order -/

/-- No field is set by both. -/
def Apart (s s' : Setting) : Prop :=
  ∀ (α : Type) (slot : Slot α), s.value? slot = none ∨ s'.value? slot = none

theorem apart_bucketCount {s : Setting} (h : s.isBucketCount = false) (count : UInt64) :
    s.Apart (bucketCount count) := by
  intro α slot
  cases slot
  case bucketCount =>
    cases s
    case bucketCount => cases h
    all_goals exact .inl rfl
  all_goals exact .inr rfl

/-- The same settings in another order, in which those that set the same field follow each other as
before. -/
inductive Reordered : List Setting → List Setting → Prop where
  | refl (settings : List Setting) : Reordered settings settings
  | cons (s : Setting) {settings settings' : List Setting} :
      Reordered settings settings' → Reordered (s :: settings) (s :: settings')
  | swap {s s' : Setting} (settings : List Setting) :
      s.Apart s' → Reordered (s :: s' :: settings) (s' :: s :: settings)
  | trans {first second third : List Setting} :
      Reordered first second → Reordered second third → Reordered first third

namespace Reordered

variable {settings settings' : List Setting}

theorem perm (h : Reordered settings settings') : settings.Perm settings' := by
  induction h with
  | refl settings => exact .refl settings
  | cons s _ ih => exact ih.cons s
  | swap settings _ => exact .swap _ _ settings
  | trans _ _ first second => exact first.trans second

/-- Each field is given the same values in the same order. -/
theorem filterMap_eq (h : Reordered settings settings') (slot : Slot α) :
    settings.filterMap (value? slot) = settings'.filterMap (value? slot) := by
  induction h with
  | refl settings => rfl
  | cons s _ ih => rw [List.filterMap_cons, List.filterMap_cons, ih]
  | swap settings apart =>
    rcases apart α slot with idle | idle
    · simp only [List.filterMap_cons, idle]
    · simp only [List.filterMap_cons, idle]
  | trans _ _ first second => exact first.trans second

theorem foldl_apply (h : Reordered settings settings') (c : Config) :
    settings.foldl Config.apply c = settings'.foldl Config.apply c := by
  apply Config.eq_of_read
  intro α slot
  rw [read_foldl_apply, read_foldl_apply, h.filterMap_eq slot]

/-- A setting may come first if no other before it sets a field of its own. -/
theorem to_front {s : Setting} (before after : List Setting) (apart : ∀ s' ∈ before, s'.Apart s) :
    Reordered (before ++ s :: after) (s :: (before ++ after)) := by
  induction before with
  | nil => exact .refl _
  | cons first before ih =>
    have rest := ih fun s' member => apart s' (List.mem_cons_of_mem first member)
    exact (rest.cons first).trans (.swap _ (apart first List.mem_cons_self))

theorem symm (h : Reordered settings settings') : Reordered settings' settings := by
  induction h with
  | refl settings => exact .refl settings
  | cons s _ ih => exact ih.cons s
  | swap settings apart => exact .swap settings fun α slot => (apart α slot).symm
  | trans _ _ first second => exact second.trans first

end Reordered

end Setting

/-! ### Builders -/

/-- Whether a builder has the number of buckets yet. -/
inductive Stage where
  | initial
  | complete
  deriving DecidableEq

structure Builder (stage : Stage) where
  config : Config

namespace Builder

variable {stage : Stage}

def start : Builder .initial := ⟨{}⟩

/-- Completes a builder; all other settings are carried over. -/
def bucketCount (b : Builder .initial) (count : UInt64) : Builder .complete :=
  ⟨{ b.config with bucketCount := count }⟩

/-- Gives one of the settings that have a default. -/
def give (b : Builder stage) (s : Setting) : Builder stage := ⟨b.config.apply s⟩

def buildConfig (b : Builder .complete) : Except BuildError Config := do
  b.config.validate
  .ok b.config

/-- Builds a tracker, with the events of its construction. -/
def build (b : Builder .complete) : Except BuildError (Tracker w × List Event) :=
  Tracker.ofConfig b.config

/-- A call on a builder, if its stage has it: the number of buckets is given once. -/
def call? : (Σ stage, Builder stage) → Setting → Option (Σ stage, Builder stage)
  | ⟨.initial, b⟩, .bucketCount count => some ⟨.complete, b.bucketCount count⟩
  | ⟨.complete, _⟩, .bucketCount _ => none
  | ⟨stage, b⟩, s => some ⟨stage, b.give s⟩

/-- The builder after calls on a new one. -/
def afterCalls? (calls : List Setting) : Option (Σ stage, Builder stage) :=
  calls.foldlM call? ⟨.initial, start⟩

theorem call?_of_optional {s : Setting} (h : s.isBucketCount = false) (b : Builder stage) :
    call? ⟨stage, b⟩ s = some ⟨stage, b.give s⟩ := by
  cases s
  case bucketCount => cases h
  all_goals cases stage <;> rfl

theorem some_eq_some_iff {b b' : Builder stage} :
    (some ⟨stage, b⟩ : Option (Σ stage, Builder stage)) = some ⟨stage, b'⟩ ↔
      b.config = b'.config := by
  constructor
  · intro same
    cases same
    rfl
  · intro same
    cases b
    cases b'
    cases same
    rfl

theorem foldlM_call?_of_complete (calls : List Setting) (b : Builder .complete) :
    calls.foldlM call? ⟨.complete, b⟩ =
      if calls.countP Setting.isBucketCount = 0 then
        some ⟨.complete, ⟨calls.foldl Config.apply b.config⟩⟩
      else none := by
  induction calls generalizing b with
  | nil => rfl
  | cons s calls ih =>
    cases again : s.isBucketCount with
    | true =>
      cases s <;> cases again
      simp [call?, Setting.isBucketCount]
    | false =>
      rw [List.foldlM_cons, call?_of_optional again, Option.bind_eq_bind, Option.bind_some, ih]
      simp [again, give]

theorem foldlM_call?_of_initial (calls : List Setting) (b : Builder .initial)
    (b' : Builder .complete) :
    calls.foldlM call? ⟨.initial, b⟩ = some ⟨.complete, b'⟩ ↔
      calls.countP Setting.isBucketCount = 1 ∧ calls.foldl Config.apply b.config = b'.config := by
  induction calls generalizing b with
  | nil => simp
  | cons s calls ih =>
    cases first : s.isBucketCount with
    | true =>
      cases s <;> cases first
      rename_i count
      -- The rest of the calls finds a complete builder.
      change calls.foldlM call? ⟨.complete, b.bucketCount count⟩ = _ ↔ _
      rw [foldlM_call?_of_complete, List.countP_cons_of_pos rfl, Nat.succ_inj]
      split
      · next once => rw [some_eq_some_iff, and_iff_right once]; rfl
      · next again => simp [again]
    | false =>
      rw [List.foldlM_cons, call?_of_optional first, Option.bind_eq_bind, Option.bind_some, ih]
      simp [first, give]

/-- A builder is complete after one call for the number of buckets, and has what all calls gave. -/
theorem afterCalls?_eq_some_iff {calls : List Setting} {b : Builder .complete} :
    afterCalls? calls = some ⟨.complete, b⟩ ↔
      calls.countP Setting.isBucketCount = 1 ∧ Config.ofSettings calls = b.config :=
  foldlM_call?_of_initial calls start b

theorem buildConfig_eq (b : Builder .complete) :
    b.buildConfig = b.config.validate.map fun _ => b.config := by
  rw [buildConfig]
  cases b.config.validate <;> rfl

theorem buildConfig_eq_ok_iff {b : Builder .complete} {c : Config} :
    b.buildConfig = .ok c ↔ b.config.validate = .ok () ∧ b.config = c := by
  rw [buildConfig_eq]
  cases b.config.validate with
  | error cause => simp [Except.map]
  | ok u => simp [Except.map]

theorem buildConfig_eq_error_iff {b : Builder .complete} {e : BuildError} :
    b.buildConfig = .error e ↔ b.config.validate = .error e := by
  rw [buildConfig_eq]
  cases b.config.validate with
  | error cause => simp [Except.map]
  | ok u => simp [Except.map]

/-- What the check of a config finds is what building a tracker from it fails with. -/
theorem build_eq_error {b : Builder .complete} {e : BuildError} (h : b.buildConfig = .error e) :
    (b.build : Except BuildError (Tracker w × List Event)) = .error e :=
  Tracker.ofConfig_of_error (buildConfig_eq_error_iff.mp h)

theorem afterCalls?_of_reordered {calls calls' : List Setting} {b : Builder .complete}
    (h : Setting.Reordered calls calls') (reached : afterCalls? calls = some ⟨.complete, b⟩) :
    afterCalls? calls' = some ⟨.complete, b⟩ := by
  obtain ⟨once, given⟩ := afterCalls?_eq_some_iff.mp reached
  apply afterCalls?_eq_some_iff.mpr
  constructor
  · rw [← h.perm.countP_eq, once]
  · rw [← given]
    exact (h.foldl_apply {}).symm

/-- The number of buckets may be given at any time. -/
theorem reordered_of_moved {before after before' after' : List Setting} {count : UInt64}
    (once : (before ++ .bucketCount count :: after).countP Setting.isBucketCount = 1)
    (others : before' ++ after' = before ++ after) :
    Setting.Reordered (before ++ .bucketCount count :: after)
      (before' ++ .bucketCount count :: after') := by
  have optional : ∀ s ∈ before ++ after, s.isBucketCount = false := by
    rw [List.countP_append, List.countP_cons_of_pos rfl, ← Nat.add_assoc, ← List.countP_append,
      Nat.succ_inj, List.countP_eq_zero] at once
    intro s member
    exact Bool.eq_false_iff.mpr (once s member)
  have apart (s : Setting) (member : s ∈ before ++ after) : s.Apart (.bucketCount count) :=
    Setting.apart_bucketCount (optional s member) count
  have first := Setting.Reordered.to_front before after fun s member =>
    apart s (List.mem_append_left after member)
  have second := Setting.Reordered.to_front before' after' fun s member =>
    apart s (others ▸ List.mem_append_left after' member)
  rw [others] at second
  exact first.trans second.symm

end Builder

/-! ### Last calls -/

/-- With one call for the number of buckets, at any place, the other calls lead to a complete builder.
Each field has the value of the last call that sets it, or its default. So calls that set different
fields may come in any order, and the number of buckets at any time. Building a tracker comes to what
its construction from the config comes to, with the same events, and fails with what the check of the
config finds. -/
theorem builder_last_call_wins {calls : List Setting}
    (once : calls.countP Setting.isBucketCount = 1) :
    ∃ b : Builder .complete, Builder.afterCalls? calls = some ⟨.complete, b⟩ ∧
      (∀ (α : Type) (slot : Config.Slot α), b.config.read slot =
        (calls.filterMap (Setting.value? slot)).getLastD (Config.read {} slot)) ∧
      (∀ calls', Setting.Reordered calls calls' →
        Builder.afterCalls? calls' = some ⟨.complete, b⟩) ∧
      (∀ before count after before' after', calls = before ++ .bucketCount count :: after →
        before' ++ after' = before ++ after →
        Builder.afterCalls? (before' ++ .bucketCount count :: after') = some ⟨.complete, b⟩) ∧
      (∀ c, b.buildConfig = .ok c ↔ b.config.validate = .ok () ∧ b.config = c) ∧
      b.buildConfig = Config.ofSettings? calls ∧
      ∀ w : CellWidth,
        (b.build : Except BuildError (Tracker w × List Event)) = Tracker.ofSettings calls ∧
        (b.build : Except BuildError (Tracker w × List Event)) = Tracker.ofConfig b.config ∧
        (∀ e, b.buildConfig = .error e →
          (b.build : Except BuildError (Tracker w × List Event)) = .error e) ∧
        ∀ env, (Tracker.construct b.config : Construction (Tracker w)).run.run env =
          match b.build with
          | .error e => (.error e, env)
          | .ok (t, events) => (.ok t, { env with log := env.log ++ events.toArray }) := by
  have reached : Builder.afterCalls? calls = some ⟨.complete, ⟨Config.ofSettings calls⟩⟩ :=
    Builder.afterCalls?_eq_some_iff.mpr ⟨once, rfl⟩
  refine ⟨_, reached, ?_, ?_, ?_, ?_, Builder.buildConfig_eq _, ?_⟩
  · intro α slot
    exact Setting.read_foldl_apply calls {} slot
  · intro calls' reordered
    exact Builder.afterCalls?_of_reordered reordered reached
  · rintro before count after before' after' rfl others
    exact Builder.afterCalls?_of_reordered (Builder.reordered_of_moved once others) reached
  · intro c
    exact Builder.buildConfig_eq_ok_iff
  · intro w
    refine ⟨rfl, rfl, ?_, Tracker.run_construct _⟩
    intro e failed
    exact Builder.build_eq_error failed

/-- Calls that set some fields twice, and a certainty that no sketch can have. -/
def Builder.hasty : List Setting :=
  [.maxSketchShape 7 7, .source (.attached 0), .countAccesses false, .bucketCount 5, .maxOps 2000,
    .countAccesses true, .source (.attached 1), .certainty 1.5, .maxSketchShape 100 3]

/-- The last of the calls that set a field twice win, also where the number of buckets comes first and
a cap comes before a certainty; and both ways to build fail alike. -/
theorem builder_last_call_wins_hasty :
    Builder.hasty.countP Setting.isBucketCount = 1 ∧
      ∃ b : Builder .complete, Builder.afterCalls? Builder.hasty = some ⟨.complete, b⟩ ∧
        b.config.countsAccesses = true ∧ b.config.maxWidth = 100 ∧ b.config.maxDepth = 3 ∧
        b.config.source = .attached 1 ∧ b.config.ticksPerBucket = 3600 ∧
        Builder.afterCalls? [.bucketCount 5, .maxSketchShape 7 7, .source (.attached 0),
          .countAccesses false, .maxOps 2000, .countAccesses true, .source (.attached 1),
          .certainty 1.5, .maxSketchShape 100 3] = some ⟨.complete, b⟩ ∧
        Builder.afterCalls? [.source (.attached 0), .maxSketchShape 7 7, .countAccesses false,
          .bucketCount 5, .maxOps 2000, .countAccesses true, .source (.attached 1), .certainty 1.5,
          .maxSketchShape 100 3] = some ⟨.complete, b⟩ ∧
        b.buildConfig = .error (.certainty 1.5) ∧
        (b.build : Except BuildError (Tracker .bits8 × List Event)) = .error (.certainty 1.5) := by
  have once : Builder.hasty.countP Setting.isBucketCount = 1 := rfl
  obtain ⟨b, reached, fields, reorders, moves, -, checks, builds⟩ := builder_last_call_wins once
  have apart : Setting.Apart (.maxSketchShape 7 7) (.source (.attached 0)) := by
    intro α slot
    cases slot
    case source => exact .inl rfl
    all_goals exact .inr rfl
  have improbable : ¬ Sizing.IsProportion 1.5 := by decide +kernel
  have failed : b.buildConfig = .error (.certainty 1.5) := by
    rw [checks, Config.ofSettings?]
    simp [Config.ofSettings, Builder.hasty, Config.apply, Config.validate, improbable, Except.map]
  exact ⟨once, b, reached, fields _ .countsAccesses, fields _ .maxWidth, fields _ .maxDepth,
    fields _ .source, fields _ .ticksPerBucket,
    moves [.maxSketchShape 7 7, .source (.attached 0), .countAccesses false] 5 _ [] _ rfl rfl,
    reorders _ (.swap _ apart), failed, (builds .bits8).2.2.1 _ failed⟩

end AccessHistory
