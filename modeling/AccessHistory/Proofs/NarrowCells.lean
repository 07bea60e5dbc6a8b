import AccessHistory.Proofs.EstimateBounds

/-!
Trackers that differ in the width of their cells only. Narrowing every cell of a tracker commutes
with all that is done to it, so that a narrow tracker shows the estimates of a wide one, cut off at
its own largest count, and otherwise the same.
-/

set_option autoImplicit false
set_option relaxedAutoImplicit false

namespace AccessHistory

variable {w w' : CellWidth}

theorem CellWidth.max_le_bits32 (w : CellWidth) : w.max ≤ bits32.max := by
  cases w <;> decide

/-! ### Cells -/

namespace Cell

/-- The cell of another width that holds the same count, or its largest one. -/
def narrow (w : CellWidth) (c : Cell w') : Cell w := ofNat c.count

@[simp]
theorem count_narrow (c : Cell w') : (c.narrow w).count = min c.count w.max := rfl

theorem narrow_zero : (zero : Cell w').narrow w = zero := by
  ext
  exact Nat.zero_min w.max

/-- A narrow cell is full no later than a wide one. -/
theorem narrow_succ (h : w.max ≤ w'.max) (c : Cell w') : c.succ.narrow w = (c.narrow w).succ := by
  ext
  simp only [count_narrow, count_succ]
  omega

end Cell

/-! ### Sketches -/

namespace Sketch

def narrow (w : CellWidth) (s : Sketch w') : Sketch w where
  width := s.width
  depth := s.depth
  table := s.table.map (Cell.narrow w)
  width_pos := s.width_pos
  depth_pos := s.depth_pos
  cells_le := s.cells_le
  size_table := by rw [Array.size_map, s.size_table]

theorem map_bump (h : w.max ≤ w'.max) (width rows : Nat) (hash : UInt64)
    (table : Array (Cell w')) :
    (bump width rows hash table).map (Cell.narrow w) =
      bump width rows hash (table.map (Cell.narrow w)) := by
  induction rows with
  | zero => rw [bump_zero, bump_zero]
  | succ rows ih =>
    rw [bump_succ, bump_succ, ← ih]
    exact map_modify _ (Cell.narrow_succ h) _

theorem record_narrow (h : w.max ≤ w'.max) (s : Sketch w') (hash : UInt64) :
    (s.narrow w).record hash = (s.record hash).narrow w := by
  have tables := map_bump h s.width s.depth hash s.table
  unfold record narrow
  simp only [tables]

theorem reset_narrow (s : Sketch w') : (s.narrow w).reset = s.reset.narrow w := by
  unfold reset narrow
  simp only [Array.map_replicate, Cell.narrow_zero]

theorem cell_narrow (s : Sketch w') (hash : UInt64) (row : Fin s.depth) :
    (s.narrow w).cell hash row = (s.cell hash row).narrow w := by
  have narrowed := (s.narrow w).getElem?_table hash row
  have wide := s.getElem?_table hash row
  change (s.table.map (Cell.narrow w))[place s.width row hash]? = _ at narrowed
  rw [Array.getElem?_map, wide] at narrowed
  exact (Option.some.inj narrowed).symm

/-- The smallest cell is the smallest one in both widths, be it full or not. -/
theorem estimate_narrow (s : Sketch w') (hash : UInt64) :
    (s.narrow w).estimate hash = min (s.estimate hash) w.max := by
  obtain ⟨⟨row, attained⟩, below⟩ := s.estimate_spec hash
  obtain ⟨⟨row', attained'⟩, below'⟩ := (s.narrow w).estimate_spec hash
  have least : (s.narrow w).estimate hash ≤ min (s.cell hash row).count w.max := by
    rw [← Cell.count_narrow, ← cell_narrow]
    exact below' row
  have wide := below row'
  have narrowed := congrArg Cell.count (s.cell_narrow (w := w) hash row')
  rw [Cell.count_narrow] at narrowed
  omega

theorem ofShape_narrow (width depth : Nat) :
    (ofShape width depth : Except BuildError (Sketch w)) =
      (ofShape width depth : Except BuildError (Sketch w')).map (narrow w) := by
  unfold ofShape
  split
  · simp only [Except.map, narrow, Array.map_replicate, Cell.narrow_zero]
  · rfl

theorem ofTarget_narrow (margin certainty : Float) (maxWidth maxDepth : UInt64) :
    (ofTarget margin certainty maxWidth maxDepth : Except BuildError (Sketch w)) =
      (ofTarget margin certainty maxWidth maxDepth : Except BuildError (Sketch w')).map
        (narrow w) := by
  unfold ofTarget
  cases Sizing.rowWidth margin maxWidth with
  | error e => rfl
  | ok width =>
    cases Sizing.rowCount certainty maxDepth with
    | error e => rfl
    | ok depth => exact ofShape_narrow width.toNat depth.toNat

end Sketch

/-! ### Counters and buckets -/

namespace Counter

def narrow (w : CellWidth) : Counter w' → Counter w
  | sketch s => sketch (s.narrow w)
  | filter f => filter f

theorem record_narrow (h : w.max ≤ w'.max) (c : Counter w') (hash : UInt64) :
    (c.narrow w).record hash = (c.record hash).narrow w := by
  cases c with
  | sketch s => exact congrArg sketch (s.record_narrow h hash)
  | filter f => rfl

theorem reset_narrow (c : Counter w') : (c.narrow w).reset = c.reset.narrow w := by
  cases c with
  | sketch s => exact congrArg sketch s.reset_narrow
  | filter f => rfl

/-- A filter estimates one at most, which every cell holds. -/
theorem estimate_narrow (c : Counter w') (hash : UInt64) :
    (c.narrow w).estimate hash = min (c.estimate hash) w.max := by
  cases c with
  | sketch s => exact s.estimate_narrow hash
  | filter f =>
    have seen := f.estimate_le_one hash
    have room := w.max_pos
    change f.estimate hash = min (f.estimate hash) w.max
    omega

theorem ofConfig_narrow (config : Config) :
    (ofConfig config : Except BuildError (Counter w)) =
      (ofConfig config : Except BuildError (Counter w')).map (narrow w) := by
  unfold ofConfig
  split
  · cases Sizing.errorMargin config.maxErrorValue config.maxOps with
    | error e => rfl
    | ok margin =>
      have built := @Sketch.ofTarget_narrow w w' margin config.certainty
        config.maxWidth config.maxDepth
      change (Sketch.ofTarget margin _ _ _).bind _ =
        ((Sketch.ofTarget margin _ _ _).bind _).map (narrow w)
      rw [built]
      cases (Sketch.ofTarget margin config.certainty config.maxWidth config.maxDepth :
        Except BuildError (Sketch w')) <;> rfl
  · cases Filter.ofTarget config.maxOps config.falsePositiveRate <;> rfl

end Counter

namespace Bucket

def narrow (w : CellWidth) (b : Bucket w') : Bucket w := ⟨b.counter.narrow w, b.itemCount⟩

theorem record_narrow (h : w.max ≤ w'.max) (b : Bucket w') (hash : UInt64) :
    (b.narrow w).record hash = (b.record hash).narrow w := by
  have counters := b.counter.record_narrow h hash
  unfold record narrow
  simp only [counters]

theorem reset_narrow (b : Bucket w') : (b.narrow w).reset = b.reset.narrow w := by
  have counters := b.counter.reset_narrow (w := w)
  unfold reset narrow
  simp only [counters]

end Bucket

/-- The answer with all numbers cut off at the largest one that may show. -/
def Answer.cutOff (most : Nat) : Answer → Answer
  | numbers values => numbers (values.map (min · most))
  | done => done
  | index i => index i

/-! ### Rings -/

namespace Ring

def narrow (w : CellWidth) (r : Ring w') : Ring w where
  buckets := r.buckets.map (Bucket.narrow w)
  mostRecent := r.mostRecent
  ticksPerBucket := r.ticksPerBucket
  source := r.source
  mostRecent_valid := by
    rw [Array.size_map]
    exact r.mostRecent_valid
  ticksPerBucket_ne_zero := r.ticksPerBucket_ne_zero

@[simp]
theorem size_narrow (r : Ring w') : (r.narrow w).size = r.size := Array.size_map

theorem target_narrow (r : Ring w') (tick : UInt64) : (r.narrow w).target tick = r.target tick := by
  unfold target
  rw [size_narrow]
  rfl

theorem isCurrent_narrow (r : Ring w') (i : Nat) : (r.narrow w).IsCurrent i ↔ r.IsCurrent i := by
  unfold IsCurrent
  rw [size_narrow]
  rfl

theorem enter_narrow (r : Ring w') {i : Nat} (h : i < r.size) (h' : i < (r.narrow w).size) :
    (r.narrow w).enter i h' = (r.enter i h).narrow w := by
  have buckets := map_modify r.buckets (fun b : Bucket w' => (b.reset_narrow (w := w)).symm) i
  unfold enter narrow
  simp only [buckets]

/-- Whether a ring rotates, and where to, has nothing to do with its cells. -/
theorem rotate_narrow (r : Ring w') (tick : UInt64) :
    (r.narrow w).rotate tick = ((r.rotate tick).1.narrow w, (r.rotate tick).2) := by
  by_cases hr : 0 < r.size
  · have hr' : 0 < (r.narrow w).size := by rwa [size_narrow]
    rcases r.rotate_cases tick hr with ⟨current, stays⟩ | ⟨elsewhere, enters⟩
    · have current' : (r.narrow w).IsCurrent ((r.narrow w).target tick) := by
        rwa [target_narrow, isCurrent_narrow]
      rw [stays, rotate_of_isCurrent _ tick current']
    · have elsewhere' : ¬ (r.narrow w).IsCurrent ((r.narrow w).target tick) := by
        rwa [target_narrow, isCurrent_narrow]
      rw [enters, rotate_of_not_isCurrent _ tick hr' elsewhere']
      simp only [target_narrow, enter_narrow r (r.target_lt tick hr)]
      rfl
  · rw [r.rotate_of_not_pos hr]
    apply rotate_of_not_pos
    rwa [size_narrow]

theorem recordNewest_narrow (h : w.max ≤ w'.max) (r : Ring w') (hash : UInt64) :
    (r.narrow w).recordNewest hash = (r.recordNewest hash).narrow w := by
  have buckets := map_modify r.buckets (m := Bucket.narrow w) (f := (·.record hash))
    (g := (·.record hash)) (fun b => (b.record_narrow h hash).symm) r.mostRecent
  unfold recordNewest narrow
  simp only [buckets]

theorem newestFirst_narrow {α : Type} (r : Ring w') (read : Bucket w → α) :
    (r.narrow w).newestFirst read = r.newestFirst fun b => read (b.narrow w) := by
  apply newestFirst_eq
  · rw [length_newestFirst, size_narrow]
  · intro i hi
    rw [size_narrow] at hi
    have same_slot : (r.narrow w).slot i = r.slot i := by
      unfold slot
      rw [size_narrow]
      rfl
    rw [r.getElem?_newestFirst _ hi, same_slot]
    change (r.buckets.map (Bucket.narrow w))[r.slot i]?.map read = _
    rw [Array.getElem?_map, Option.map_map]
    rfl

theorem ofCounters_narrow (counters : Array (Counter w')) (ticksPerBucket : UInt64)
    (source : TickSource) :
    ofCounters (counters.map (Counter.narrow w)) ticksPerBucket source =
      (ofCounters counters ticksPerBucket source).map (narrow w) := by
  have same_size : (counters.map (Counter.narrow w)).isEmpty = counters.isEmpty := by
    unfold Array.isEmpty
    rw [Array.size_map]
  unfold ofCounters
  rw [same_size]
  split
  · rfl
  · split
    · rfl
    · simp only [Except.map, narrow, Array.map_map]
      rfl

/-- Cuts off what is an estimate in the answer to a request. -/
def Request.cutOff (most : Nat) : Request → Answer → Answer
  | .estimates _ => Answer.cutOff most
  | .update => id
  | .record _ => id
  | .itemCounts => id

theorem respond_narrow (h : w.max ≤ w'.max) (r : Ring w') (q : Request) :
    (r.narrow w).respond q = (q.cutOff w.max (r.respond q).1, (r.respond q).2.narrow w) := by
  cases q with
  | update => rfl
  | record hash => exact congrArg (Prod.mk Answer.done) (r.recordNewest_narrow h hash)
  | estimates hash =>
    have shown : (r.narrow w).newestFirst (·.estimate hash) =
        (r.newestFirst (·.estimate hash)).map (min · w.max) := by
      rw [newestFirst_narrow, map_newestFirst]
      exact congrArg r.newestFirst (funext fun b => b.counter.estimate_narrow hash)
    exact congrArg (fun values => (Answer.numbers values, r.narrow w)) shown
  | itemCounts =>
    exact congrArg (fun values => (Answer.numbers values, r.narrow w)) (r.newestFirst_narrow _)

theorem serve_narrow (h : w.max ≤ w'.max) (r : Ring w') (env : Environment) (q : Request) :
    (r.narrow w).serve env q =
      ⟨q.cutOff w.max (r.serve env q).answer, (r.serve env q).state.narrow w, (r.serve env q).env⟩ := by
  have same_size : (r.narrow w).isEmpty = r.isEmpty := by
    unfold isEmpty Array.isEmpty
    exact congrArg (· == 0) r.size_narrow
  have same_source : (r.narrow w).source = r.source := rfl
  unfold serve respondAt
  rw [same_size, same_source]
  split
  · simp only [respond_narrow h]
  · simp only [rotate_narrow, respond_narrow h]

end Ring

/-! ### Trackers -/

namespace Tracker

def narrow (w : CellWidth) (t : Tracker w') : Tracker w := ⟨t.config, t.hasher, t.ring.narrow w⟩

/-- Cuts off what is an estimate in the answer to a request. -/
def Request.cutOff (most : Nat) : Request → Answer → Answer
  | .estimates _ => Answer.cutOff most
  | .recordAndEstimate _ => Answer.cutOff most
  | .record _ => id
  | .itemCounts => id

theorem serve_narrow (h : w.max ≤ w'.max) (t : Tracker w') (env : Environment) (q : Request) :
    (t.narrow w).serve env q =
      ⟨q.cutOff w.max (t.serve env q).answer, (t.serve env q).state.narrow w, (t.serve env q).env⟩ := by
  have forward_narrow (t : Tracker w') (env : Environment) (q : Ring.Request) :
      (t.narrow w).forward env q = ⟨q.cutOff w.max (t.forward env q).answer,
        (t.forward env q).state.narrow w, (t.forward env q).env⟩ := by
    have served := t.ring.serve_narrow h env q
    unfold forward narrow
    simp only [served]
  cases q with
  | record key => exact forward_narrow t env _
  | estimates key => exact forward_narrow t env _
  | itemCounts => exact forward_narrow t env _
  | recordAndEstimate key =>
    have hasher : (t.narrow w).hasher = t.hasher := rfl
    unfold serve
    simp only [hasher, forward_narrow]
    rfl

theorem after_narrow (h : w.max ≤ w'.max) (t : Tracker w') (visits : List Visit) :
    (t.narrow w).after visits = (t.after visits).narrow w := by
  induction visits generalizing t with
  | nil => rfl
  | cons v visits ih =>
    have first : (t.narrow w).step v = (t.step v).narrow w := by
      unfold step
      rw [serve_narrow h]
    change ((t.narrow w).step v).after visits = _
    rw [first, ih]
    rfl

theorem serveAll_narrow (h : w.max ≤ w'.max) (t : Tracker w') (env : Environment)
    (qs : List Request) :
    (t.narrow w).serveAll env qs = ((t.serveAll env qs).1.narrow w, (t.serveAll env qs).2) := by
  induction qs generalizing t env with
  | nil => rfl
  | cons q qs ih =>
    have first := t.serve_narrow h env q
    change ((t.narrow w).serve env q).state.serveAll ((t.narrow w).serve env q).env qs = _
    rw [first]
    exact ih _ _

theorem ofConfig_narrow (config : Config) :
    (ofConfig config : Except BuildError (Tracker w × List Event)).map Prod.fst =
      (ofConfig config : Except BuildError (Tracker w' × List Event)).map
        fun built => built.1.narrow w := by
  unfold ofConfig
  cases config.validate with
  | error e => rfl
  | ok _ =>
    have counters := @Counter.ofConfig_narrow w w' config
    change ((Counter.ofConfig config).bind _).map _ = ((Counter.ofConfig config).bind _).map _
    rw [counters]
    cases (Counter.ofConfig config : Except BuildError (Counter w')) with
    | error e => rfl
    | ok counter =>
      have ring := Ring.ofCounters_narrow (w := w)
        (Array.replicate config.bucketCount.toNat counter) config.ticksPerBucket config.source
      rw [Array.map_replicate] at ring
      change ((Ring.ofCounters (Array.replicate _ (counter.narrow w)) _ _).bind _).map _ =
        ((Ring.ofCounters _ _ _).bind _).map _
      rw [ring]
      cases Ring.ofCounters (Array.replicate config.bucketCount.toNat counter)
        config.ticksPerBucket config.source <;> rfl

/-- One config either fails in both widths, and for the same reason, or builds trackers that differ
in their cells only. -/
theorem ofConfig_cases (w w' : CellWidth) (config : Config) :
    (∃ e, (ofConfig config : Except BuildError (Tracker w × List Event)) = .error e ∧
      (ofConfig config : Except BuildError (Tracker w' × List Event)) = .error e) ∨
    ∃ wide events events',
      (ofConfig config : Except BuildError (Tracker w × List Event)) =
        .ok (wide.narrow w, events) ∧
      (ofConfig config : Except BuildError (Tracker w' × List Event)) = .ok (wide, events') := by
  have same := @ofConfig_narrow w w' config
  cases narrow_built : (ofConfig config : Except BuildError (Tracker w × List Event)) with
  | error e =>
    rw [narrow_built] at same
    cases wide_built : (ofConfig config : Except BuildError (Tracker w' × List Event)) with
    | error e' =>
      rw [wide_built] at same
      cases same
      exact .inl ⟨e, rfl, rfl⟩
    | ok built' =>
      rw [wide_built] at same
      cases same
  | ok built =>
    rw [narrow_built] at same
    cases wide_built : (ofConfig config : Except BuildError (Tracker w' × List Event)) with
    | error e' =>
      rw [wide_built] at same
      cases same
    | ok built' =>
      rw [wide_built] at same
      obtain ⟨t, events⟩ := built
      obtain ⟨wide, events'⟩ := built'
      have narrowed : t = wide.narrow w := Except.ok.inj same
      exact .inr ⟨wide, events, events', by rw [narrowed], rfl⟩

theorem IsBuiltOver.eq_fill {t : Tracker w'} {counter : Counter w'} (h : t.IsBuiltOver counter)
    (visits : List Visit) {b : Bucket w'} (member : b ∈ (t.after visits).ring.buckets) :
    ∃ hashes, b = .fill counter hashes := by
  obtain ⟨i, found⟩ := Array.mem_iff_getElem?.mp member
  have inside : i < t.config.bucketCount.toNat := by
    rw [← h.size_after visits]
    exact (Array.getElem?_eq_some_iff.mp found).1
  rw [h.getElem?_buckets visits inside] at found
  exact ⟨_, (Option.some.inj found).symm⟩

/-- A filter estimates one at most, so that its estimates fit every cell. -/
theorem IsBuiltOver.cutOff_answer {t : Tracker w'} {f : Filter} (h : t.IsBuiltOver (.filter f))
    (w : CellWidth) (visits : List Visit) (v : Visit) :
    v.request.cutOff w.max ((t.after visits).answer v) = (t.after visits).answer v := by
  have estimates (env : Environment) (key : ByteArray) :
      Answer.cutOff w.max ((t.after visits).answer ⟨env, .estimates key⟩) =
        (t.after visits).answer ⟨env, .estimates key⟩ := by
    rw [answer_estimates]
    apply congrArg Answer.numbers
    rw [Ring.map_newestFirst]
    apply Ring.newestFirst_congr
    intro b member
    have filled := h.eq_fill (visits ++ [⟨env, .estimates key⟩]) (b := b) (by
      rw [after_append]
      exact member)
    obtain ⟨keys, rfl⟩ := filled
    have seen := (f.recordAll keys).estimate_le_one ((t.after visits).hasher.hash key)
    have room := w.max_pos
    change min ((Counter.filter f).recordAll keys |>.estimate _) w.max =
      ((Counter.filter f).recordAll keys).estimate _
    rw [Counter.recordAll_filter]
    change min ((f.recordAll keys).estimate _) w.max = (f.recordAll keys).estimate _
    omega
  obtain ⟨env, request⟩ := v
  cases request with
  | record key => rfl
  | estimates key => exact estimates env key
  | recordAndEstimate key => exact estimates env key
  | itemCounts => rfl

/-- Trackers of narrow and of wide cells are built from the same configs and with the same errors.
They rotate alike, poll and report alike, show the same item counts, and a narrow sketch shows the
estimates of the wide one, cut off at its largest count. Filters show the same in both. -/
theorem answers_narrow (w : CellWidth) (config : Config) :
    match (ofConfig config : Except BuildError (Tracker w × List Event)),
        (ofConfig config : Except BuildError (Tracker .bits32 × List Event)) with
    | .ok (t, _), .ok (wide, _) =>
      (∀ visits : List Visit,
        (t.after visits).ring.mostRecent = (wide.after visits).ring.mostRecent ∧
        ∀ v : Visit,
          ((t.after visits).serve v.env v.request).env =
            ((wide.after visits).serve v.env v.request).env ∧
          (t.after visits).answer v =
            match config.kind with
            | .sketch => v.request.cutOff w.max ((wide.after visits).answer v)
            | .filter => (wide.after visits).answer v) ∧
      ∀ (env : Environment) (qs : List Request), (t.serveAll env qs).2 = (wide.serveAll env qs).2
    | .error e, .error e' => e = e'
    | .ok _, .error _ => False
    | .error _, .ok _ => False := by
  have wider := w.max_le_bits32
  rcases ofConfig_cases w .bits32 config with
    ⟨e, narrow_failed, wide_failed⟩ | ⟨wide, events, events', narrow_built, wide_built⟩
  · rw [narrow_failed, wide_failed]
  · rw [narrow_built, wide_built]
    obtain ⟨rfl, counter, built_over⟩ := isBuiltOver_of_ofConfig wide_built
    constructor
    · intro visits
      rw [after_narrow wider]
      refine ⟨rfl, ?_⟩
      intro v
      refine ⟨by rw [serve_narrow wider], ?_⟩
      have answered : ((wide.after visits).narrow w).answer v =
          v.request.cutOff w.max ((wide.after visits).answer v) := by
        unfold answer
        rw [serve_narrow wider]
      rw [← built_over.kind]
      cases counter with
      | sketch s => exact answered
      | filter f => exact answered.trans (built_over.cutOff_answer w visits v)
    · intro env qs
      rw [serveAll_narrow wider]

end Tracker

end AccessHistory
