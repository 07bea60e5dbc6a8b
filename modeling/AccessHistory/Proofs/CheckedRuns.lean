import AccessHistory.Proofs.AllocatedRings
import AccessHistory.Proofs.BucketContents
import AccessHistory.Proofs.CheckedCounters
import AccessHistory.Proofs.ServedRuns

/-!
Whole runs calculated with checked words and arrays. As long as a ring has fewer buckets than half
the words and a run records fewer keys than there are words, no check ever fails, and the run comes
to what it comes to without checks. The bytes of a ring can be added up because all of its tables
are in memory.
-/

set_option autoImplicit false
set_option relaxedAutoImplicit false

namespace AccessHistory

open Number (maxWord)

variable {w : CellWidth}

/-! ### Rings -/

namespace Ring

def slots (r : Ring w) : Vector (Bucket w) r.size := ⟨r.buckets, rfl⟩

def target? (r : Ring w) (tick : UInt64) : Except Trap Nat := do
  let slice ← Checked.div tick.toNat r.ticksPerBucket.toNat
  Checked.mod slice r.size

def isCurrent? (r : Ring w) (i : Nat) : Except Trap Bool := do
  if i = r.mostRecent then .ok true
  else
    let next ← Checked.add i 1
    let next ← Checked.mod next r.size
    .ok (next = r.mostRecent)

def enter? (r : Ring w) (i : Nat) : Except Trap (Ring w) := do
  let i ← Checked.index i r.size
  .ok (r.enter i.val i.isLt)

def rotate? (r : Ring w) (tick : UInt64) : Except Trap (Ring w × Option Rotation) := do
  let target ← r.target? tick
  let current ← r.isCurrent? target
  if current then .ok (r, none)
  else
    let entered ← r.enter? target
    .ok (entered, some ⟨r.mostRecent, target, tick⟩)

def recordNewest? (r : Ring w) (hash : UInt64) : Except Trap (Ring w) := do
  let slots ← Checked.update r.slots r.mostRecent (·.record? hash)
  .ok { r with
    buckets := slots.toArray
    mostRecent_valid := by
      rw [slots.size_toArray]
      exact r.mostRecent_valid }

/-- Reads the bucket that is `i` slices old. -/
def readAged? {α : Type} (r : Ring w) (read : Bucket w → Except Trap α) (i : Fin r.size) :
    Except Trap α := do
  let wrapped ← Checked.add r.mostRecent r.size
  let back ← Checked.sub wrapped i.val
  let slot ← Checked.mod back r.size
  let b ← Checked.read r.slots slot
  read b

def newestFirst? {α : Type} (r : Ring w) (read : Bucket w → Except Trap α) :
    Except Trap (List α) :=
  (List.finRange r.size).mapM (r.readAged? read)

def respond? (r : Ring w) : Request → Except Trap (Answer × Ring w)
  | .update => .ok (.index r.mostRecent, r)
  | .record hash => do
    let r ← r.recordNewest? hash
    .ok (.done, r)
  | .estimates hash => do
    let estimates ← r.newestFirst? (·.estimate? hash)
    .ok (.numbers estimates, r)
  | .itemCounts => do
    let counts ← r.newestFirst? fun b => .ok b.itemCount
    .ok (.numbers counts, r)

/-- What a ring without buckets answers. -/
def Request.idle : Request → Answer
  | update => .index 0
  | record _ => .done
  | estimates _ => .numbers []
  | itemCounts => .numbers []

def respondAt? (r : Ring w) (tick : UInt64) (q : Request) :
    Except Trap (Answer × Ring w × Option Rotation) := do
  let (r, rotation) ← r.rotate? tick
  let (answer, r) ← r.respond? q
  .ok (answer, r, rotation)

/-- Serves a request with all calculations checked. A ring without buckets calculates nothing. -/
def serve? (r : Ring w) (env : Environment) (q : Request) : Except Trap (Outcome (Ring w)) :=
  if r.isEmpty then .ok ⟨q.idle, r, env⟩
  else do
    let (tick, env) := env.poll r.source
    let (answer, r, rotation) ← r.respondAt? tick q
    .ok ⟨answer, r, env.report (rotation.map .rotated)⟩

def byteSize? (r : Ring w) : Except Trap Nat := Checked.total Bucket.byteSize? r.buckets.toList

/-! ### Single steps -/

theorem target?_eq (r : Ring w) (hr : 0 < r.size) (tick : UInt64) :
    r.target? tick = .ok (r.target tick) := by
  have span : 0 < r.ticksPerBucket.toNat := by
    apply Nat.pos_of_ne_zero
    intro zero
    exact r.ticksPerBucket_ne_zero (UInt64.toNat_inj.mp zero)
  unfold target?
  rw [Checked.div_eq _ span, Checked.bind_ok, Checked.mod_eq _ hr]
  rfl

theorem isCurrent?_eq (r : Ring w) (small : r.size ≤ maxWord) {i : Nat} (hi : i < r.size) :
    r.isCurrent? i = .ok (decide (r.IsCurrent i)) := by
  unfold isCurrent? IsCurrent
  split
  · next same => simp [same]
  · next other =>
    rw [Checked.add_eq (by omega), Checked.bind_ok, Checked.mod_eq _ (by omega), Checked.bind_ok]
    simp [other]

theorem rotate?_eq (r : Ring w) (hr : 0 < r.size) (small : r.size ≤ maxWord) (tick : UInt64) :
    r.rotate? tick = .ok (r.rotate tick) := by
  have inside := r.target_lt tick hr
  unfold rotate?
  rw [r.target?_eq hr, Checked.bind_ok, r.isCurrent?_eq small inside, Checked.bind_ok]
  rcases r.rotate_cases tick hr with ⟨current, stays⟩ | ⟨elsewhere, enters⟩
  · rw [stays, decide_eq_true current]
    rfl
  · rw [enters, decide_eq_false elsewhere]
    unfold enter?
    rw [Checked.index_eq inside]
    rfl

theorem recordNewest?_eq (r : Ring w) (hr : 0 < r.size) (hash : UInt64)
    (room : ∀ b ∈ r.buckets, b.itemCount < maxWord) :
    r.recordNewest? hash = .ok (r.recordNewest hash) := by
  have inside := r.mostRecent_lt hr
  have recorded : (r.slots[r.mostRecent]).record? hash = .ok ((r.slots[r.mostRecent]).record hash) :=
    Bucket.record?_eq (room _ (Array.getElem_mem _)) hash
  obtain ⟨slots, written, buckets⟩ := Checked.update_eq r.slots inside
    (f := (·.record? hash)) (g := (·.record hash)) recorded
  unfold recordNewest? recordNewest
  rw [written, Checked.bind_ok]
  simp only [buckets]
  rfl

theorem newestFirst?_eq {α : Type} (r : Ring w) (small : 2 * r.size ≤ maxWord + 1)
    {read? : Bucket w → Except Trap α} {read : Bucket w → α}
    (h : ∀ b, read? b = .ok (read b)) : r.newestFirst? read? = .ok (r.newestFirst read) := by
  apply Checked.mapM_eq
  intro i _
  have newest := r.mostRecent_lt i.pos
  have old := i.isLt
  have inside : (r.mostRecent + r.size - i.val) % r.size < r.size := r.slot_lt i.pos i.val
  unfold readAged?
  rw [Checked.add_eq (by omega), Checked.bind_ok, Checked.sub_eq (by omega), Checked.bind_ok,
    Checked.mod_eq _ i.pos, Checked.bind_ok, Checked.read_eq _ inside, Checked.bind_ok, h]
  rfl

theorem respond?_eq (r : Ring w) (hr : 0 < r.size) (small : 2 * r.size ≤ maxWord + 1)
    (q : Request) (room : q.isRecord = true → ∀ b ∈ r.buckets, b.itemCount < maxWord) :
    r.respond? q = .ok (r.respond q) := by
  cases q with
  | update => rfl
  | record hash =>
    simp only [respond?, r.recordNewest?_eq hr hash (room rfl), Checked.bind_ok]
    rfl
  | estimates hash =>
    simp only [respond?, r.newestFirst?_eq small fun b => b.estimate?_eq hash, Checked.bind_ok]
    rfl
  | itemCounts =>
    have shown : r.newestFirst? (fun b => .ok b.itemCount) = .ok (r.newestFirst (·.itemCount)) :=
      r.newestFirst?_eq small fun b => rfl
    simp only [respond?, shown, Checked.bind_ok]
    rfl

/-- A ring without buckets records nothing and shows nothing. -/
theorem respond_of_isEmpty (r : Ring w) (h : r.isEmpty = true) (q : Request) :
    r.respond q = (q.idle, r) := by
  have none_left : r.size = 0 := r.isEmpty_iff.mp h
  have nothing {α : Type} (read : Bucket w → α) : r.newestFirst read = [] := by
    apply List.eq_nil_of_length_eq_zero
    rw [length_newestFirst, none_left]
  cases q with
  | update =>
    have first : r.mostRecent = 0 := by
      rcases r.mostRecent_valid with first | inside
      · exact first
      · exact absurd inside (by unfold size at none_left; omega)
    exact congrArg (fun i => (Answer.index i, r)) first
  | record hash =>
    have buckets : r.buckets.modify r.mostRecent (·.record hash) = r.buckets := by
      rw [Array.eq_empty_of_size_eq_zero none_left]
      rfl
    unfold respond recordNewest
    simp only [buckets]
    rfl
  | estimates hash => exact congrArg (fun values => (Answer.numbers values, r)) (nothing _)
  | itemCounts => exact congrArg (fun values => (Answer.numbers values, r)) (nothing _)

/-! ### Runs -/

/-- A ring of few enough buckets, with room for so many records to come. -/
structure Fits (r : Ring w) (pending : Nat) : Prop where
  size : 2 * r.size ≤ maxWord + 1
  counts : r.itemTotal + pending ≤ maxWord

theorem itemTotal_respond (r : Ring w) (hr : 0 < r.size) (q : Request) :
    (r.respond q).2.itemTotal = r.itemTotal + q.isRecord.toNat := by
  cases q with
  | record hash => exact r.itemTotal_recordNewest hr hash
  | update => rfl
  | estimates hash => rfl
  | itemCounts => rfl

theorem Fits.respondAt? {r : Ring w} {q : Request} {pending : Nat} (hr : 0 < r.size)
    (h : r.Fits (q.isRecord.toNat + pending)) (tick : UInt64) :
    r.respondAt? tick q = .ok (r.respondAt tick q) ∧ (r.respondAt tick q).2.1.Fits pending := by
  have size := h.size
  have counts := h.counts
  have wiped := r.itemTotal_rotate tick
  have hr' : 0 < (r.rotate tick).1.size := by rwa [size_rotate]
  have size' : 2 * (r.rotate tick).1.size ≤ maxWord + 1 := by rwa [size_rotate]
  have room : q.isRecord = true → ∀ b ∈ (r.rotate tick).1.buckets, b.itemCount < maxWord := by
    intro records b member
    have counted := itemCount_le_itemTotal _ member
    rw [records, Bool.toNat_true] at counts
    omega
  have total := itemTotal_respond _ hr' q
  constructor
  · have rotated := r.rotate?_eq hr (by omega) tick
    simp only [Ring.respondAt?, rotated, Checked.bind_ok, respond?_eq _ hr' size' q room]
    rfl
  · constructor
    · change 2 * ((r.rotate tick).1.respond q).2.size ≤ maxWord + 1
      rwa [size_respond]
    · change ((r.rotate tick).1.respond q).2.itemTotal + pending ≤ maxWord
      omega

theorem Fits.serve? {r : Ring w} {q : Request} {pending : Nat}
    (h : r.Fits (q.isRecord.toNat + pending)) (env : Environment) :
    r.serve? env q = .ok (r.serve env q) ∧ (r.serve env q).state.Fits pending := by
  unfold Ring.serve? serve
  by_cases none_left : r.isEmpty = true
  · rw [if_pos none_left, if_pos none_left, r.respond_of_isEmpty none_left]
    have counts := h.counts
    refine ⟨rfl, h.size, ?_⟩
    change r.itemTotal + pending ≤ maxWord
    omega
  · obtain ⟨answered, fits⟩ := respondAt? (r.not_isEmpty_iff.mp none_left) h (env.poll r.source).1
    rw [if_neg none_left, if_neg none_left]
    simp only [answered, Checked.bind_ok, true_and]
    exact fits

/-- A ring as it is built, or one without buckets. -/
def IsNew (r : Ring w) : Prop :=
  r = empty ∨ ∃ counters ticksPerBucket source, ofCounters counters ticksPerBucket source = .ok r

theorem IsNew.itemTotal_eq {r : Ring w} (h : r.IsNew) : r.itemTotal = 0 := by
  rcases h with rfl | ⟨counters, ticksPerBucket, source, built⟩
  · rfl
  · unfold ofCounters at built
    split at built
    · cases built
    · split at built
      · cases built
      · cases built
        have nothing : Bucket.itemCount ∘ Bucket.ofCounter = fun _ : Counter w => 0 := rfl
        simp [itemTotal, nothing]

theorem IsNew.fits {r : Ring w} (h : r.IsNew) (few : r.size < 2 ^ 63) {pending : Nat}
    (room : pending < 2 ^ 64) : r.Fits pending := by
  have words : maxWord = 2 ^ 64 - 1 := rfl
  have none_yet := h.itemTotal_eq
  exact ⟨by omega, by omega⟩

/-- A ring over counters in memory, or one without buckets. -/
def IsHeld (r : Ring w) : Prop :=
  r = empty ∨ ∃ counters ticksPerBucket source, Counter.InMemory counters ∧
    ofCounters counters.toArray ticksPerBucket source = .ok r

theorem IsHeld.isNew {r : Ring w} (h : r.IsHeld) : r.IsNew := by
  rcases h with empty | ⟨counters, ticksPerBucket, source, -, built⟩
  · exact .inl empty
  · exact .inr ⟨_, _, _, built⟩

theorem IsHeld.isStored {r : Ring w} (h : r.IsHeld) : r.IsStored := by
  rcases h with rfl | ⟨counters, ticksPerBucket, source, held, built⟩
  · exact isStored_empty
  · exact isStored_of_inMemory held built

theorem isHeld_of_yields {backends : List Backend} {span : UInt64} {source : TickSource}
    {r : Ring w} (h : (allocate backends span source).Yields r) : r.IsHeld := by
  obtain ⟨counters, held, built⟩ := yields_iff.mp h
  exact .inr ⟨_, _, _, Counter.inMemory_of_yields held, built⟩

/-- The tables have addresses, and so their bytes can be counted. -/
theorem IsStored.byteSize?_eq {r : Ring w} (h : r.IsStored) : r.byteSize? = .ok r.byteSize := by
  obtain ⟨m, room⟩ := h.room
  have fits : r.byteSize ≤ maxWord := Nat.le_trans room m.free_le
  unfold byteSize at fits ⊢
  rw [← Array.foldl_toList] at fits ⊢
  refine Checked.total_eq ?_ fits
  intro b member
  have listed : b.dimensions ∈ r.dimensions := by
    rw [dimensions, Array.toList_map]
    exact List.mem_map_of_mem member
  apply Bucket.byteSize?_eq
  rw [b.byteSize_eq]
  exact h.arrays _ listed

end Ring

/-! ### Requests one after the other -/

section Each

variable {σ ρ : Type}

/-- Serves requests one after the other with calculations that may stop. -/
def serveEach? (serve? : σ → Environment → ρ → Except Trap (Outcome σ)) (s : σ) :
    List (Environment × ρ) → Except Trap (List Answer × σ)
  | [] => .ok ([], s)
  | (env, q) :: visits => do
    let o ← serve? s env q
    let (answers, s) ← serveEach? serve? o.state visits
    .ok (o.answer :: answers, s)

/-- A run in which every step keeps room for the records that are still to come. -/
theorem serveEach?_eq_of_step {serve? : σ → Environment → ρ → Except Trap (Outcome σ)}
    {serve : σ → Environment → ρ → Outcome σ} {isRecord : ρ → Bool} (Fits : σ → Nat → Prop)
    (step : ∀ s env q pending, Fits s ((isRecord q).toNat + pending) →
      serve? s env q = .ok (serve s env q) ∧ Fits (serve s env q).state pending)
    {s : σ} {visits : List (Environment × ρ)} {pending : Nat}
    (h : Fits s (visits.countP (isRecord ·.2) + pending)) :
    serveEach? serve? s visits = .ok (serveEach serve s visits) ∧
      Fits (serveEach serve s visits).2 pending := by
  induction visits generalizing s with
  | nil =>
    rw [List.countP_nil, Nat.zero_add] at h
    exact ⟨rfl, h⟩
  | cons visit visits ih =>
    obtain ⟨env, q⟩ := visit
    have records : List.countP (isRecord ·.2) ((env, q) :: visits) =
        (isRecord q).toNat + visits.countP (isRecord ·.2) := by
      rw [List.countP_cons, Nat.add_comm]
      cases isRecord q <;> rfl
    rw [records, Nat.add_assoc] at h
    obtain ⟨served, room⟩ := step s env q _ h
    obtain ⟨later, fits⟩ := ih room
    unfold serveEach?
    rw [served, Checked.bind_ok, later]
    exact ⟨rfl, fits⟩

end Each

theorem Ring.serveEach?_eq {r : Ring w} {visits : List (Environment × Request)} {pending : Nat}
    (h : r.Fits (visits.countP (·.2.isRecord) + pending)) :
    serveEach? serve? r visits = .ok (serveEach serve r visits) ∧
      (serveEach serve r visits).2.Fits pending :=
  serveEach?_eq_of_step Fits (fun _ env _ _ room => room.serve? env) h

/-! ### Trackers -/

namespace Tracker

def forward? (t : Tracker w) (env : Environment) (q : Ring.Request) :
    Except Trap (Outcome (Tracker w)) := do
  let o ← t.ring.serve? env q
  .ok ⟨o.answer, { t with ring := o.state }, o.env⟩

/-- Serves a request with all calculations checked. -/
def serve? (t : Tracker w) (env : Environment) : Request → Except Trap (Outcome (Tracker w))
  | .record key => t.forward? env (.record (t.hasher.hash key))
  | .estimates key => t.forward? env (.estimates (t.hasher.hash key))
  | .recordAndEstimate key => do
    let hash := t.hasher.hash key
    let estimated ← t.forward? env (.estimates hash)
    let recorded ← estimated.state.forward? estimated.env (.record hash)
    .ok ⟨estimated.answer, recorded.state, recorded.env⟩
  | .itemCounts => t.forward? env .itemCounts

def byteSize? (t : Tracker w) : Except Trap Nat := t.ring.byteSize?

theorem forward?_eq {t : Tracker w} {q : Ring.Request} {pending : Nat}
    (h : t.ring.Fits (q.isRecord.toNat + pending)) (env : Environment) :
    t.forward? env q = .ok (t.forward env q) ∧ (t.forward env q).state.ring.Fits pending := by
  obtain ⟨served, fits⟩ := h.serve? env
  unfold forward?
  rw [served]
  exact ⟨rfl, fits⟩

theorem serve?_eq {t : Tracker w} {q : Request} {pending : Nat}
    (h : t.ring.Fits (q.isRecord.toNat + pending)) (env : Environment) :
    t.serve? env q = .ok (t.serve env q) ∧ (t.serve env q).state.ring.Fits pending := by
  cases q with
  | record key => exact forward?_eq h env
  | estimates key => exact forward?_eq h env
  | itemCounts => exact forward?_eq h env
  | recordAndEstimate key =>
    have asked : t.ring.Fits ((Ring.Request.estimates (t.hasher.hash key)).isRecord.toNat +
        ((Ring.Request.record (t.hasher.hash key)).isRecord.toNat + pending)) := by
      change t.ring.Fits (0 + _)
      rw [Nat.zero_add]
      exact h
    obtain ⟨estimated, room⟩ := forward?_eq asked env
    obtain ⟨recorded, fits⟩ := forward?_eq room (t.forward env (.estimates _)).env
    refine ⟨?_, fits⟩
    unfold serve?
    simp only [estimated, Checked.bind_ok]
    rw [recorded]
    rfl

theorem serveEach?_eq {t : Tracker w} {visits : List (Environment × Request)} {pending : Nat}
    (h : t.ring.Fits (visits.countP (·.2.isRecord) + pending)) :
    serveEach? serve? t visits = .ok (serveEach serve t visits) ∧
      (serveEach serve t visits).2.ring.Fits pending :=
  serveEach?_eq_of_step (fun (t : Tracker w) pending => t.ring.Fits pending)
    (fun _ env _ _ room => serve?_eq room env) h

/-- A tracker as its config describes it, or one without buckets. -/
def IsNew (t : Tracker w) : Prop := t = empty ∨ ∃ counter, t.IsBuiltOver counter

theorem IsNew.fits {t : Tracker w} (h : t.IsNew) (few : t.ring.size < 2 ^ 63) {pending : Nat}
    (room : pending < 2 ^ 64) : t.ring.Fits pending := by
  have new_ring : t.ring.IsNew := by
    rcases h with rfl | ⟨counter, built⟩
    · exact .inl rfl
    · exact .inr ⟨_, _, _, built.ring⟩
  exact new_ring.fits few room

/-- A tracker as it is built in memory, or one without buckets. -/
def IsHeld (t : Tracker w) : Prop :=
  t = empty ∨ ∃ (c : Config) (events : List Event), (allocate c).Yields (t, events)

theorem IsHeld.isStored {t : Tracker w} (h : t.IsHeld) : t.ring.IsStored := by
  rcases h with rfl | ⟨c, events, built⟩
  · exact Ring.isStored_empty
  · exact (of_yields built).2

/-- No run adds to the bytes of a tracker. -/
theorem byteSize?_serveEach {t : Tracker w} (h : t.ring.IsStored)
    (visits : List (Environment × Request)) :
    let served := (serveEach serve t visits).2
    served.byteSize? = .ok served.byteSize ∧ served.ring.IsStored := by
  have stored := h.of_dimensions (t.dimensions_serveEach visits)
  exact ⟨stored.byteSize?_eq, stored⟩

end Tracker

/-! ### All calculations -/

/-- No calculation ever stops. Records and questions of counters come to their plain results, and so
do all histories of buckets and all runs of rings and trackers, whatever ticks are polled. A tracker
may be moved out of its place after a run; it and what stays behind both go on. Bytes can always be
counted: those of a filter because its bits can, and those of everything else because it was built in
memory, where every byte has an address. -/
theorem no_calculation_stops :
    (∀ (s : Sketch w) (hash : UInt64), s.record? hash = .ok (s.record hash) ∧
      s.estimate? hash = .ok (s.estimate hash)) ∧
    (∀ (b : Backend) (s : Sketch w), (Counter.allocate b).Yields (.sketch s) →
      ∀ changes : List Change, let later := changes.foldl Sketch.change s
        later.byteSize? = .ok later.byteSize) ∧
    (∀ (f : Filter) (hash : UInt64), f.record? hash = .ok (f.record hash) ∧
      f.contains? hash = .ok (f.contains hash) ∧ f.estimate? hash = .ok (f.estimate hash)) ∧
    (∀ (size probeCount : Nat) (f : Filter), Filter.ofShape size probeCount = .ok f →
      f.bits.size ≤ maxWord → ∀ changes : List Change, let later := changes.foldl Filter.change f
        later.bits.card? = .ok later.bits.card ∧ later.byteSize? = .ok later.byteSize) ∧
    (∀ (c : Counter w) (hash : UInt64), c.record? hash = .ok (c.record hash) ∧
      c.estimate? hash = .ok (c.estimate hash)) ∧
    (∀ (b : Bucket w) (hash : UInt64), b.estimate? hash = .ok (b.estimate hash)) ∧
    (∀ (c : Counter w) (changes : List Change), changes.countP Change.isRecord < 2 ^ 64 →
      changes.foldlM Bucket.change? (.ofCounter c) =
        .ok (changes.foldl Bucket.change (.ofCounter c))) ∧
    (∀ (b : Backend) (c : Counter w), (Counter.allocate b).Yields c →
      ∀ used changes : List Change, let counter := used.foldl Counter.change c
        let bucket := changes.foldl Bucket.change (.ofCounter counter)
        counter.byteSize? = .ok counter.byteSize ∧ bucket.byteSize? = .ok bucket.byteSize) ∧
    (∀ r : Ring w, r.IsNew → r.size < 2 ^ 63 →
      ∀ visits : List (Environment × Ring.Request), visits.countP (·.2.isRecord) < 2 ^ 64 →
        serveEach? Ring.serve? r visits = .ok (serveEach Ring.serve r visits)) ∧
    (∀ (backends : List Backend) (span : UInt64) (source : TickSource) (r : Ring w),
      (Ring.allocate backends span source).Yields r → r.IsHeld) ∧
    (∀ r : Ring w, r.IsHeld → r.IsNew ∧
      ∀ visits : List (Environment × Ring.Request), let later := (serveEach Ring.serve r visits).2
        later.byteSize? = .ok later.byteSize) ∧
    (∀ (config : Config) (t : Tracker w) (events : List Event),
      Tracker.ofConfig config = .ok (t, events) → t.IsNew) ∧
    (∀ t : Tracker w, t.IsNew → t.ring.size < 2 ^ 63 →
      ∀ visits later : List (Environment × Tracker.Request),
        (visits ++ later).countP (·.2.isRecord) < 2 ^ 64 →
          serveEach? Tracker.serve? t visits = .ok (serveEach Tracker.serve t visits) ∧
          serveEach? Tracker.serve? (serveEach Tracker.serve t visits).2.take.1 later =
            .ok (serveEach Tracker.serve (serveEach Tracker.serve t visits).2.take.1 later) ∧
          serveEach? Tracker.serve? (serveEach Tracker.serve t visits).2.take.2 later =
            .ok (serveEach Tracker.serve (serveEach Tracker.serve t visits).2.take.2 later)) ∧
    (∀ (config : Config) (t : Tracker w) (events : List Event),
      (Tracker.allocate config).Yields (t, events) → Tracker.ofConfig config = .ok (t, events)) ∧
    (∀ t : Tracker w, t.IsHeld → ∀ visits later : List (Environment × Tracker.Request),
      let served := (serveEach Tracker.serve t visits).2
      let moved := (serveEach Tracker.serve served.take.1 later).2
      let left := (serveEach Tracker.serve served.take.2 later).2
      served.byteSize? = .ok served.byteSize ∧ moved.byteSize? = .ok moved.byteSize ∧
        left.byteSize? = .ok left.byteSize) := by
  refine ⟨?_, fun _ _ => Sketch.byteSize?_changeAll, ?_, ?_, ?_, ?_, ?_, ?_, ?_,
    fun _ _ _ _ => Ring.isHeld_of_yields, ?_, ?_, ?_, ?_, ?_⟩
  · intro s hash
    exact ⟨s.record?_eq hash, s.estimate?_eq hash⟩
  · intro f hash
    exact ⟨f.record?_eq hash, f.contains?_eq hash, f.estimate?_eq hash⟩
  · intro size probeCount f built word changes
    have word' : (changes.foldl Filter.change f).bits.size ≤ maxWord := by
      rwa [f.size_bits_changeAll]
    exact ⟨Filter.card?_eq built word changes, Filter.byteSize?_eq word'⟩
  · intro c hash
    exact ⟨c.record?_eq hash, c.estimate?_eq hash⟩
  · intro b hash
    exact b.estimate?_eq hash
  · intro c changes few
    have words : maxWord = 2 ^ 64 - 1 := rfl
    apply Bucket.changeAll?_eq
    change 0 + _ ≤ maxWord
    omega
  · intro b c built used changes
    exact ⟨Counter.byteSize?_changeAll built used, Bucket.byteSize?_changeAll built used changes⟩
  · intro r new few_buckets visits few_records
    have room : r.Fits (visits.countP (·.2.isRecord) + 0) := new.fits few_buckets few_records
    exact (Ring.serveEach?_eq room).1
  · intro r held
    refine ⟨held.isNew, ?_⟩
    intro visits
    exact (held.isStored.of_dimensions (r.dimensions_serveEach visits)).byteSize?_eq
  · intro config t events built
    exact .inr (Tracker.isBuiltOver_of_ofConfig built).2
  · intro t new few_buckets visits later few_records
    rw [List.countP_append] at few_records
    obtain ⟨served, room⟩ := Tracker.serveEach?_eq (new.fits few_buckets few_records)
    have room_moved : (serveEach Tracker.serve t visits).2.take.1.ring.Fits
        (later.countP (·.2.isRecord) + 0) := room
    have left : Tracker.IsNew (Tracker.empty : Tracker w) := .inl rfl
    have room_left : (serveEach Tracker.serve t visits).2.take.2.ring.Fits
        (later.countP (·.2.isRecord) + 0) :=
      left.fits (Nat.two_pow_pos 63) (by omega)
    exact ⟨served, (Tracker.serveEach?_eq room_moved).1, (Tracker.serveEach?_eq room_left).1⟩
  · intro config t events built
    exact (Tracker.of_yields built).1
  · intro t held visits later
    obtain ⟨counted, stored⟩ := Tracker.byteSize?_serveEach held.isStored visits
    exact ⟨counted, (Tracker.byteSize?_serveEach stored later).1,
      (Tracker.byteSize?_serveEach Ring.isStored_empty later).1⟩

/-- The last tick of all is polled, and the tracker is moved out of its place. Bytes are counted after
records, resets and rotations, of single counters, of a ring of three, and of a tracker of three rows
that is moved as well. -/
theorem no_calculation_stops_small :
    ((Counter.allocate (.sketch 2 2)).Yields (.sketch Sketch.small) ∧
      ([.record 7, .reset, .record 9].foldl Sketch.change .small).byteSize? = .ok 4) ∧
    (Filter.ofShape 8 2 = .ok .small ∧ Filter.small.bits.size ≤ maxWord ∧
      let later := [.record 7, .reset, .record 9].foldl Filter.change .small
      later.bits.card? = .ok later.bits.card ∧ later.byteSize? = .ok 8) ∧
    ([Change.record 7, .reset, .record 9].countP Change.isRecord < 2 ^ 64 ∧
      [.record 7, .reset, .record 9].foldlM Bucket.change? (.ofCounter (.sketch .small)) =
        .ok ([.record 7, .reset, .record 9].foldl Bucket.change (.ofCounter (.sketch .small)))) ∧
    ((Counter.allocate (.filter 8 2)).Yields (.filter .small : Counter .bits8) ∧
      let counter := [Change.record 7].foldl Counter.change (.filter .small : Counter .bits8)
      counter.byteSize? = .ok 8 ∧
        ([.record 9, .reset].foldl Bucket.change (.ofCounter counter)).byteSize? = .ok 8) ∧
    (Ring.mixed.IsNew ∧ Ring.mixed.size < 2 ^ 63 ∧
      serveEach? Ring.serve? Ring.mixed [(.atTick 5, .record 7), (.atTick 0, .estimates 7)] =
        .ok (serveEach Ring.serve Ring.mixed [(.atTick 5, .record 7), (.atTick 0, .estimates 7)])) ∧
    ((Ring.allocate [.sketch 2 2, .filter 8 2, .filter 8 2] 2 (.attached 0)).Yields Ring.mixed ∧
      (serveEach Ring.serve .mixed [(.atTick 5, .record 7), (.atTick 0, .estimates 7)]).2.byteSize? =
        .ok 20) ∧
    (Tracker.small.IsNew ∧ Tracker.small.ring.size < 2 ^ 63 ∧
      serveEach? Tracker.serve? Tracker.small [(.atTick 18446744073709551615, .record "a".toUTF8)] =
        .ok (serveEach Tracker.serve Tracker.small
          [(.atTick 18446744073709551615, .record "a".toUTF8)]) ∧
      serveEach? Tracker.serve? (serveEach Tracker.serve Tracker.small
          [(.atTick 18446744073709551615, .record "a".toUTF8)]).2.take.2 [(.atTick 9, .itemCounts)] =
        .ok ([.numbers []], .empty)) ∧
    ∃ (t : Tracker .bits8) (events : List Event), (Tracker.allocate (.oneRow 3)).Yields (t, events) ∧
      Tracker.ofConfig (.oneRow 3) = .ok (t, events) ∧
      let served := (serveEach Tracker.serve t [(.atTick 30, .record "a".toUTF8)]).2
      let moved := (serveEach Tracker.serve served.take.1 [(.atTick 40, .itemCounts)]).2
      let left := (serveEach Tracker.serve served.take.2 [(.atTick 40, .itemCounts)]).2
      served.byteSize? = .ok served.byteSize ∧ moved.byteSize? = .ok moved.byteSize ∧
        left.byteSize? = .ok 0 := by
  obtain ⟨-, sketch_bytes, -, filters, -, -, buckets, bucket_bytes, rings, held, ring_bytes, -,
    trackers, unbounded, tracker_bytes⟩ := no_calculation_stops (w := .bits8)
  have sketch_built : (Counter.allocate (.sketch 2 2)).Yields (.sketch Sketch.small) :=
    ⟨.whole, _, rfl⟩
  have filter_shape : Filter.ofShape 8 2 = .ok .small := rfl
  have filter_fits : Filter.small.bits.size ≤ maxWord := by decide
  have filter_built : (Counter.allocate (.filter 8 2)).Yields (.filter .small : Counter .bits8) :=
    ⟨.whole, _, rfl⟩
  have new_ring : Ring.mixed.IsNew := .inr ⟨_, _, _, Ring.ofCounters_mixedCounters⟩
  have ring_built :
      (Ring.allocate [.sketch 2 2, .filter 8 2, .filter 8 2] 2 (.attached 0)).Yields Ring.mixed :=
    Ring.yields_iff.mpr ⟨_, ⟨.whole, _, rfl⟩, Ring.ofCounters_mixedCounters⟩
  have new_tracker : Tracker.small.IsNew := .inr ⟨_, Tracker.isBuiltOver_small⟩
  have few_buckets : Tracker.small.ring.size < 2 ^ 63 := by decide
  obtain ⟨t, events, tracker_built⟩ := Tracker.exists_yields_oneRow
  refine ⟨⟨sketch_built, ?_⟩, ⟨filter_shape, filter_fits, ?_⟩, ⟨by decide, ?_⟩, ⟨filter_built, ?_⟩,
    ⟨new_ring, by decide, ?_⟩, ⟨ring_built, ?_⟩, ⟨new_tracker, few_buckets, ?_⟩,
    t, events, tracker_built, unbounded _ _ _ tracker_built, ?_⟩
  · exact sketch_bytes _ _ sketch_built _
  · exact filters 8 2 .small filter_shape filter_fits _
  · exact buckets (.sketch .small) _ (by decide)
  · exact bucket_bytes _ _ filter_built _ _
  · exact rings .mixed new_ring (by decide) _ (by decide)
  · rw [(ring_bytes .mixed (held _ _ _ _ ring_built)).2]
    decide
  · obtain ⟨served, -, left⟩ := trackers .small new_tracker few_buckets
      [(.atTick 18446744073709551615, .record "a".toUTF8)] [(.atTick 9, .itemCounts)] (by decide)
    exact ⟨served, left⟩
  · exact tracker_bytes t (.inr ⟨_, _, tracker_built⟩) _ _

end AccessHistory
