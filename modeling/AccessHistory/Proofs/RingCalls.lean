import AccessHistory.Proofs.CounterContents
import AccessHistory.Ring

/-!
Runs of a ring: requests one after the other, each at the tick that its check of the time reads.
-/

set_option autoImplicit false
set_option relaxedAutoImplicit false

namespace AccessHistory.Ring

variable {w : CellWidth}

/-! ### Calls -/

/-- A request and the tick that its check of the time reads. -/
structure Call where
  tick : UInt64
  request : Request
  deriving DecidableEq, Inhabited

def Request.isRecord : Request → Bool
  | record _ => true
  | update => false
  | estimates _ => false
  | itemCounts => false

def Call.recorded (c : Call) : Option UInt64 :=
  match c.request with
  | .record hash => some hash
  | .update | .estimates _ | .itemCounts => none

def step (r : Ring w) (c : Call) : Ring w := (r.respondAt c.tick c.request).2.1

def after (r : Ring w) (calls : List Call) : Ring w := calls.foldl step r

theorem after_cons (r : Ring w) (c : Call) (calls : List Call) :
    r.after (c :: calls) = (r.step c).after calls := rfl

theorem after_append (r : Ring w) (calls later : List Call) :
    r.after (calls ++ later) = (r.after calls).after later := List.foldl_append

theorem step_of_recorded (r : Ring w) {c : Call} {hash : UInt64} (h : c.recorded = some hash) :
    r.step c = (r.rotate c.tick).1.recordNewest hash := by
  obtain ⟨tick, request⟩ := c
  cases request with
  | record hash =>
    cases h
    rfl
  | update => cases h
  | estimates _ => cases h
  | itemCounts => cases h

theorem step_of_not_recorded (r : Ring w) {c : Call} (h : c.recorded = none) :
    r.step c = (r.rotate c.tick).1 := by
  obtain ⟨tick, request⟩ := c
  cases request with
  | record hash => cases h
  | update => rfl
  | estimates _ => rfl
  | itemCounts => rfl

/-! ### What calls leave alone -/

theorem isEmpty_iff (r : Ring w) : r.isEmpty = true ↔ r.size = 0 :=
  Array.isEmpty_iff_size_eq_zero

theorem not_isEmpty_iff (r : Ring w) : ¬ r.isEmpty = true ↔ 0 < r.size := by
  rw [isEmpty_iff, Nat.pos_iff_ne_zero]

theorem rotate_of_not_pos (r : Ring w) (h : ¬ 0 < r.size) (tick : UInt64) :
    r.rotate tick = (r, none) :=
  dif_neg fun rotates => h rotates.1

theorem rotate_cases (r : Ring w) (tick : UInt64) (hr : 0 < r.size) :
    (r.IsCurrent (r.target tick) ∧ r.rotate tick = (r, none)) ∨
      (¬ r.IsCurrent (r.target tick) ∧ r.rotate tick =
        (r.enter (r.target tick) (r.target_lt tick hr),
          some ⟨r.mostRecent, r.target tick, tick⟩)) := by
  by_cases h : r.IsCurrent (r.target tick)
  · exact .inl ⟨h, r.rotate_of_isCurrent tick h⟩
  · exact .inr ⟨h, r.rotate_of_not_isCurrent tick hr h⟩

theorem target_enter (r : Ring w) (i : Nat) (h : i < r.size) (tick : UInt64) :
    (r.enter i h).target tick = r.target tick := by
  unfold target
  rw [size_enter]
  rfl

/-- A second check of the time at the same tick finds nothing to do. -/
theorem rotate_rotate (r : Ring w) (tick : UInt64) :
    (r.rotate tick).1.rotate tick = ((r.rotate tick).1, none) := by
  by_cases hr : 0 < r.size
  · rcases r.rotate_cases tick hr with ⟨current, stays⟩ | ⟨-, enters⟩
    · rw [stays]
      exact stays
    · rw [enters]
      exact rotate_of_isCurrent _ tick (.inl (r.target_enter _ (r.target_lt tick hr) tick))
  · rw [r.rotate_of_not_pos hr]
    exact r.rotate_of_not_pos hr tick

theorem rotate_recordNewest (r : Ring w) {tick : UInt64} (h : r.rotate tick = (r, none))
    (hash : UInt64) : (r.recordNewest hash).rotate tick = (r.recordNewest hash, none) := by
  by_cases hr : 0 < r.size
  · rcases r.rotate_cases tick hr with ⟨current, -⟩ | ⟨-, enters⟩
    · apply rotate_of_isCurrent
      unfold IsCurrent target at current ⊢
      rw [size_recordNewest]
      exact current
    · rw [enters] at h
      cases congrArg Prod.snd h
  · apply rotate_of_not_pos
    rwa [size_recordNewest]

@[simp]
theorem ticksPerBucket_rotate (r : Ring w) (tick : UInt64) :
    (r.rotate tick).1.ticksPerBucket = r.ticksPerBucket := by
  unfold rotate
  split <;> rfl

@[simp]
theorem source_rotate (r : Ring w) (tick : UInt64) : (r.rotate tick).1.source = r.source := by
  unfold rotate
  split <;> rfl

/-- Calls change neither the number of buckets, nor how time is cut, nor where it is read. -/
theorem frame_step (r : Ring w) (c : Call) :
    (r.step c).size = r.size ∧ (r.step c).ticksPerBucket = r.ticksPerBucket ∧
      (r.step c).source = r.source := by
  cases h : c.recorded with
  | none =>
    rw [step_of_not_recorded r h]
    exact ⟨r.size_rotate c.tick, r.ticksPerBucket_rotate c.tick, r.source_rotate c.tick⟩
  | some hash =>
    rw [step_of_recorded r h]
    exact ⟨(size_recordNewest _ hash).trans (r.size_rotate c.tick),
      r.ticksPerBucket_rotate c.tick, r.source_rotate c.tick⟩

theorem frame_after (r : Ring w) (calls : List Call) :
    (r.after calls).size = r.size ∧ (r.after calls).ticksPerBucket = r.ticksPerBucket ∧
      (r.after calls).source = r.source := by
  induction calls generalizing r with
  | nil => exact ⟨rfl, rfl, rfl⟩
  | cons c calls ih =>
    obtain ⟨size, ticks, source⟩ := r.frame_step c
    obtain ⟨size', ticks', source'⟩ := ih (r.step c)
    exact ⟨size'.trans size, ticks'.trans ticks, source'.trans source⟩

@[simp]
theorem size_after (r : Ring w) (calls : List Call) : (r.after calls).size = r.size :=
  (r.frame_after calls).1

theorem span_pos (r : Ring w) : 0 < r.ticksPerBucket.toNat := by
  apply Nat.pos_of_ne_zero
  intro zero
  exact r.ticksPerBucket_ne_zero (UInt64.toNat_inj.mp zero)

theorem slice_after (r : Ring w) (calls : List Call) : (r.after calls).slice = r.slice := by
  funext tick
  unfold slice
  rw [(r.frame_after calls).2.1]

/-! ### Buckets by place and by age -/

theorem mostRecent_lt (r : Ring w) (hr : 0 < r.size) : r.mostRecent < r.size := by
  rcases r.mostRecent_valid with first | inside
  · rw [first]
    exact hr
  · exact inside

theorem getElem?_enter (r : Ring w) (i : Nat) (h : i < r.size) (b : Nat) :
    (r.enter i h).buckets[b]? = if i = b then r.buckets[b]?.map Bucket.reset else r.buckets[b]? :=
  Array.getElem?_modify

theorem getElem?_recordNewest (r : Ring w) (hash : UInt64) (b : Nat) :
    (r.recordNewest hash).buckets[b]? =
      if r.mostRecent = b then r.buckets[b]?.map (·.record hash) else r.buckets[b]? :=
  Array.getElem?_modify

theorem slot_lt (r : Ring w) (hr : 0 < r.size) (i : Nat) : r.slot i < r.size := Nat.mod_lt _ hr

theorem slot_zero (r : Ring w) (hr : 0 < r.size) : r.slot 0 = r.mostRecent := by
  rw [slot, Nat.sub_zero, Nat.add_mod_right, Nat.mod_eq_of_lt (r.mostRecent_lt hr)]

theorem slot_add_mod (r : Ring w) {i : Nat} (hi : i < r.size) :
    (r.slot i + i) % r.size = r.mostRecent := by
  have newest := r.mostRecent_lt (by omega)
  rw [slot, Nat.mod_add_mod, Nat.sub_add_cancel (by omega), Nat.add_mod_right,
    Nat.mod_eq_of_lt newest]

theorem getElem?_newestFirst {α : Type} (r : Ring w) (read : Bucket w → α) {i : Nat}
    (h : i < r.size) : (r.newestFirst read)[i]? = r.buckets[r.slot i]?.map read := by
  have inside : r.slot i < r.buckets.size := r.slot_lt (Nat.zero_lt_of_lt h) i
  have long : i < (r.newestFirst read).length := by rwa [length_newestFirst]
  rw [List.getElem?_eq_getElem long, Array.getElem?_eq_getElem inside]
  simp [newestFirst]

/-- What a ring shows, place by place. -/
theorem newestFirst_eq {α : Type} {r : Ring w} {read : Bucket w → α} {values : List α}
    (long : values.length = r.size)
    (h : ∀ i < r.size, r.buckets[r.slot i]?.map read = values[i]?) :
    r.newestFirst read = values := by
  apply List.ext_getElem?
  intro i
  by_cases hi : i < r.size
  · rw [r.getElem?_newestFirst read hi, h i hi]
  · rw [List.getElem?_eq_none (by rw [length_newestFirst]; omega),
      List.getElem?_eq_none (by omega)]

theorem map_newestFirst {α β : Type} (r : Ring w) (read : Bucket w → α) (f : α → β) :
    (r.newestFirst read).map f = r.newestFirst fun b => f (read b) := by
  unfold newestFirst
  rw [List.map_map]
  rfl

/-- Everything that a ring shows is read off its buckets, the newest one first. -/
theorem newestFirst_eq_map {α : Type} (r : Ring w) (read : Bucket w → α) :
    r.newestFirst read = (r.newestFirst id).map read :=
  (r.map_newestFirst id read).symm

theorem newestFirst_congr {α : Type} (r : Ring w) {read read' : Bucket w → α}
    (h : ∀ b ∈ r.buckets, read b = read' b) : r.newestFirst read = r.newestFirst read' := by
  unfold newestFirst
  apply List.map_congr_left
  intro i _
  exact h _ (Array.getElem_mem _)

theorem slot_ne_mostRecent (r : Ring w) {i : Nat} (old : 0 < i) (hi : i < r.size) :
    r.slot i ≠ r.mostRecent := by
  intro same
  have inside := r.mostRecent_lt (by omega)
  have turned := r.slot_add_mod hi
  rw [same] at turned
  rcases Nat.lt_or_ge (r.mostRecent + i) r.size with below | past
  · rw [Nat.mod_eq_of_lt below] at turned
    omega
  · rw [Nat.mod_eq_sub_mod past, Nat.mod_eq_of_lt (by omega)] at turned
    omega

theorem slot_recordNewest (r : Ring w) (hash : UInt64) : (r.recordNewest hash).slot = r.slot := by
  funext i
  unfold slot
  rw [size_recordNewest]
  rfl

/-- A record changes the newest bucket and no other one. -/
theorem newestFirst_recordNewest (r : Ring w) (hash : UInt64) {newest : Bucket w}
    {older : List (Bucket w)} (h : r.newestFirst id = newest :: older) :
    (r.recordNewest hash).newestFirst id = newest.record hash :: older := by
  have size : older.length + 1 = r.size := by
    rw [← length_newestFirst r id, h, List.length_cons]
  apply newestFirst_eq
  · rw [size_recordNewest, List.length_cons, size]
  · intro i hi
    rw [size_recordNewest] at hi
    have before : r.buckets[r.slot i]?.map id = (newest :: older)[i]? := by
      rw [← h, r.getElem?_newestFirst id hi]
    rw [Option.map_id_apply] at before
    rw [slot_recordNewest, getElem?_recordNewest, Option.map_id_apply, before]
    cases i with
    | zero =>
      rw [r.slot_zero hi, if_pos rfl]
      rfl
    | succ i =>
      rw [if_neg (r.slot_ne_mostRecent (by omega) hi).symm]
      rfl

/-! ### Contents -/

/-- Bucket `b` is the fresh counter of its place, filled with the hashes of `content b`. -/
def Holds (r : Ring w) (fresh : Array (Counter w)) (content : Nat → List UInt64) : Prop :=
  ∀ b, r.buckets[b]? = fresh[b]?.map fun c => Bucket.fill c (content b)

variable {r : Ring w} {fresh : Array (Counter w)} {content content' : Nat → List UInt64}

theorem Holds.size_eq (h : r.Holds fresh content) : r.size = fresh.size := by
  have outside := h fresh.size
  have inside := h r.size
  have last : r.buckets[r.size]? = none := Array.getElem?_eq_none (Nat.le_refl r.size)
  rw [last, eq_comm, Option.map_eq_none_iff, Array.getElem?_eq_none_iff] at inside
  rw [Array.getElem?_eq_none (Nat.le_refl fresh.size), Option.map_none,
    Array.getElem?_eq_none_iff] at outside
  exact Nat.le_antisymm outside inside

theorem Holds.enter (h : r.Holds fresh content) (hf : ∀ c ∈ fresh, c.IsFresh) {i : Nat}
    (hi : i < r.size) (entered : content' i = []) (others : ∀ b, b ≠ i → content' b = content b) :
    (r.enter i hi).Holds fresh content' := by
  intro b
  rw [getElem?_enter, h b]
  by_cases hb : i = b
  · subst hb
    rw [if_pos rfl, entered, Option.map_map]
    cases found : fresh[i]? with
    | none => rfl
    | some c => exact congrArg some (Bucket.reset_fill (hf c (Array.mem_of_getElem? found)) _)
  · rw [if_neg hb, others b (Ne.symm hb)]

theorem Holds.recordNewest (h : r.Holds fresh content) {hash : UInt64}
    (newest : content' r.mostRecent = content r.mostRecent ++ [hash])
    (others : ∀ b, b ≠ r.mostRecent → content' b = content b) :
    (r.recordNewest hash).Holds fresh content' := by
  intro b
  rw [getElem?_recordNewest, h b]
  by_cases hb : r.mostRecent = b
  · subst hb
    rw [if_pos rfl, newest, Option.map_map]
    exact congrArg (fresh[r.mostRecent]?.map ·) (funext fun c => Bucket.record_fill c _ hash)
  · rw [if_neg hb, others b (Ne.symm hb)]

/-- What a ring is when it is built: its counters in buckets, the first one the most recent. -/
theorem of_ofCounters {ticksPerBucket : UInt64} {source : TickSource}
    (h : ofCounters fresh ticksPerBucket source = .ok r) :
    r.Holds fresh (fun _ => []) ∧ r.mostRecent = 0 ∧ r.ticksPerBucket = ticksPerBucket ∧
      r.source = source ∧ 0 < r.size := by
  unfold ofCounters at h
  split at h
  · cases h
  · next nonempty =>
    split at h
    · cases h
    · cases h
      have some_counter : 0 < fresh.size := by
        rw [Array.isEmpty_iff_size_eq_zero] at nonempty
        exact Nat.pos_of_ne_zero nonempty
      exact ⟨fun b => Array.getElem?_map, rfl, rfl, rfl, by simpa [size] using some_counter⟩

theorem buckets_of_ofCounters {ticksPerBucket : UInt64} {source : TickSource}
    (h : ofCounters fresh ticksPerBucket source = .ok r) :
    r.buckets = fresh.map Bucket.ofCounter := by
  unfold ofCounters at h
  split at h
  · cases h
  · split at h <;> cases h
    rfl

/-! ### A small ring -/

/-- A sketch and two filters, all of them fresh and small. -/
def mixedCounters : Array (Counter .bits8) := #[.sketch .small, .filter .small, .filter .small]

def mixed : Ring .bits8 where
  buckets := #[.ofCounter (.sketch .small), .ofCounter (.filter .small),
    .ofCounter (.filter .small)]
  mostRecent := 0
  ticksPerBucket := 2
  source := .attached 0
  mostRecent_valid := .inl rfl
  ticksPerBucket_ne_zero := by decide

theorem ofCounters_mixedCounters : ofCounters mixedCounters 2 (.attached 0) = .ok mixed := by
  simp [ofCounters, mixedCounters, mixed]

theorem isFresh_mixedCounters : ∀ c ∈ mixedCounters, c.IsFresh := by
  intro c member
  simp only [mixedCounters, List.mem_toArray, List.mem_cons, List.not_mem_nil, or_false] at member
  rcases member with rfl | rfl | rfl
  · exact ⟨2, 2, rfl⟩
  · exact ⟨8, 2, rfl⟩
  · exact ⟨8, 2, rfl⟩

end AccessHistory.Ring
