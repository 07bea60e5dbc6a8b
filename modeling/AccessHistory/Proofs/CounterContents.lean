import AccessHistory.Bucket
import AccessHistory.Proofs.FilterCover
import AccessHistory.Proofs.SketchCounts

/-!
Fresh counters and what they come to after records. A reset takes a counter back to the fresh one
it was built as, whatever it was fed with.
-/

set_option autoImplicit false
set_option relaxedAutoImplicit false

namespace AccessHistory

variable {w : CellWidth}

theorem bind_eq_ok {ε α β : Type} {x : Except ε α} {f : α → Except ε β} {b : β}
    (h : x.bind f = .ok b) : ∃ a, x = .ok a ∧ f a = .ok b := by
  cases x with
  | error e => cases h
  | ok a => exact ⟨a, rfl, h⟩

theorem bind_eq_error {ε α β : Type} {x : Except ε α} {f : α → Except ε β} {e : ε}
    (h : x.bind f = .error e) : x = .error e ∨ ∃ a, x = .ok a ∧ f a = .error e := by
  cases x with
  | error cause =>
    cases h
    exact .inl rfl
  | ok a => exact .inr ⟨a, rfl, h⟩

namespace Counter

/-- A counter as it is built, before its first record. -/
def IsFresh : Counter w → Prop
  | sketch s => ∃ width depth, Sketch.ofShape width depth = .ok s
  | filter f => ∃ size probeCount, Filter.ofShape size probeCount = .ok f

def recordAll (c : Counter w) (hashes : List UInt64) : Counter w := hashes.foldl record c

theorem recordAll_append_singleton (c : Counter w) (hashes : List UInt64) (hash : UInt64) :
    c.recordAll (hashes ++ [hash]) = (c.recordAll hashes).record hash := by
  rw [recordAll, List.foldl_append]
  rfl

theorem recordAll_sketch (s : Sketch w) (hashes : List UInt64) :
    (sketch s).recordAll hashes = sketch (s.recordAll hashes) := by
  induction hashes generalizing s with
  | nil => rfl
  | cons hash hashes ih => exact ih (s.record hash)

theorem recordAll_filter (f : Filter) (hashes : List UInt64) :
    (filter f : Counter w).recordAll hashes = filter (f.recordAll hashes) := by
  induction hashes generalizing f with
  | nil => rfl
  | cons hash hashes ih => exact ih (f.record hash)

theorem record_comm (c : Counter w) (first second : UInt64) :
    (c.record first).record second = (c.record second).record first := by
  cases c with
  | sketch s => exact congrArg sketch (s.record_comm first second)
  | filter f => exact congrArg filter (f.record_comm first second)

/-! ### Resets -/

theorem reset_record (c : Counter w) (hash : UInt64) : (c.record hash).reset = c.reset := by
  cases c with
  | sketch s => exact congrArg sketch (s.reset_record hash)
  | filter f => exact congrArg filter (f.reset_record hash)

theorem IsFresh.reset_eq {c : Counter w} (h : c.IsFresh) : c.reset = c := by
  cases c with
  | sketch s =>
    obtain ⟨width, depth, built⟩ := h
    exact congrArg sketch (Sketch.reset_of_ofShape built)
  | filter f =>
    obtain ⟨size, probeCount, built⟩ := h
    exact congrArg filter (Filter.reset_of_ofShape built)

/-- A reset forgets all records and nothing else. -/
theorem IsFresh.reset_recordAll {c : Counter w} (h : c.IsFresh) (hashes : List UInt64) :
    (c.recordAll hashes).reset = c := by
  have forgotten : (c.recordAll hashes).reset = c.reset :=
    foldl_keeps record reset reset_record c hashes
  rw [forgotten, h.reset_eq]

/-! ### Building -/

/-- A config's counter is fresh, and of the kind that the config asks for. -/
theorem of_ofConfig {config : Config} {c : Counter w} (h : ofConfig config = .ok c) :
    c.IsFresh ∧ c.kind = config.kind := by
  unfold ofConfig at h
  split at h
  · next counts =>
    obtain ⟨margin, -, h⟩ := bind_eq_ok h
    obtain ⟨s, built, h⟩ := bind_eq_ok h
    obtain ⟨width, -, built⟩ := bind_eq_ok built
    obtain ⟨depth, -, built⟩ := bind_eq_ok built
    cases h
    exact ⟨⟨width.toNat, depth.toNat, built⟩, (if_pos counts).symm⟩
  · next counts =>
    obtain ⟨f, built, h⟩ := bind_eq_ok h
    obtain ⟨bits, -, built⟩ := bind_eq_ok built
    obtain ⟨probes, -, built⟩ := bind_eq_ok built
    cases h
    exact ⟨⟨bits.toNat, probes.toNat, built⟩, (if_neg counts).symm⟩

/-! ### Estimates -/

/-- What a fresh counter of a kind may estimate once `own` of `all` records are the key's. -/
def Estimates (w : CellWidth) (own all estimate : Nat) : CounterKind → Prop
  | .sketch => min w.max own ≤ estimate ∧ estimate ≤ min w.max all
  | .filter => (1 ≤ own → estimate = 1) ∧ (all = 0 → estimate = 0) ∧ (estimate = 0 ∨ estimate = 1)

theorem IsFresh.estimates {c : Counter w} (h : c.IsFresh) (hashes : List UInt64) (hash : UInt64) :
    Estimates w (hashes.count hash) hashes.length ((c.recordAll hashes).estimate hash) c.kind := by
  cases c with
  | sketch s =>
    obtain ⟨width, depth, built⟩ := h
    rw [recordAll_sketch]
    exact ⟨Sketch.min_count_le_estimate built hashes hash,
      Sketch.estimate_le_min_length built hashes hash⟩
  | filter f =>
    obtain ⟨size, probeCount, built⟩ := h
    rw [recordAll_filter]
    refine ⟨?_, ?_, ?_⟩
    · intro own
      exact f.estimate_recordAll_of_mem (List.count_pos_iff.mp own)
    · intro none_recorded
      rw [List.eq_nil_of_length_eq_zero none_recorded]
      exact Filter.estimate_of_ofShape built hash
    · have := (f.recordAll hashes).estimate_le_one hash
      show (f.recordAll hashes).estimate hash = 0 ∨ (f.recordAll hashes).estimate hash = 1
      omega

/-- A fresh counter estimates zero for every key. -/
theorem IsFresh.estimate_eq_zero {c : Counter w} (h : c.IsFresh) (hash : UInt64) :
    c.estimate hash = 0 := by
  have bounds := h.estimates [] hash
  cases kind : c.kind with
  | sketch =>
    rw [kind] at bounds
    have most : c.estimate hash ≤ min w.max 0 := bounds.2
    omega
  | filter =>
    rw [kind] at bounds
    exact bounds.2.1 rfl

theorem Estimates.mono {own own' all estimate : Nat} {kind : CounterKind} (h : own ≤ own')
    (he : Estimates w own' all estimate kind) : Estimates w own all estimate kind := by
  cases kind with
  | sketch =>
    obtain ⟨least, most⟩ := he
    constructor
    · omega
    · exact most
  | filter =>
    obtain ⟨seen, rest⟩ := he
    constructor
    · intro own_seen
      exact seen (Nat.le_trans own_seen h)
    · exact rest

end Counter

namespace Bucket

theorem record_comm (b : Bucket w) (first second : UInt64) :
    (b.record first).record second = (b.record second).record first := by
  have counters := b.counter.record_comm first second
  unfold record
  simp only [counters]

def recordAll (b : Bucket w) (hashes : List UInt64) : Bucket w := hashes.foldl record b

/-- Records reach the counter and are counted one by one. -/
theorem recordAll_eq (b : Bucket w) (hashes : List UInt64) :
    b.recordAll hashes = ⟨b.counter.recordAll hashes, b.itemCount + hashes.length⟩ := by
  induction hashes generalizing b with
  | nil => rfl
  | cons hash hashes ih =>
    refine (ih (b.record hash)).trans ?_
    rw [List.length_cons, Nat.add_comm hashes.length 1, ← Nat.add_assoc]
    rfl

/-- The bucket over a counter after records of keys, in order. -/
def fill (c : Counter w) (hashes : List UInt64) : Bucket w := ⟨c.recordAll hashes, hashes.length⟩

theorem record_fill (c : Counter w) (hashes : List UInt64) (hash : UInt64) :
    (fill c hashes).record hash = fill c (hashes ++ [hash]) := by
  unfold fill record
  rw [Counter.recordAll_append_singleton, List.length_append]
  rfl

theorem reset_fill {c : Counter w} (h : c.IsFresh) (hashes : List UInt64) :
    (fill c hashes).reset = fill c [] := by
  unfold fill reset
  rw [h.reset_recordAll]
  rfl

end Bucket

end AccessHistory
