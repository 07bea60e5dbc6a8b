import AccessHistory.Proofs.Construction

/-!
Constructions in memory beside the constructions that know no bounds. A counter comes to the same in
both, but in memory it also takes up the bytes of its table: that is where a construction may stop
that would otherwise have a result.
-/

set_option autoImplicit false
set_option relaxedAutoImplicit false

namespace AccessHistory

open Number (maxWord)

variable {w : CellWidth} {α β : Type}

/-! ### Room -/

namespace Memory

theorem maxArrayBytes_le : maxArrayBytes ≤ maxWord := by decide

theorem runIn_take (bytes : Nat) (m : Memory) :
    (take bytes).runIn m =
      if maxArrayBytes < bytes then .error .capacity
      else if m.free < bytes then .error (.memory bytes)
      else .ok (.ok ((), m.less bytes)) := by
  change Building.runIn (if maxArrayBytes < bytes then throwThe Fault .capacity
    else if m.free < bytes then throwThe Fault (.memory bytes) else set (m.less bytes)) m = _
  split
  · rfl
  · split <;> rfl

end Memory

/-! ### Constructions with a known result -/

namespace Building

/-- What is built in some memory, if it has the room. -/
def Yields (x : Building α) (a : α) : Prop := ∃ m m', x.runIn m = .ok (.ok (a, m'))

theorem runIn_bind (x : Building α) (f : α → Building β) (m : Memory) :
    (x >>= f).runIn m =
      match x.runIn m with
      | .ok (.ok (a, m')) => (f a).runIn m'
      | .ok (.error e) => .ok (.error e)
      | .error fault => .error fault := by
  change ((x.run m >>= fun (a, m') => (f a).run m').run : Except Fault _) = _
  unfold runIn
  rw [ExceptT.run_bind]
  cases (x.run m).run with
  | error fault => rfl
  | ok built =>
    cases built with
    | error e => rfl
    | ok built => rfl

/-- A construction of two steps went through both of them. -/
theorem of_runIn_bind {x : Building α} {f : α → Building β} {m m'' : Memory} {b : β}
    (h : (x >>= f).runIn m = .ok (.ok (b, m''))) :
    ∃ a m', x.runIn m = .ok (.ok (a, m')) ∧ (f a).runIn m' = .ok (.ok (b, m'')) := by
  rw [runIn_bind] at h
  split at h
  · next a m' built => exact ⟨a, m', built, h⟩
  · cases h
  · cases h

@[simp]
theorem liftM_ok (a : α) : (liftM (Except.ok a : Except BuildError α) : Building α) = pure a := rfl

/-- What knows no bounds takes up nothing. -/
theorem of_runIn_lift {x : Except BuildError α} {m m' : Memory} {a : α}
    (h : runIn x m = .ok (.ok (a, m'))) : x = .ok a ∧ m' = m := by
  cases x with
  | error e => cases h
  | ok a =>
    cases h
    exact ⟨rfl, rfl⟩

/-- A construction that comes to a known result and takes up its bytes. -/
def holding (x : Except BuildError α) (bytes : α → Nat) : Building α := do
  let a ← x
  Memory.take (bytes a)
  return a

theorem runIn_holding (x : Except BuildError α) (bytes : α → Nat) (m : Memory) :
    (holding x bytes).runIn m =
      match x with
      | .error e => .ok (.error e)
      | .ok a =>
        if Memory.maxArrayBytes < bytes a then .error .capacity
        else if m.free < bytes a then .error (.memory (bytes a))
        else .ok (.ok (a, m.less (bytes a))) := by
  cases x with
  | error e => rfl
  | ok a =>
    change (Memory.take (bytes a) >>= fun _ => pure a).runIn m = _
    rw [runIn_bind, Memory.runIn_take]
    by_cases long : Memory.maxArrayBytes < bytes a
    · simp only [if_pos long]
    · by_cases full : m.free < bytes a
      · simp only [if_neg long, if_pos full]
      · simp only [if_neg long, if_neg full]
        rfl

theorem bind_holding (y : Except BuildError β) (f : β → Except BuildError α) (bytes : α → Nat) :
    (do let b ← y; holding (f b) bytes) = holding (y >>= f) bytes := by
  cases y <;> rfl

theorem map_holding (f : α → β) (x : Except BuildError α) {bytes : α → Nat} {bytes' : β → Nat}
    (same : ∀ a, bytes' (f a) = bytes a) :
    (do return f (← holding x bytes)) = holding (do return f (← x)) bytes' := by
  cases x with
  | error e => rfl
  | ok a =>
    have room := same a
    change ((do Memory.take (bytes a); return a) >>= fun a => (return f a : Building β)) =
      (do Memory.take (bytes' (f a)); return f a)
    rw [room, bind_assoc]
    rfl

/-- Room is taken up beforehand, but only where there will be something to hold. -/
theorem guarded_eq_holding {x : Except BuildError α} {bytes : α → Nat} {p : Prop} [Decidable p]
    {size : Nat} (made : p → ∃ a, x = .ok a ∧ bytes a = size) (refused : ¬ p → ∃ e, x = .error e) :
    (do
      if p then Memory.take size
      x : Building α) = holding x bytes := by
  by_cases h : p
  · obtain ⟨a, rfl, rfl⟩ := made h
    simp only [if_pos h]
    rfl
  · obtain ⟨e, rfl⟩ := refused h
    simp only [if_neg h]
    rfl

end Building

/-! ### Counters -/

/-- Filters of a size in words take up no more than an array can have. -/
theorem Filter.byteSize_le {f : Filter} (word : f.bits.size ≤ maxWord) :
    f.byteSize ≤ Memory.maxArrayBytes := by
  have packed := f.bits.size_words
  have words : maxWord = 18446744073709551615 := rfl
  have limit : Memory.maxArrayBytes = 9223372036854775807 := rfl
  unfold byteSize BitSet.byteSize
  omega

theorem Sketch.allocate_eq (width depth : UInt64) :
    (allocate width depth : Building (Sketch w)) =
      Building.holding (ofShape width.toNat depth.toNat) byteSize := by
  refine Building.guarded_eq_holding ?_ ?_
  · intro addressable
    refine ⟨_, dif_pos addressable, ?_⟩
    simp [byteSize]
  · intro too_many
    exact ⟨_, dif_neg too_many⟩

theorem Sketch.allocateTarget_eq (margin certainty : Float) (maxWidth maxDepth : UInt64) :
    (allocateTarget margin certainty maxWidth maxDepth : Building (Sketch w)) =
      Building.holding (ofTarget margin certainty maxWidth maxDepth) byteSize := by
  simp only [allocateTarget, ofTarget, allocate_eq, Building.bind_holding]

theorem BitSet.allocate_eq (size : UInt64) :
    allocate size = Building.holding (ofSize size.toNat) byteSize := by
  refine Building.guarded_eq_holding ?_ ?_
  · intro some_bit
    refine ⟨_, dif_pos some_bit, ?_⟩
    simp [byteSize, empty]
  · intro no_bit
    exact ⟨_, dif_neg no_bit⟩

theorem Filter.allocate_eq (size probeCount : UInt64) :
    allocate size probeCount =
      Building.holding (ofShape size.toNat probeCount.toNat) byteSize := by
  unfold allocate ofShape
  split
  · rfl
  · rw [BitSet.allocate_eq]
    exact Building.map_holding (Filter.mk · probeCount.toNat) _ fun (bits : BitSet) => rfl

theorem Filter.allocateTarget_eq (items : UInt64) (rate : Float) :
    allocateTarget items rate = Building.holding (ofTarget items rate) byteSize := by
  simp only [allocateTarget, ofTarget, allocate_eq, Building.bind_holding]

namespace Counter

/-- A counter in memory is the counter without bounds, with room for its table. -/
theorem allocate_eq (b : Backend) :
    (allocate b : Building (Counter w)) = Building.holding (ofBackend b) byteSize := by
  cases b with
  | sketch width depth =>
    simp only [allocate, Sketch.allocate_eq]
    exact Building.map_holding sketch _ fun s => rfl
  | sketchTarget margin certainty maxWidth maxDepth =>
    simp only [allocate, Sketch.allocateTarget_eq]
    exact Building.map_holding sketch _ fun s => rfl
  | filter size probeCount =>
    simp only [allocate, Filter.allocate_eq]
    exact Building.map_holding filter _ fun f => rfl
  | filterTarget items rate =>
    simp only [allocate, Filter.allocateTarget_eq]
    exact Building.map_holding filter _ fun f => rfl
  | config c =>
    simp only [allocate, ofBackend, ofConfig, Sketch.allocateTarget_eq, Filter.allocateTarget_eq]
    split
    · rw [← Building.bind_holding]
      congr 1
      funext margin
      exact Building.map_holding sketch _ fun s => rfl
    · exact Building.map_holding filter _ fun f => rfl

theorem allocate_of_ok {b : Backend} {c : Counter w} (h : ofBackend b = .ok c) :
    (allocate b : Building (Counter w)) = do
      Memory.take c.byteSize
      return c := by
  rw [allocate_eq, h]
  rfl

theorem allocate_of_error {b : Backend} {e : BuildError}
    (h : (ofBackend b : Except BuildError (Counter w)) = .error e) :
    (allocate b : Building (Counter w)) = throw e := by
  rw [allocate_eq, h]
  rfl

/-- The table of a counter in memory is no longer than an array can be, and it is what the counter
takes up. -/
theorem of_allocate {b : Backend} {m m' : Memory} {c : Counter w}
    (h : (allocate b).runIn m = .ok (.ok (c, m'))) :
    ofBackend b = .ok c ∧ c.byteSize ≤ Memory.maxArrayBytes ∧ c.byteSize + m'.free = m.free := by
  rw [allocate_eq, Building.runIn_holding] at h
  split at h
  · cases h
  · next described =>
    split at h
    · cases h
    · next short =>
      split at h
      · cases h
      · next room =>
        cases h
        refine ⟨described, Nat.le_of_not_lt short, ?_⟩
        change _ + (m.free - _) = m.free
        omega

/-- A counter that is described can be built, in some memory, if its table can be an array. -/
theorem yields_iff {b : Backend} {c : Counter w} :
    (allocate b).Yields c ↔ ofBackend b = .ok c ∧ c.byteSize ≤ Memory.maxArrayBytes := by
  constructor
  · rintro ⟨m, m', built⟩
    obtain ⟨described, array, -⟩ := of_allocate built
    exact ⟨described, array⟩
  · rintro ⟨described, array⟩
    have room : c.byteSize ≤ Memory.whole.free := Nat.le_trans array Memory.maxArrayBytes_le
    refine ⟨.whole, Memory.whole.less c.byteSize, ?_⟩
    rw [allocate_eq, described, Building.runIn_holding]
    simp only [if_neg (Nat.not_lt.mpr array), if_neg (Nat.not_lt.mpr room)]

/-- Where the construction stops because a table is too long, it would have a result without
bounds. -/
theorem allocate_eq_capacity_iff (b : Backend) (m : Memory) :
    (allocate b : Building (Counter w)).runIn m = .error .capacity ↔
      ∃ counter : Counter w, ofBackend b = .ok counter ∧
        Memory.maxArrayBytes < counter.byteSize := by
  rw [allocate_eq, Building.runIn_holding]
  cases (ofBackend b : Except BuildError (Counter w)) with
  | error e => simp
  | ok counter =>
    dsimp only
    split
    · next long => simp [long]
    · next short => split <;> simp [short]

end Counter

end AccessHistory
