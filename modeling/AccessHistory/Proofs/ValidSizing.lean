import AccessHistory.Proofs.AllocatedCounters
import AccessHistory.Proofs.NormalDoubles
import Mathlib.Tactic.SplitIfs

/-!
The check of a config against the sizing of its counters. Both look at the same settings, in their
own order and their own words. A config that passes the check may still ask for a counter that is
too small or too large, and nothing else can be wrong with it. That a table is too large is noticed
by counting its cells. Where these can be counted but their bytes are more than an array can have,
the construction stops instead of being refused.
-/

set_option autoImplicit false
set_option relaxedAutoImplicit false

namespace AccessHistory

open Number (maxWord)

variable {w : CellWidth}

/-! ### What the check asks for -/

/-- Settings for counters of a kind that make sense as such. -/
def Config.HasTargets (c : Config) : CounterKind → Prop
  | .sketch => c.maxErrorValue ≠ 0 ∧ Sizing.IsProportion c.certainty
  | .filter => Sizing.IsProportion c.falsePositiveRate

theorem Config.validate_eq_ok_iff (c : Config) :
    c.validate = .ok () ↔
      c.bucketCount ≠ 0 ∧ c.ticksPerBucket ≠ 0 ∧ c.maxOps ≠ 0 ∧ c.HasTargets c.kind := by
  by_cases counts : c.countsAccesses = true
  · have kind : c.kind = .sketch := if_pos counts
    rw [validate, if_pos counts, kind]
    split_ifs <;> simp_all [HasTargets]
  · have kind : c.kind = .filter := if_neg counts
    rw [validate, if_neg counts, kind]
    split_ifs <;> simp_all [HasTargets]

/-! ### Sizes of sketches -/

namespace Sizing

/-- Two words make an error margin exactly if neither is zero: their quotient neither vanishes nor
overflows. -/
theorem errorMargin_eq_ok_iff (maxErrorValue maxOps : UInt64) :
    (∃ margin, errorMargin maxErrorValue maxOps = .ok margin) ↔
      maxErrorValue ≠ 0 ∧ maxOps ≠ 0 := by
  by_cases some_op : maxOps = 0
  · simp [errorMargin, some_op]
  · have divisor := Number.isNormal_toFloat some_op
    by_cases some_error : maxErrorValue = 0
    · have vanishes : ¬ IsMargin ((0 : UInt64).toFloat / maxOps.toFloat) :=
        fun margin => Number.not_pos_zero_div divisor margin.1
      simp [errorMargin, some_op, some_error, vanishes]
    · have margin : IsMargin (maxErrorValue.toFloat / maxOps.toFloat) :=
        (Number.isNormal_div (Number.isNormal_toFloat some_error) divisor (by decide)
          (by decide)).isMargin
      simp [errorMargin, some_op, some_error, margin]

theorem isMargin_of_errorMargin {maxErrorValue maxOps : UInt64} {margin : Float}
    (h : errorMargin maxErrorValue maxOps = .ok margin) : IsMargin margin := by
  simp only [errorMargin] at h
  split_ifs at h with no_op positive
  cases h
  exact positive

theorem eq_sketchShape_of_rowWidth {margin : Float} (positive : IsMargin margin) {cap : UInt64}
    {e : BuildError} (h : rowWidth margin cap = .error e) :
    ∃ width depth, e = .sketchShape width depth := by
  rw [rowWidth, if_neg (not_not_intro positive)] at h
  dsimp only at h
  split_ifs at h <;> cases h <;> exact ⟨_, _, rfl⟩

theorem rowCount_eq_ok_iff (certainty : Float) (cap : UInt64) :
    (∃ rows, rowCount certainty cap = .ok rows) ↔ IsProportion certainty := by
  by_cases proportion : IsProportion certainty <;> simp [rowCount, proportion]

/-! ### Sizes of filters -/

/-- A filter that is not too large has at least the fewest bits. -/
theorem of_filterBits {items bits : UInt64} {rate : Float} (h : filterBits items rate = .ok bits) :
    items ≠ 0 ∧ IsProportion rate ∧ minFilterBits ≤ bits := by
  simp only [filterBits] at h
  split_ifs at h with some_item proportion
  cases h
  refine ⟨some_item, proportion, ?_⟩
  rw [UInt64.le_iff_toNat_le, Number.toNat_max]
  omega

theorem eq_filterSize_of_filterBits {items : UInt64} {rate : Float} (some_item : items ≠ 0)
    (proportion : IsProportion rate) {e : BuildError} (h : filterBits items rate = .error e) :
    e = .filterSize maxWord := by
  rw [filterBits, if_neg some_item, if_neg (not_not_intro proportion)] at h
  dsimp only at h
  split_ifs at h
  cases h
  rfl

/-- Some bits for some keys always have a best probe count, and filters can have it. -/
theorem exists_probeCount {bits items : UInt64} (some_bit : bits ≠ 0) (some_item : items ≠ 0) :
    ∃ probes, probeCount bits items = .ok probes ∧ Filter.minProbes ≤ probes.toNat ∧
      probes.toNat ≤ Filter.maxProbes := by
  have fewest : Filter.minProbes.toUInt64.toNat = Filter.minProbes := rfl
  have most : Filter.maxProbes.toUInt64.toNat = Filter.maxProbes := rfl
  have ordered : Filter.minProbes ≤ Filter.maxProbes := by decide
  rw [probeCount, if_neg some_bit, if_neg some_item]
  refine ⟨_, rfl, ?_⟩
  rw [Number.toNat_min, Number.toNat_max, fewest, most]
  omega

end Sizing

/-! ### Counters -/

/-- The error of a counter of a kind that is too small or too large. -/
def BuildError.IsOfSize (e : BuildError) : CounterKind → Prop
  | .sketch => ∃ width depth, e = .sketchShape width depth
  | .filter => ∃ bits, e = .filterSize bits

theorem Sketch.eq_sketchShape_of_ofShape {width depth : Nat} {e : BuildError}
    (h : (ofShape width depth : Except BuildError (Sketch w)) = .error e) :
    e = .sketchShape width depth := by
  simp only [ofShape] at h
  split_ifs at h
  cases h
  rfl

theorem Sketch.isOfSize_of_ofTarget {margin certainty : Float} {maxWidth maxDepth : UInt64}
    (positive : Sizing.IsMargin margin) (proportion : Sizing.IsProportion certainty)
    {e : BuildError}
    (h : (ofTarget margin certainty maxWidth maxDepth : Except BuildError (Sketch w)) = .error e) :
    e.IsOfSize .sketch := by
  rcases bind_eq_error h with failed | ⟨width, -, h⟩
  · exact Sizing.eq_sketchShape_of_rowWidth positive failed
  · rcases bind_eq_error h with failed | ⟨depth, -, h⟩
    · obtain ⟨rows, counted⟩ := (Sizing.rowCount_eq_ok_iff certainty maxDepth).mpr proportion
      rw [counted] at failed
      cases failed
    · exact ⟨_, _, eq_sketchShape_of_ofShape h⟩

theorem Filter.exists_ofShape {size probes : Nat} (some_bit : 0 < size)
    (least : minProbes ≤ probes) (most : probes ≤ maxProbes) :
    ∃ f, ofShape size probes = .ok f := by
  have in_range : ¬ (probes < minProbes ∨ maxProbes < probes) := by omega
  rw [ofShape, if_neg in_range, BitSet.ofSize, dif_pos some_bit]
  exact ⟨_, rfl⟩

theorem Filter.isOfSize_of_ofTarget {items : UInt64} {rate : Float} (some_item : items ≠ 0)
    (proportion : Sizing.IsProportion rate) {e : BuildError} (h : ofTarget items rate = .error e) :
    e.IsOfSize .filter := by
  rcases bind_eq_error h with failed | ⟨bits, sized, h⟩
  · exact ⟨_, Sizing.eq_filterSize_of_filterBits some_item proportion failed⟩
  · -- With its bits, a filter has all that it needs.
    obtain ⟨-, -, enough⟩ := Sizing.of_filterBits sized
    have fewest : Sizing.minFilterBits.toNat = 8 := rfl
    rw [UInt64.le_iff_toNat_le, fewest] at enough
    have some_bit : bits ≠ 0 := by
      rintro rfl
      simp at enough
    obtain ⟨probes, probed, least, most⟩ := Sizing.exists_probeCount some_bit some_item
    obtain ⟨f, built⟩ := exists_ofShape (show 0 < bits.toNat by omega) least most
    rcases bind_eq_error h with failed | ⟨probes', probed', h⟩
    · rw [probed] at failed
      cases failed
    · rw [probed] at probed'
      cases probed'
      rw [built] at h
      cases h

namespace Counter

/-- Sizing a counter needs what the check of the config asks for. -/
theorem hasTargets_of_ofConfig {c : Config} {counter : Counter w} (h : ofConfig c = .ok counter) :
    c.maxOps ≠ 0 ∧ c.HasTargets c.kind := by
  by_cases counts : c.countsAccesses = true
  · have kind : c.kind = .sketch := if_pos counts
    rw [ofConfig, if_pos counts] at h
    obtain ⟨margin, divided, h⟩ := bind_eq_ok h
    obtain ⟨s, built, -⟩ := bind_eq_ok h
    obtain ⟨width, -, built⟩ := bind_eq_ok built
    obtain ⟨depth, counted, -⟩ := bind_eq_ok built
    obtain ⟨some_error, some_op⟩ := (Sizing.errorMargin_eq_ok_iff _ _).mp ⟨margin, divided⟩
    rw [kind]
    exact ⟨some_op, some_error, (Sizing.rowCount_eq_ok_iff _ _).mp ⟨depth, counted⟩⟩
  · have kind : c.kind = .filter := if_neg counts
    rw [ofConfig, if_neg counts] at h
    obtain ⟨f, built, -⟩ := bind_eq_ok h
    obtain ⟨bits, sized, -⟩ := bind_eq_ok built
    obtain ⟨some_op, proportion, -⟩ := Sizing.of_filterBits sized
    rw [kind]
    exact ⟨some_op, proportion⟩

theorem isOfSize_of_ofConfig {c : Config} (some_op : c.maxOps ≠ 0) (targets : c.HasTargets c.kind)
    {e : BuildError} (h : (ofConfig c : Except BuildError (Counter w)) = .error e) :
    e.IsOfSize c.kind := by
  by_cases counts : c.countsAccesses = true
  · have kind : c.kind = .sketch := if_pos counts
    rw [kind] at targets ⊢
    obtain ⟨some_error, proportion⟩ := targets
    obtain ⟨margin, divided⟩ := (Sizing.errorMargin_eq_ok_iff _ _).mpr ⟨some_error, some_op⟩
    rw [ofConfig_of_margin counts divided] at h
    have positive := Sizing.isMargin_of_errorMargin divided
    cases built : (Sketch.ofTarget margin c.certainty c.maxWidth c.maxDepth :
        Except BuildError (Sketch w)) with
    | error cause =>
      rw [built] at h
      cases h
      exact Sketch.isOfSize_of_ofTarget positive proportion built
    | ok s =>
      rw [built] at h
      cases h
  · have kind : c.kind = .filter := if_neg counts
    rw [kind] at targets ⊢
    rw [ofConfig, if_neg counts] at h
    rcases bind_eq_error h with failed | ⟨f, -, h⟩
    · exact Filter.isOfSize_of_ofTarget some_op targets failed
    · cases h

end Counter

/-! ### Tables that are too long -/

/-- The row width and the row count that the formulas give for a config. -/
def Config.AsksFor (c : Config) (width depth : UInt64) : Prop :=
  ∃ margin, Sizing.errorMargin c.maxErrorValue c.maxOps = .ok margin ∧
    Sizing.rowWidth margin c.maxWidth = .ok width ∧
    Sizing.rowCount c.certainty c.maxDepth = .ok depth

namespace Counter

theorem ofConfig_eq_sketch_iff {c : Config} {s : Sketch w} :
    ofConfig c = .ok (sketch s) ↔ c.countsAccesses = true ∧
      ∃ width depth, c.AsksFor width depth ∧ Sketch.ofShape width.toNat depth.toNat = .ok s := by
  constructor
  · intro h
    by_cases counts : c.countsAccesses = true
    · rw [ofConfig, if_pos counts] at h
      obtain ⟨margin, divided, h⟩ := bind_eq_ok h
      obtain ⟨s', built, h⟩ := bind_eq_ok h
      obtain ⟨width, wide, built⟩ := bind_eq_ok built
      obtain ⟨depth, counted, built⟩ := bind_eq_ok built
      cases h
      exact ⟨counts, width, depth, ⟨margin, divided, wide, counted⟩, built⟩
    · rw [ofConfig, if_neg counts] at h
      obtain ⟨f, -, h⟩ := bind_eq_ok h
      cases h
  · rintro ⟨counts, width, depth, ⟨margin, divided, wide, counted⟩, built⟩
    have sized : Sketch.ofTarget margin c.certainty c.maxWidth c.maxDepth = .ok s := by
      rw [Sketch.ofTarget, wide]
      change (Sizing.rowCount c.certainty c.maxDepth >>= _) = _
      rw [counted]
      exact built
    rw [ofConfig_of_margin counts divided, sized]
    rfl

theorem size_le_of_ofConfig {c : Config} {f : Filter}
    (h : (ofConfig c : Except BuildError (Counter w)) = .ok (filter f)) :
    f.bits.size ≤ maxWord := by
  by_cases counts : c.countsAccesses = true
  · rw [ofConfig, if_pos counts] at h
    obtain ⟨margin, -, h⟩ := bind_eq_ok h
    obtain ⟨s, -, h⟩ := bind_eq_ok h
    cases h
  · rw [ofConfig, if_neg counts] at h
    obtain ⟨f', built, h⟩ := bind_eq_ok h
    cases h
    obtain ⟨bits, -, built⟩ := bind_eq_ok built
    obtain ⟨probes, -, built⟩ := bind_eq_ok built
    obtain ⟨⟨some_bit, empty⟩, -⟩ := Filter.of_ofShape built
    rw [empty]
    exact Nat.le_of_lt_succ bits.toNat_lt

theorem allocate_config_eq_capacity_iff (c : Config) (m : Memory) :
    (allocate (.config c) : Building (Counter w)).runIn m = .error .capacity ↔
      c.countsAccesses = true ∧ ∃ width depth, c.AsksFor width depth ∧
        width.toNat * depth.toNat ≤ maxWord ∧
        Memory.maxArrayBytes < width.toNat * depth.toNat * w.bytes := by
  rw [allocate_eq_capacity_iff]
  constructor
  · rintro ⟨counter, sized, long⟩
    cases counter with
    | sketch s =>
      obtain ⟨counts, width, depth, asked, built⟩ := ofConfig_eq_sketch_iff.mp sized
      obtain ⟨wide, deep⟩ := Sketch.shape_of_ofShape built
      have countable := s.cells_le
      change _ < s.table.size * w.bytes at long
      rw [s.size_table, wide, deep] at long
      rw [wide, deep] at countable
      exact ⟨counts, width, depth, asked, countable, long⟩
    | filter f =>
      have short : f.byteSize ≤ Memory.maxArrayBytes := Filter.byteSize_le (size_le_of_ofConfig sized)
      exact absurd long (Nat.not_lt.mpr short)
  · rintro ⟨counts, width, depth, asked, countable, long⟩
    have some_cell : 0 < width.toNat * depth.toNat := by
      apply Nat.pos_of_ne_zero
      intro no_cell
      rw [no_cell, Nat.zero_mul] at long
      exact absurd long (Nat.not_lt_zero _)
    refine ⟨_, ofConfig_eq_sketch_iff.mpr ⟨counts, width, depth, asked,
      dif_pos ⟨some_cell, countable⟩⟩, ?_⟩
    change _ < (Array.replicate _ _).size * w.bytes
    rwa [Array.size_replicate]

end Counter

/-- A config for some buckets of some ticks passes its check if its counters can be built. If it
passes, then they are built in any memory, or refused for their size alone, unless the construction
stops: for want of memory, or because a table is too long. The latter is a gap between the check and
the construction. It is exactly where the cells of a table can be counted in a word, but have more
bytes than an array, and only in sketches. -/
theorem allocate_of_validate (c : Config) (some_bucket : c.bucketCount ≠ 0)
    (some_tick : c.ticksPerBucket ≠ 0) :
    (∀ counter : Counter w, (Counter.allocate (.config c)).Yields counter → c.validate = .ok ()) ∧
    (c.validate = .ok () → ∀ m : Memory,
      (∃ (counter : Counter w) (m' : Memory),
        (Counter.allocate (.config c)).runIn m = .ok (.ok (counter, m'))) ∨
      (∃ e : BuildError,
        (Counter.allocate (.config c) : Building (Counter w)).runIn m = .ok (.error e) ∧
          e.IsOfSize c.kind) ∨
      (Counter.allocate (.config c) : Building (Counter w)).runIn m = .error .capacity ∨
      ∃ bytes, (Counter.allocate (.config c) : Building (Counter w)).runIn m =
        .error (.memory bytes) ∧ m.free < bytes ∧ bytes ≤ Memory.maxArrayBytes) ∧
    ∀ m : Memory,
      (Counter.allocate (.config c) : Building (Counter w)).runIn m = .error .capacity ↔
        c.countsAccesses = true ∧ ∃ width depth, c.AsksFor width depth ∧
          width.toNat * depth.toNat ≤ maxWord ∧
          Memory.maxArrayBytes < width.toNat * depth.toNat * w.bytes := by
  rw [c.validate_eq_ok_iff]
  refine ⟨?_, ?_, Counter.allocate_config_eq_capacity_iff c⟩
  · rintro counter ⟨m, m', built⟩
    obtain ⟨sized, -, -⟩ := Counter.of_allocate built
    exact ⟨some_bucket, some_tick, Counter.hasTargets_of_ofConfig sized⟩
  · rintro ⟨-, -, some_op, targets⟩ m
    rw [Counter.allocate_eq, Building.runIn_holding]
    cases sized : (Counter.ofBackend (.config c) : Except BuildError (Counter w)) with
    | error e => exact .inr (.inl ⟨e, rfl, Counter.isOfSize_of_ofConfig some_op targets sized⟩)
    | ok counter =>
      dsimp only
      split
      · exact .inr (.inr (.inl rfl))
      · next short =>
        split
        · next full => exact .inr (.inr (.inr ⟨_, rfl, full, Nat.le_of_not_lt short⟩))
        · exact .inl ⟨_, _, rfl⟩

/-- Filters for a single key. -/
def Config.oneKey : Config := { oneRow 2 with countsAccesses := false }

theorem Config.validate_oneKey : oneKey.validate = .ok () := by
  have proportion : Sizing.IsProportion 0.02 := by decide +kernel
  rw [validate_eq_ok_iff]
  exact ⟨by decide, by decide, by decide, proportion⟩

/-- A row for so many records, each of which may be missed by one, that only its cells can be
counted. -/
def Config.vast : Config where
  bucketCount := 3
  maxOps := 4611686018427387904
  certainty := 0.5
  maxWidth := 0
  maxDepth := 1

theorem Config.validate_vast : vast.validate = .ok () := by
  have proportion : Sizing.IsProportion 0.5 := by decide +kernel
  rw [validate_eq_ok_iff]
  exact ⟨by decide, by decide, by decide, by decide, proportion⟩

theorem Config.asksFor_vast : vast.AsksFor 9223372036854775808 1 :=
  ⟨_, rfl, by rfl, Sizing.rowCount_of_cap_one (by decide +kernel)⟩

/-- One row in memory passes, and one that would be too short is refused. A filter for one key is
built or refused where every address is free. The cells of the vast row have one byte too many where
they have one each, and all the more where they have four. -/
theorem allocate_of_validate_vast :
    (∃ counter : Counter .bits8, (Counter.allocate (.config (.oneRow 2))).Yields counter) ∧
    (Config.oneRow 2).validate = .ok () ∧
    (∃ width depth, (Counter.allocate (.config .coarse) : Building (Counter .bits8)).runIn .whole =
      .ok (.error (.sketchShape width depth))) ∧
    ((∃ (counter : Counter .bits8) (m : Memory),
        (Counter.allocate (.config .oneKey)).runIn .whole = .ok (.ok (counter, m))) ∨
      ∃ bits, (Counter.allocate (.config .oneKey) : Building (Counter .bits8)).runIn .whole =
        .ok (.error (.filterSize bits))) ∧
    Config.vast.validate = .ok () ∧
    (Counter.allocate (.config .vast) : Building (Counter .bits8)).runIn .whole =
      .error .capacity ∧
    (Counter.allocate (.config .vast) : Building (Counter .bits32)).runIn .whole =
      .error .capacity := by
  have row : (Counter.ofBackend (.config (.oneRow 2)) : Except BuildError (Counter .bits8)) =
      (Sketch.ofShape 2 1).map .sketch := Counter.ofConfig_oneRow 2
  have built := Counter.yields_iff.mpr ⟨row, by decide⟩
  refine ⟨⟨_, built⟩, ?_, ?_, ?_, Config.validate_vast, ?_, ?_⟩
  · exact (allocate_of_validate (.oneRow 2) (by decide) (by decide)).1 _ built
  · have refused : (Counter.allocate (.config .coarse) : Building (Counter .bits8)) =
        throw (.sketchShape 0 0) := Counter.allocate_of_error Counter.ofConfig_coarse
    rcases (allocate_of_validate (w := .bits8) .coarse (by decide) (by decide)).2.1
      Config.validate_coarse .whole with
      ⟨counter, m, built⟩ | ⟨e, failed, width, depth, rfl⟩ | stopped | ⟨bytes, stopped, -⟩
    · rw [refused] at built
      cases built
    · exact ⟨width, depth, failed⟩
    · rw [refused] at stopped
      cases stopped
    · rw [refused] at stopped
      cases stopped
  · obtain ⟨-, passes, stops⟩ :=
      allocate_of_validate (w := .bits8) .oneKey (by decide) (by decide)
    rcases passes Config.validate_oneKey .whole with
      built | ⟨e, failed, bits, rfl⟩ | stopped | ⟨bytes, -, full, short⟩
    · exact .inl built
    · exact .inr ⟨bits, failed⟩
    · cases ((stops .whole).mp stopped).1
    · exact absurd (Nat.le_trans short Memory.maxArrayBytes_le) (Nat.not_le.mpr full)
  · obtain ⟨-, -, stops⟩ := allocate_of_validate (w := .bits8) .vast (by decide) (by decide)
    exact (stops .whole).mpr ⟨rfl, _, _, Config.asksFor_vast, by decide, by decide⟩
  · obtain ⟨-, -, stops⟩ := allocate_of_validate (w := .bits32) .vast (by decide) (by decide)
    exact (stops .whole).mpr ⟨rfl, _, _, Config.asksFor_vast, by decide, by decide⟩

end AccessHistory
