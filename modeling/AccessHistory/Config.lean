import AccessHistory.Environment
import AccessHistory.Sizing

/-!
The settings of a tracker, their defaults, and the conditions they must meet.
-/

set_option autoImplicit false
set_option relaxedAutoImplicit false

namespace AccessHistory

/-- What a tracker is built from. Caps of zero are no caps. -/
structure Config where
  bucketCount : UInt64 := 0
  ticksPerBucket : UInt64 := 3600
  source : TickSource := .clock
  /-- Count accesses with sketches, or only note them in filters. -/
  countsAccesses : Bool := true
  maxOps : UInt64 := 1000000
  maxErrorValue : UInt64 := 1
  certainty : Float := 0.99
  maxWidth : UInt64 := 8000000
  maxDepth : UInt64 := 8
  falsePositiveRate : Float := 0.02

namespace Config

instance : Inhabited Config := ⟨{}⟩

def kind (c : Config) : CounterKind :=
  if c.countsAccesses then .sketch else .filter

/-- Checks the settings in a fixed order; those of the other kind of counter are not looked at. -/
def validate (c : Config) : Except BuildError Unit :=
  if c.bucketCount = 0 then .error (.bucketCount 0)
  else if c.ticksPerBucket = 0 then .error (.tickSpan 0)
  else if c.maxOps = 0 then .error (.itemCount 0)
  else if c.countsAccesses then
    if c.maxErrorValue = 0 then .error (.errorMargin 0)
    else if ¬ Sizing.IsProportion c.certainty then .error (.certainty c.certainty)
    else .ok ()
  else if ¬ Sizing.IsProportion c.falsePositiveRate then
    .error (.falsePositiveRate c.falsePositiveRate)
  else .ok ()

/-- The settings by name; the ticker shows its state in the environment. -/
def outline (env : Environment) (c : Config) : Text.Outline :=
  let float := fun (x : Float) => Text.Outline.word (Decimal.Layout.exact.write x)
  .record "AccessTrackerConfig" [
    ("num_buckets", .ofNat c.bucketCount.toNat),
    ("num_ticks_per_bucket", .ofNat c.ticksPerBucket.toNat),
    ("ticker", env.outlineTicker c.source),
    ("use_counts", .ofBool c.countsAccesses),
    ("max_num_ops_per_bucket", .ofNat c.maxOps.toNat),
    ("cms_max_error_value", .ofNat c.maxErrorValue.toNat),
    ("cms_error_certainty", float c.certainty),
    ("cms_max_width", .ofNat c.maxWidth.toNat),
    ("cms_max_depth", .ofNat c.maxDepth.toNat),
    ("bf_false_positive_rate", float c.falsePositiveRate)]

end Config

end AccessHistory
