import AccessHistory.Config

/-!
Settings one at a time. A list of settings describes a config: each setting has the value that was
given last, and those not given keep their defaults.
-/

set_option autoImplicit false
set_option relaxedAutoImplicit false

namespace AccessHistory

inductive Setting where
  | bucketCount (count : UInt64)
  | ticksPerBucket (ticks : UInt64)
  | source (source : TickSource)
  | countAccesses (counts : Bool)
  | maxOps (ops : UInt64)
  | maxErrorValue (value : UInt64)
  | certainty (level : Float)
  | maxSketchShape (width depth : UInt64)
  | falsePositiveRate (rate : Float)

namespace Config

def apply (c : Config) : Setting → Config
  | .bucketCount count => { c with bucketCount := count }
  | .ticksPerBucket ticks => { c with ticksPerBucket := ticks }
  | .source source => { c with source }
  | .countAccesses counts => { c with countsAccesses := counts }
  | .maxOps ops => { c with maxOps := ops }
  | .maxErrorValue value => { c with maxErrorValue := value }
  | .certainty level => { c with certainty := level }
  | .maxSketchShape width depth => { c with maxWidth := width, maxDepth := depth }
  | .falsePositiveRate rate => { c with falsePositiveRate := rate }

def ofSettings (settings : List Setting) : Config := settings.foldl apply {}

/-- The config that a list of settings describes, if it is valid. -/
def ofSettings? (settings : List Setting) : Except BuildError Config :=
  let c := ofSettings settings
  c.validate.map fun _ => c

end Config

end AccessHistory
