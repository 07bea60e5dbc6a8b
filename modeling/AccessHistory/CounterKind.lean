/-!
The two kinds of approximate counters.
-/

set_option autoImplicit false
set_option relaxedAutoImplicit false

namespace AccessHistory

/-- What a bucket counts with. -/
inductive CounterKind where
  /-- Estimates how often a key was recorded. -/
  | sketch
  /-- Tells whether a key was recorded. -/
  | filter
  deriving DecidableEq, Inhabited

namespace CounterKind

/-- The word that stands for the kind in documents and outlines. -/
def word : CounterKind → String
  | sketch => "Sketch"
  | filter => "Filter"

/-- The usual name of the structure. -/
def title : CounterKind → String
  | sketch => "count-min sketch"
  | filter => "bloom filter"

end CounterKind

end AccessHistory
