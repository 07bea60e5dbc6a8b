import AccessHistory.Config
import AccessHistory.Filter
import AccessHistory.Sketch

/-!
Counters of either kind behind one face, and their sizes by the formulas.
-/

set_option autoImplicit false
set_option relaxedAutoImplicit false

namespace AccessHistory

/-- A sketch for an error margin and a certainty, with caps on its dimensions. -/
def Sketch.ofTarget {w : CellWidth} (margin certainty : Float) (maxWidth maxDepth : UInt64) :
    Except BuildError (Sketch w) := do
  let width ← Sizing.rowWidth margin maxWidth
  let depth ← Sizing.rowCount certainty maxDepth
  Sketch.ofShape width.toNat depth.toNat

def Sketch.allocateTarget {w : CellWidth} (margin certainty : Float) (maxWidth maxDepth : UInt64) :
    Building (Sketch w) := do
  let width ← Sizing.rowWidth margin maxWidth
  let depth ← Sizing.rowCount certainty maxDepth
  Sketch.allocate width depth

/-- A filter for a number of keys and a false positive rate. -/
def Filter.ofTarget (items : UInt64) (rate : Float) : Except BuildError Filter := do
  let bits ← Sizing.filterBits items rate
  let probeCount ← Sizing.probeCount bits items
  Filter.ofShape bits.toNat probeCount.toNat

def Filter.allocateTarget (items : UInt64) (rate : Float) : Building Filter := do
  let bits ← Sizing.filterBits items rate
  let probeCount ← Sizing.probeCount bits items
  Filter.allocate bits probeCount

/-- What a counter can be built from: its shape, a target for its errors, or a config. -/
inductive Backend where
  | sketch (width depth : UInt64)
  | sketchTarget (margin certainty : Float) (maxWidth maxDepth : UInt64)
  | filter (size probeCount : UInt64)
  | filterTarget (items : UInt64) (rate : Float)
  | config (c : Config)

/-- What a bucket counts with. -/
inductive Counter (w : CellWidth) where
  | sketch (s : Sketch w)
  | filter (f : Filter)

namespace Counter

variable {w : CellWidth}

def ofConfig (c : Config) : Except BuildError (Counter w) :=
  if c.countsAccesses then do
    let margin ← Sizing.errorMargin c.maxErrorValue c.maxOps
    let s ← Sketch.ofTarget margin c.certainty c.maxWidth c.maxDepth
    .ok (sketch s)
  else do
    let f ← Filter.ofTarget c.maxOps c.falsePositiveRate
    .ok (filter f)

/-- The counter that a backend describes, in a memory without bounds. -/
def ofBackend : Backend → Except BuildError (Counter w)
  | .sketch width depth => return sketch (← Sketch.ofShape width.toNat depth.toNat)
  | .sketchTarget margin certainty maxWidth maxDepth =>
    return sketch (← Sketch.ofTarget margin certainty maxWidth maxDepth)
  | .filter size probeCount => return filter (← Filter.ofShape size.toNat probeCount.toNat)
  | .filterTarget items rate => return filter (← Filter.ofTarget items rate)
  | .config c => ofConfig c

def allocate : Backend → Building (Counter w)
  | .sketch width depth => return sketch (← Sketch.allocate width depth)
  | .sketchTarget margin certainty maxWidth maxDepth =>
    return sketch (← Sketch.allocateTarget margin certainty maxWidth maxDepth)
  | .filter size probeCount => return filter (← Filter.allocate size probeCount)
  | .filterTarget items rate => return filter (← Filter.allocateTarget items rate)
  | .config c =>
    if c.countsAccesses then do
      let margin ← Sizing.errorMargin c.maxErrorValue c.maxOps
      return sketch (← Sketch.allocateTarget margin c.certainty c.maxWidth c.maxDepth)
    else return filter (← Filter.allocateTarget c.maxOps c.falsePositiveRate)

def kind : Counter w → CounterKind
  | sketch _ => .sketch
  | filter _ => .filter

def record (c : Counter w) (hash : UInt64) : Counter w :=
  match c with
  | sketch s => sketch (s.record hash)
  | filter f => filter (f.record hash)

/-- The estimate of a key: how often, or whether, it was recorded. -/
def estimate (c : Counter w) (hash : UInt64) : Nat :=
  match c with
  | sketch s => s.estimate hash
  | filter f => f.estimate hash

def reset (c : Counter w) : Counter w :=
  match c with
  | sketch s => sketch s.reset
  | filter f => filter f.reset

def byteSize (c : Counter w) : Nat :=
  match c with
  | sketch s => s.byteSize
  | filter f => f.byteSize

def outline (c : Counter w) : Text.Outline :=
  match c with
  | sketch s => .tagged CounterKind.sketch.word s.outline
  | filter f => .tagged CounterKind.filter.word f.outline

end Counter

end AccessHistory
