import AccessHistory.Decimal.Layout
import AccessHistory.Text.Outline

/-!
What can go wrong. A build error says which precondition a setting broke; a fault is a call that
has no answer at all. Each has its wording in one place.
-/

set_option autoImplicit false
set_option relaxedAutoImplicit false

namespace AccessHistory

/-- Why a tracker, or a part of it, cannot be built. -/
inductive BuildError where
  /-- Parameters that no other cause describes. -/
  | parameters (reason : String)
  | bucketCount (count : Nat)
  | tickSpan (ticks : Nat)
  | itemCount (count : Nat)
  | errorMargin (margin : Float)
  | certainty (level : Float)
  | falsePositiveRate (rate : Float)
  | sketchShape (width depth : Nat)
  | filterSize (bits : Nat)
  deriving BEq, Inhabited

namespace BuildError

open Decimal (Layout)
open Text (Outline)

def message : BuildError → String
  | .parameters reason => "Invalid access tracker parameters: " ++ reason ++ "."
  | .bucketCount count =>
    "Invalid bucket count: " ++ toString count ++ ". The ring needs at least one bucket."
  | .tickSpan ticks =>
    "Invalid tick span: " ++ toString ticks ++ ". Each bucket must span at least one tick."
  | .itemCount count =>
    "Invalid item count: " ++ toString count ++
      ". Expected operations per bucket must be greater than 0."
  | .errorMargin margin =>
    "Sketch error margin " ++ Layout.plain.write margin ++
      " is invalid. Must be finite and greater than 0."
  | .certainty level =>
    "Sketch certainty " ++ Layout.plain.write level ++
      " is out of bounds. Must be in range (0, 1)."
  | .falsePositiveRate rate =>
    "False positive rate " ++ Layout.plain.write rate ++
      " is out of bounds. Must be in range (0, 1)."
  | .sketchShape width depth =>
    "Invalid sketch dimensions: width " ++ toString width ++ " x depth " ++ toString depth ++
      ". Both must be positive."
  | .filterSize bits =>
    "Invalid filter size: " ++ toString bits ++
      " bits. Must be positive and within memory limits."

def name : BuildError → String
  | .parameters _ => "InvalidParameters"
  | .bucketCount _ => "InvalidBucketCount"
  | .tickSpan _ => "InvalidTickSpan"
  | .itemCount _ => "InvalidItemCount"
  | .errorMargin _ => "InvalidErrorMargin"
  | .certainty _ => "CertaintyOutOfBounds"
  | .falsePositiveRate _ => "FalsePositiveRateOutOfBounds"
  | .sketchShape _ _ => "InvalidSketchDimensions"
  | .filterSize _ => "InvalidFilterSize"

/-- The named values that an error carries. -/
def parts : BuildError → List (String × Outline)
  | .parameters reason => [("message", .quoted reason)]
  | .bucketCount count => [("count", .ofNat count)]
  | .tickSpan ticks => [("ticks", .ofNat ticks)]
  | .itemCount count => [("count", .ofNat count)]
  | .errorMargin margin => [("margin", .word (Layout.exact.write margin))]
  | .certainty level => [("certainty", .word (Layout.exact.write level))]
  | .falsePositiveRate rate => [("fp_rate", .word (Layout.exact.write rate))]
  | .sketchShape width depth => [("width", .ofNat width), ("depth", .ofNat depth)]
  | .filterSize bits => [("size", .ofNat bits)]

def outline (e : BuildError) : Outline := .record e.name e.parts

end BuildError

/-- A call that has no answer. -/
inductive Fault where
  | zeroDivisor
  | bitOutOfRange (index size : Nat)
  /-- An array larger than any array can be. -/
  | capacity
  /-- An array for which too little memory is free. -/
  | memory (bytes : Nat)
  deriving DecidableEq, Inhabited

def Fault.message : Fault → String
  | .zeroDivisor => "attempt to calculate the remainder with a divisor of zero"
  | .bitOutOfRange index size =>
    "BitVec index out of bounds: index=" ++ toString index ++ " len=" ++ toString size
  | .capacity => "capacity overflow"
  | .memory bytes => "memory allocation of " ++ toString bytes ++ " bytes failed"

end AccessHistory
