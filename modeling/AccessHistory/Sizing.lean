import AccessHistory.Failure
import AccessHistory.Filter
import AccessHistory.Number.Binary64

/-!
How large sketches and filters have to be. The formulas are those of the two structures; each is
computed in doubles, in the order written here, and rounded to a word at the end.
-/

set_option autoImplicit false
set_option relaxedAutoImplicit false

namespace AccessHistory.Sizing

open Number (ceilWord roundWord maxWord)

def ln2 : Float := 0.6931471805599453

def ln2Squared : Float := ln2 * ln2

def minFilterBits : UInt64 := 8

/-- Strictly between zero and one; no number at all is not. -/
def IsProportion (x : Float) : Prop := 0 < x ∧ x < 1

instance (x : Float) : Decidable (IsProportion x) := inferInstanceAs (Decidable (_ ∧ _))

def IsMargin (x : Float) : Prop := 0 < x ∧ x.isFinite = true

instance (x : Float) : Decidable (IsMargin x) := inferInstanceAs (Decidable (_ ∧ _))

/-! ### Filters -/

/-- The bits of a filter for `items` keys: `-items * ln rate / (ln 2)²`, rounded up. -/
def filterBits (items : UInt64) (rate : Float) : Except BuildError UInt64 :=
  if items = 0 then .error (.itemCount 0)
  else if ¬ IsProportion rate then .error (.falsePositiveRate rate)
  else
    let bits := ceilWord (-items.toFloat * rate.log / ln2Squared)
    if 9223372036854775808 < bits then .error (.filterSize maxWord)
    else .ok (max bits minFilterBits)

/-- The best probe count for `items` keys in so many bits: `bits / items * ln 2`, rounded, and kept
in the range of a filter. -/
def probeCount (bits items : UInt64) : Except BuildError UInt64 :=
  if bits = 0 then .error (.filterSize 0)
  else if items = 0 then .error (.itemCount 0)
  else
    let count := roundWord (bits.toFloat / items.toFloat * ln2)
    .ok (min (max count Filter.minProbes.toUInt64) Filter.maxProbes.toUInt64)

def clampToUnit (x : Float) : Float :=
  if x < 0 then 0 else if 1 < x then 1 else x

/-- How often a key that was never recorded seems seen: `(1 - e ^ (-(probes * items) / bits)) ^
probes`. -/
def falsePositiveRate (bits items probes : UInt64) : Except BuildError Float :=
  if bits = 0 then .error (.filterSize 0)
  else if probes.toNat < Filter.minProbes ∨ Filter.maxProbes < probes.toNat then
    .error (Filter.probeCountError probes.toNat)
  else if items = 0 then .ok 0
  else
    let bitIsOne := 1 - (-(probes.toFloat * items.toFloat) / bits.toFloat).exp
    .ok (clampToUnit (bitIsOne.pow probes.toFloat))

/-! ### Sketches -/

/-- The error of one estimate as a share of all records. -/
def errorMargin (maxErrorValue maxOps : UInt64) : Except BuildError Float :=
  if maxOps = 0 then .error (.itemCount 0)
  else
    let margin := maxErrorValue.toFloat / maxOps.toFloat
    if IsMargin margin then .ok margin else .error (.errorMargin margin)

/-- The cells of a row: `2 / margin`, rounded down, and at most the cap unless that is zero. The
cap is compared as a double, so a cap of more than 53 bits counts as rounded. -/
def rowWidth (margin : Float) (cap : UInt64) : Except BuildError UInt64 :=
  if ¬ IsMargin margin then .error (.errorMargin margin)
  else
    let ideal := 2 / margin
    if cap = 0 ∧ 9223372036854775808 < ideal then .error (.sketchShape maxWord 0)
    else
      let capped := if cap = 0 ∨ ideal ≤ cap.toFloat then ideal else cap.toFloat
      let width := capped.toUInt64
      if width = 0 then .error (.sketchShape 0 0) else .ok width

/-- The rows of a sketch: `|ln (1 - certainty) / ln 2|`, rounded up, at least one, and at most the
cap unless that is zero. -/
def rowCount (certainty : Float) (cap : UInt64) : Except BuildError UInt64 :=
  if ¬ IsProportion certainty then .error (.certainty certainty)
  else
    let rows := max (ceilWord ((1 - certainty).log / ln2).abs) 1
    .ok (if cap = 0 then rows else min rows cap)

end AccessHistory.Sizing
