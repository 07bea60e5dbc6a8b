import AccessHistory.Decimal.Shortest

/-!
The double nearest to a decimal.
-/

set_option autoImplicit false
set_option relaxedAutoImplicit false

namespace AccessHistory.Decimal

/-- The double nearest to a decimal, or nothing where that is infinite. Numbers from `1e310` on are
too large and numbers below `1e-330` vanish, whatever their digits; between these bounds the
conversion is exact work on numbers of moderate size. -/
def nearest? (negative : Bool) (d : Decimal) : Option Float :=
  let signed := fun (x : Float) => if negative then -x else x
  let top : Int := digitCount d.digits + d.exponent
  if d.digits = 0 ∨ top < -330 then some (signed 0)
  else if 310 < top then none
  else
    let x := Float.ofScientific d.digits (decide (d.exponent < 0)) d.exponent.natAbs
    if x.isFinite then some (signed x) else none

end AccessHistory.Decimal
