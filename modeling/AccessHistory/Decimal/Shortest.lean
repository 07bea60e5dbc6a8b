import AccessHistory.Number.Binary64

/-!
The shortest decimal that reads back as a given double. The reals that round to a double form an
interval around it; the shortest decimal is the coarsest decimal grid's point in that interval, and
of two such points the nearer one.
-/

set_option autoImplicit false
set_option relaxedAutoImplicit false

namespace AccessHistory

/-- The number `digits * 10 ^ exponent`. -/
structure Decimal where
  digits : Nat
  exponent : Int
  deriving DecidableEq, Inhabited

namespace Decimal

open Number (Scaled)

def digitCount (n : Nat) : Nat := (Nat.toDigits 10 n).length

def tenTo (k : Nat) : Nat := Nat.pow 10 k

/-- A quarter of the unit in the last place, as a fraction: the interval's ends are whole multiples
of it. -/
structure Scale where
  up : Nat
  down : Nat

def Scale.ofExponent (exponent : Int) : Scale :=
  ⟨1 <<< exponent.toNat, 4 <<< (-exponent).toNat⟩

/-- The quarters below the mantissa that still round to it: two, but one where the next double below
is half as far away. -/
def quartersBelow (d : Scaled) : Nat :=
  if d.mantissa = Number.hiddenBit ∧ -1074 < d.exponent then 1 else 2

/-- The grid point of `10 ^ k` that reads back as the magnitude, the nearer one if both neighbours
do; of two equally near, the upper one. -/
def onGrid? (d : Scaled) (k : Int) : Option Decimal :=
  let scale := Scale.ofExponent d.exponent
  let quarter := scale.up * tenTo (-k).toNat
  let unit := scale.down * tenTo k.toNat
  let value := 4 * d.mantissa * quarter
  let low := (4 * d.mantissa - quartersBelow d) * quarter
  let high := (4 * d.mantissa + 2) * quarter
  let closed := d.mantissa % 2 = 0
  let inside := fun (point : Nat) =>
    if closed then low ≤ point * unit ∧ point * unit ≤ high
    else low < point * unit ∧ point * unit < high
  let below := value / unit
  let above := below + 1
  if inside below then
    if inside above ∧ above * unit - value ≤ value - below * unit then some ⟨above, k⟩
    else some ⟨below, k⟩
  else if inside above then some ⟨above, k⟩
  else none

/-- The place of the decimal point: the magnitude is at least `10 ^ (place - 1)` and below
`10 ^ place`. -/
def place (d : Scaled) : Int :=
  match d.exponent with
  | .ofNat k => digitCount (d.mantissa <<< k)
  | .negSucc k => (digitCount ((d.mantissa * tenTo 400) >>> (k + 1)) : Int) - 400

/-- Moves trailing zeros from the digits to the exponent. -/
def dropZeros (digits : Nat) (exponent : Int) : Decimal :=
  if digits ≠ 0 ∧ digits % 10 = 0 then dropZeros (digits / 10) (exponent + 1)
  else ⟨digits, exponent⟩
termination_by digits
decreasing_by omega

/-- The shortest decimal that reads back as the magnitude. Seventeen digits always do. -/
def shortest (d : Scaled) : Decimal :=
  if d.mantissa = 0 then ⟨0, 0⟩
  else
    let top := place d
    match (List.range 17).findSome? fun i => onGrid? d (top - (i + 1 : Nat)) with
    | some found => dropZeros found.digits found.exponent
    | none => ⟨0, 0⟩

end Decimal

end AccessHistory
