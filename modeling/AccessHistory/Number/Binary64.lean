import AccessHistory.Number.Word

/-!
Doubles as exact numbers. A finite double is a sign, a whole mantissa and a power of two; on these
three the rounding to whole words is done in whole numbers.
-/

set_option autoImplicit false
set_option relaxedAutoImplicit false

namespace AccessHistory.Number

/-- The number `± mantissa * 2 ^ exponent`. -/
structure Scaled where
  negative : Bool
  mantissa : Nat
  exponent : Int
  deriving DecidableEq, Inhabited

inductive Binary64 where
  | finite (value : Scaled)
  | infinite (negative : Bool)
  | nan
  deriving DecidableEq, Inhabited

/-- The leading bit of a mantissa, which the encoding leaves out. -/
def hiddenBit : Nat := 1 <<< 52

/-- Decodes a double: eleven exponent bits above 52 mantissa bits, whose leading one is written only
in the exponent. -/
def Binary64.ofFloat (x : Float) : Binary64 :=
  let bits := x.toBits.toNat
  let negative : Bool := bits >>> 63 = 1
  let exponent : Nat := (bits >>> 52) % 2048
  let fraction : Nat := bits % hiddenBit
  if exponent = 2047 then
    if fraction = 0 then .infinite negative else .nan
  else if exponent = 0 then .finite ⟨negative, fraction, -1074⟩
  else .finite ⟨negative, hiddenBit + fraction, (exponent : Int) - 1075⟩

namespace Scaled

/-- The least whole number at or above the magnitude. -/
def ceil (d : Scaled) : Nat :=
  match d.exponent with
  | .ofNat k => d.mantissa <<< k
  | .negSucc k => (d.mantissa + (1 <<< (k + 1) - 1)) >>> (k + 1)

/-- The whole number nearest to the magnitude; a half goes up. -/
def round (d : Scaled) : Nat :=
  match d.exponent with
  | .ofNat k => d.mantissa <<< k
  | .negSucc k => (2 * d.mantissa + 1 <<< (k + 1)) >>> (k + 2)

end Scaled

/-- Rounds a double to a word by a rule for magnitudes. What is negative or no number becomes zero,
and what is too large the largest word. -/
def toWord (rule : Scaled → Nat) (x : Float) : UInt64 :=
  match Binary64.ofFloat x with
  | .finite d => if d.negative then 0 else (min (rule d) maxWord).toUInt64
  | .infinite negative => if negative then 0 else maxWord.toUInt64
  | .nan => 0

/-- The least word at or above a double. -/
def ceilWord (x : Float) : UInt64 := toWord Scaled.ceil x

/-- The word nearest to a double; a half goes up. -/
def roundWord (x : Float) : UInt64 := toWord Scaled.round x

end AccessHistory.Number
