import AccessHistory.Decimal.Nearest

/-!
Values of JSON documents. Objects keep their members in order, with repetitions; numbers keep how
they were written as far as their reading depends on it; and a string that escapes half of a
surrogate pair denotes no text.
-/

set_option autoImplicit false
set_option relaxedAutoImplicit false

namespace AccessHistory.Json

/-- A number as written: a sign, a decimal, and whether it had neither a point nor an exponent. -/
structure Number where
  negative : Bool
  decimal : Decimal
  isInteger : Bool
  deriving DecidableEq, Inhabited

namespace Number

def ofNat (n : Nat) : Number := ⟨false, ⟨n, 0⟩, true⟩

/-- The natural number that is written; a sign excludes it, even before zero. -/
def toNat? (n : Number) : Option Nat :=
  if n.isInteger && !n.negative then some n.decimal.digits else none

def toWord? (n : Number) : Option UInt64 :=
  n.toNat?.bind fun k => if k ≤ AccessHistory.Number.maxWord then some k.toUInt64 else none

/-- The double nearest to what is written, unless that is infinite. -/
def toFloat? (n : Number) : Option Float := Decimal.nearest? n.negative n.decimal

end Number

/-- What a string denotes: a text, or nothing. -/
abbrev Text := Option String

inductive Value where
  | null
  | bool (b : Bool)
  | number (n : Number)
  | string (text : Text)
  | array (items : List Value)
  | object (members : List (Text × Value))
  deriving Inhabited

namespace Value

def ofNat (n : Nat) : Value := .number (.ofNat n)

def ofString (s : String) : Value := .string (some s)

/-- An object with known names. -/
def ofMembers (members : List (String × Value)) : Value :=
  .object (members.map fun m => (some m.1, m.2))

/-- A double by its shortest decimal; what is no finite number becomes null. -/
def ofFloat (x : Float) : Value :=
  match AccessHistory.Number.Binary64.ofFloat x with
  | .finite d => .number ⟨d.negative, Decimal.shortest d, false⟩
  | _ => .null

end Value

end AccessHistory.Json
