import AccessHistory.Decimal.Shortest

/-!
How decimals are laid out as text. A layout says which numbers are written positionally and whether
a whole number keeps its point; the digits are always the shortest ones.
-/

set_option autoImplicit false
set_option relaxedAutoImplicit false

namespace AccessHistory.Decimal

/-- The choices that a text form of numbers makes. -/
structure Layout where
  /-- Whole numbers end in `.0`. -/
  keepsPoint : Bool
  /-- The decimal exponents, lowest and highest, that are written positionally; all of them if none
  is given. -/
  positional : Option (Int × Int)

/-- The form for reading: never an exponent, and no point after a whole number. -/
def Layout.plain : Layout := ⟨false, none⟩

/-- The form that shows the kind of number: a point is kept, and numbers from `1e16` on or below
`1e-4` have an exponent. -/
def Layout.exact : Layout := ⟨true, some (-4, 15)⟩

/-- The form in JSON documents: as the exact one, with one more small exponent written
positionally. -/
def Layout.document : Layout := ⟨true, some (-5, 15)⟩

def zeros (n : Nat) : List Char := List.replicate n '0'

/-- Writes digits with the point at its place. -/
def Layout.writePositional (layout : Layout) (digits : List Char) (exponent : Int) : List Char :=
  let point : Int := digits.length + exponent
  if 0 ≤ exponent then
    digits ++ zeros exponent.toNat ++ (if layout.keepsPoint then ['.', '0'] else [])
  else if 0 < point then
    digits.take point.toNat ++ '.' :: digits.drop point.toNat
  else '0' :: '.' :: (zeros (-point).toNat ++ digits)

/-- Writes one digit before the point, the others after it, and the exponent. -/
def writeScientific (digits : List Char) (exponent : Int) : List Char :=
  let power : Int := digits.length + exponent - 1
  let fraction := match digits.drop 1 with
    | [] => []
    | rest => '.' :: rest
  digits.take 1 ++ fraction ++ 'e' :: (toString power).toList

def Layout.writeDecimal (layout : Layout) (negative : Bool) (d : Decimal) : String :=
  let digits := Nat.toDigits 10 d.digits
  let power : Int := digits.length + d.exponent - 1
  let inRange := match layout.positional with
    | none => true
    | some (low, high) => d.digits = 0 || (low ≤ power && power ≤ high)
  let body := if inRange then layout.writePositional digits d.exponent
    else writeScientific digits d.exponent
  String.ofList (if negative then '-' :: body else body)

def Layout.write (layout : Layout) (x : Float) : String :=
  match Number.Binary64.ofFloat x with
  | .finite d => layout.writeDecimal d.negative (shortest d)
  | .infinite negative => if negative then "-inf" else "inf"
  | .nan => "NaN"

end AccessHistory.Decimal
