/-!
The word scrambler behind every column and probe: three shifted exclusive ors around two odd
multiplications, so that no two words scramble alike.
-/

set_option autoImplicit false
set_option relaxedAutoImplicit false

namespace AccessHistory.Hash

/-- Spreads the bits of a word over all of it. -/
def scramble (x : UInt64) : UInt64 :=
  let x := (x ^^^ (x >>> 30)) * 0xbf58476d1ce4e5b9
  let x := (x ^^^ (x >>> 27)) * 0x94d049bb133111eb
  x ^^^ (x >>> 31)

/-- What sets the rows of a sketch apart: row `r` scrambles the key's hash plus `r` salts. -/
def rowSalt : UInt64 := 0x9e3779b97f4a7c15

end AccessHistory.Hash
