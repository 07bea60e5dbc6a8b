import AccessHistory.Hash.Xxh3

/-!
The hasher that turns keys into words. All trackers share one seed, so that a key means the same
word to each of them.
-/

set_option autoImplicit false
set_option relaxedAutoImplicit false

namespace AccessHistory.Hash

def keySeed : UInt64 := 314159

/-- A seeded hash function on byte strings. -/
structure KeyHasher where
  seed : UInt64 := keySeed
  deriving DecidableEq

instance : Inhabited KeyHasher := ⟨{}⟩

def KeyHasher.hash (hasher : KeyHasher) (key : ByteArray) : UInt64 :=
  Xxh3.hash hasher.seed key

end AccessHistory.Hash
