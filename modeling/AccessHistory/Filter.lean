import AccessHistory.BitSet
import AccessHistory.Hash.Probe
import AccessHistory.Hash.Scramble

/-!
The Bloom filter: a key covers as many positions of a bit set as the filter has probes, and counts
as seen once all of them are in the set. Keys that cover each other's positions can only make a key
seem seen.
-/

set_option autoImplicit false
set_option relaxedAutoImplicit false

namespace AccessHistory

open Hash (scramble probes)

/-- A bit set and the number of positions that a key covers. -/
structure Filter where
  bits : BitSet
  probeCount : Nat
  deriving DecidableEq

namespace Filter

/-- The fewest and the most probes of a filter. -/
def minProbes : Nat := 1
def maxProbes : Nat := 32

def probeCountError (probeCount : Nat) : BuildError :=
  .parameters ("hash count " ++ toString probeCount ++ " must be in range [" ++
    toString minProbes ++ ", " ++ toString maxProbes ++ "]")

def ofShape (size probeCount : Nat) : Except BuildError Filter := do
  if probeCount < minProbes ∨ maxProbes < probeCount then .error (probeCountError probeCount)
  else
    let bits ← BitSet.ofSize size
    .ok ⟨bits, probeCount⟩

def allocate (size probeCount : UInt64) : Building Filter := do
  if probeCount.toNat < minProbes ∨ maxProbes < probeCount.toNat then
    throw (probeCountError probeCount.toNat)
  else
    let bits ← BitSet.allocate size
    return ⟨bits, probeCount.toNat⟩

def reset (f : Filter) : Filter := { f with bits := f.bits.clear }

/-- The positions that a key covers, in probe order. -/
def positions (f : Filter) (hash : UInt64) : List Nat :=
  probes hash (scramble hash) f.probeCount f.bits.size

def record (f : Filter) (hash : UInt64) : Filter :=
  { f with bits := (f.positions hash).foldl BitSet.insert f.bits }

private theorem contains_foldl_insert (positions : List Nat) (s : BitSet)
    (h : ∀ i ∈ positions, i < s.size) (j : Nat) :
    (positions.foldl BitSet.insert s).contains j = (decide (j ∈ positions) || s.contains j) := by
  induction positions generalizing s with
  | nil => simp
  | cons i rest ih =>
    rw [List.foldl_cons, ih _ (fun k hk => by simpa using h k (List.mem_cons_of_mem i hk)),
      BitSet.contains_insert s (h i List.mem_cons_self)]
    by_cases hj : j ∈ rest <;> by_cases hi : j = i <;> simp [hj, hi, eq_comm (a := i)]

theorem lt_size_of_mem_positions {f : Filter} {hash : UInt64} {i : Nat}
    (h : i ∈ f.positions hash) : i < f.bits.size :=
  Hash.lt_of_mem_probes f.bits.size_pos h

/-- A record adds the positions that its key covers, and no others. -/
theorem contains_bits_record (f : Filter) (hash : UInt64) (j : Nat) :
    (f.record hash).bits.contains j = (decide (j ∈ f.positions hash) || f.bits.contains j) :=
  contains_foldl_insert _ _ (fun _ => lt_size_of_mem_positions) j

/-- Whether a key counts as seen. -/
def contains (f : Filter) (hash : UInt64) : Bool :=
  (f.positions hash).all f.bits.contains

/-- One for a key that counts as seen, zero for others. -/
def estimate (f : Filter) (hash : UInt64) : Nat := if f.contains hash then 1 else 0

def byteSize (f : Filter) : Nat := f.bits.byteSize

def outline (f : Filter) : Text.Outline :=
  .record "BloomCounter" [("bits", f.bits.outline), ("num_hashes", .ofNat f.probeCount)]

end Filter

end AccessHistory
