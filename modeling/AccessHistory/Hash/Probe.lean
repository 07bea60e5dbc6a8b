import AccessHistory.Failure

/-!
The probe sequence of a key: from two words, as many positions below a modulus as are wanted. The
triangular term keeps the positions moving when the second word is a multiple of the modulus.
-/

set_option autoImplicit false
set_option relaxedAutoImplicit false

namespace AccessHistory.Hash

/-- The word behind probe `i`: the start, `i` strides, and half of `i * (i + 1)`. All of it wraps at
the word size, the product before it is halved. -/
def probeWord (start stride i : UInt64) : UInt64 :=
  start + i * stride + ((i * (i + 1)) >>> 1)

/-- Probe `i` among `m` positions. -/
def probe (start stride i : UInt64) (m : Nat) : Nat :=
  (probeWord start stride i).toNat % m

/-- The first `k` probes among `m` positions, in order. -/
def probes (start stride : UInt64) (k m : Nat) : List Nat :=
  (List.range k).map fun i => probe start stride i.toUInt64 m

/-- Probe `i` among `m` positions, of which there must be some. -/
def probe? (start stride i : UInt64) (m : Nat) : Except Fault Nat :=
  if m = 0 then .error .zeroDivisor else .ok (probe start stride i m)

/-- The first `k` probes among `m` positions; no positions are a fault unless no probe is asked
for. -/
def probes? (start stride : UInt64) (k m : Nat) : Except Fault (List Nat) :=
  (List.range k).mapM fun i => probe? start stride i.toUInt64 m

theorem probe_lt (start stride i : UInt64) {m : Nat} (hm : 0 < m) : probe start stride i m < m :=
  Nat.mod_lt _ hm

@[simp]
theorem length_probes (start stride : UInt64) (k m : Nat) :
    (probes start stride k m).length = k := by
  simp [probes]

theorem lt_of_mem_probes {start stride : UInt64} {k m j : Nat} (hm : 0 < m)
    (h : j ∈ probes start stride k m) : j < m := by
  obtain ⟨i, -, rfl⟩ := List.mem_map.mp h
  exact probe_lt start stride i.toUInt64 hm

end AccessHistory.Hash
