/-!
The seeded 64-bit XXH3 hash of a byte string. Short strings have a formula for each range of
lengths; longer ones are mixed sixteen bytes at a time; beyond 240 bytes eight lanes absorb stripes
of 64 bytes under a secret that the seed has shifted.
-/

set_option autoImplicit false
set_option relaxedAutoImplicit false

namespace AccessHistory.Hash.Xxh3

/-! ### Constants -/

def prime32₁ : UInt64 := 0x9e3779b1
def prime32₂ : UInt64 := 0x85ebca77
def prime32₃ : UInt64 := 0xc2b2ae3d
def prime64₁ : UInt64 := 0x9e3779b185ebca87
def prime64₂ : UInt64 := 0xc2b2ae3d27d4eb4f
def prime64₃ : UInt64 := 0x165667b19e3779f9
def prime64₄ : UInt64 := 0x85ebca77c2b2ae63
def prime64₅ : UInt64 := 0x27d4eb2f165667c5
def mixer₁ : UInt64 := 0x165667919e3779f9
def mixer₂ : UInt64 := 0x9fb21c651e98df25

/-- The 192 bytes that input words are combined with. -/
def secret : ByteArray := ⟨#[
  0xb8, 0xfe, 0x6c, 0x39, 0x23, 0xa4, 0x4b, 0xbe, 0x7c, 0x01, 0x81, 0x2c, 0xf7, 0x21, 0xad, 0x1c,
  0xde, 0xd4, 0x6d, 0xe9, 0x83, 0x90, 0x97, 0xdb, 0x72, 0x40, 0xa4, 0xa4, 0xb7, 0xb3, 0x67, 0x1f,
  0xcb, 0x79, 0xe6, 0x4e, 0xcc, 0xc0, 0xe5, 0x78, 0x82, 0x5a, 0xd0, 0x7d, 0xcc, 0xff, 0x72, 0x21,
  0xb8, 0x08, 0x46, 0x74, 0xf7, 0x43, 0x24, 0x8e, 0xe0, 0x35, 0x90, 0xe6, 0x81, 0x3a, 0x26, 0x4c,
  0x3c, 0x28, 0x52, 0xbb, 0x91, 0xc3, 0x00, 0xcb, 0x88, 0xd0, 0x65, 0x8b, 0x1b, 0x53, 0x2e, 0xa3,
  0x71, 0x64, 0x48, 0x97, 0xa2, 0x0d, 0xf9, 0x4e, 0x38, 0x19, 0xef, 0x46, 0xa9, 0xde, 0xac, 0xd8,
  0xa8, 0xfa, 0x76, 0x3f, 0xe3, 0x9c, 0x34, 0x3f, 0xf9, 0xdc, 0xbb, 0xc7, 0xc7, 0x0b, 0x4f, 0x1d,
  0x8a, 0x51, 0xe0, 0x4b, 0xcd, 0xb4, 0x59, 0x31, 0xc8, 0x9f, 0x7e, 0xc9, 0xd9, 0x78, 0x73, 0x64,
  0xea, 0xc5, 0xac, 0x83, 0x34, 0xd3, 0xeb, 0xc3, 0xc5, 0x81, 0xa0, 0xff, 0xfa, 0x13, 0x63, 0xeb,
  0x17, 0x0d, 0xdd, 0x51, 0xb7, 0xf0, 0xda, 0x49, 0xd3, 0x16, 0x55, 0x26, 0x29, 0xd4, 0x68, 0x9e,
  0x2b, 0x16, 0xbe, 0x58, 0x7d, 0x47, 0xa1, 0xfc, 0x8f, 0xf8, 0xb8, 0xd1, 0x7a, 0xd0, 0x31, 0xce,
  0x45, 0xcb, 0x3a, 0x8f, 0x95, 0x16, 0x04, 0x28, 0xaf, 0xd7, 0xfb, 0xca, 0xbb, 0x4b, 0x40, 0x7e]⟩

/-! ### Words of a byte string -/

def byteAt (b : ByteArray) (i : Nat) : UInt64 :=
  if h : i < b.size then b[i].toUInt64 else 0

/-- The four bytes at `i`, least significant first. -/
def word32 (b : ByteArray) (i : Nat) : UInt64 :=
  byteAt b i ||| byteAt b (i + 1) <<< 8 ||| byteAt b (i + 2) <<< 16 ||| byteAt b (i + 3) <<< 24

/-- The eight bytes at `i`, least significant first. -/
def word64 (b : ByteArray) (i : Nat) : UInt64 :=
  word32 b i ||| word32 b (i + 4) <<< 32

def bytesOf (x : UInt64) : List UInt8 :=
  (List.range 8).map fun i => (x >>> (8 * i).toUInt64).toUInt8

/-- Reverses the four low bytes of a word and drops the others. -/
def reverse32 (x : UInt64) : UInt64 :=
  (x &&& 0xff) <<< 24 ||| ((x >>> 8) &&& 0xff) <<< 16 ||| ((x >>> 16) &&& 0xff) <<< 8 |||
    ((x >>> 24) &&& 0xff)

def reverse64 (x : UInt64) : UInt64 :=
  reverse32 x <<< 32 ||| reverse32 (x >>> 32)

def rotateLeft (x k : UInt64) : UInt64 := x <<< k ||| x >>> (64 - k)

/-! ### Mixing -/

/-- Folds the 128-bit product of two words: its halves, exclusive or. -/
def foldProduct (x y : UInt64) : UInt64 :=
  let p := x.toNat * y.toNat
  p.toUInt64 ^^^ (p >>> 64).toUInt64

/-- The last step for the shortest strings. -/
def finishTiny (h : UInt64) : UInt64 :=
  let h := (h ^^^ (h >>> 33)) * prime64₂
  let h := (h ^^^ (h >>> 29)) * prime64₃
  h ^^^ (h >>> 32)

/-- The last step for all longer strings. -/
def finish (h : UInt64) : UInt64 :=
  let h := (h ^^^ (h >>> 37)) * mixer₁
  h ^^^ (h >>> 32)

/-- Mixes the sixteen bytes at `i` with the sixteen secret bytes at `j`. -/
def mix16 (seed : UInt64) (b : ByteArray) (i j : Nat) : UInt64 :=
  foldProduct (word64 b i ^^^ (word64 secret j + seed))
    (word64 b (i + 8) ^^^ (word64 secret (j + 8) - seed))

/-! ### One formula for each range of lengths -/

def hashEmpty (seed : UInt64) : UInt64 :=
  finishTiny (seed ^^^ (word64 secret 56 ^^^ word64 secret 64))

/-- For one to three bytes: the first, the middle and the last one, with the length. -/
def hash1to3 (seed : UInt64) (b : ByteArray) : UInt64 :=
  let n := b.size
  let joined :=
    byteAt b 0 <<< 16 ||| byteAt b (n / 2) <<< 24 ||| byteAt b (n - 1) ||| n.toUInt64 <<< 8
  finishTiny (joined ^^^ ((word32 secret 0 ^^^ word32 secret 4) + seed))

/-- For four to eight bytes: the first four and the last four, which may overlap. -/
def hash4to8 (seed : UInt64) (b : ByteArray) : UInt64 :=
  let n := b.size
  let seed := seed ^^^ reverse32 seed <<< 32
  let joined := word32 b (n - 4) + word32 b 0 <<< 32
  let h := joined ^^^ ((word64 secret 8 ^^^ word64 secret 16) - seed)
  let h := (h ^^^ rotateLeft h 49 ^^^ rotateLeft h 24) * mixer₂
  let h := (h ^^^ ((h >>> 35) + n.toUInt64)) * mixer₂
  h ^^^ (h >>> 28)

/-- For nine to sixteen bytes: the first eight and the last eight, which may overlap. -/
def hash9to16 (seed : UInt64) (b : ByteArray) : UInt64 :=
  let n := b.size
  let low := word64 b 0 ^^^ ((word64 secret 24 ^^^ word64 secret 32) + seed)
  let high := word64 b (n - 8) ^^^ ((word64 secret 40 ^^^ word64 secret 48) - seed)
  finish (n.toUInt64 + reverse64 low + high + foldProduct low high)

/-- For 17 to 128 bytes: sixteen bytes from each end, as often as both ends reach the middle. -/
def hash17to128 (seed : UInt64) (b : ByteArray) : UInt64 :=
  let n := b.size
  let rounds := (n - 1) / 32 + 1
  finish ((List.range rounds).foldl (fun acc i =>
    acc + mix16 seed b (16 * i) (32 * i) + mix16 seed b (n - 16 * (i + 1)) (32 * i + 16))
    (n.toUInt64 * prime64₁))

/-- For 129 to 240 bytes: eight mixes, a finish, the remaining whole mixes, and one for the end. -/
def hash129to240 (seed : UInt64) (b : ByteArray) : UInt64 :=
  let n := b.size
  let first := (List.range 8).foldl (fun acc i => acc + mix16 seed b (16 * i) (16 * i))
    (n.toUInt64 * prime64₁)
  let rest := (List.range (n / 16 - 8)).foldl
    (fun acc i => acc + mix16 seed b (16 * (i + 8)) (16 * i + 3)) (finish first)
  finish (rest + mix16 seed b (n - 16) 119)

/-! ### Long strings -/

/-- The eight lanes that absorb a long string. -/
abbrev Lanes := Vector UInt64 8

def Lanes.start : Lanes :=
  #v[prime32₃, prime64₁, prime64₂, prime64₃, prime64₄, prime32₂, prime64₅, prime32₁]

/-- The secret that the seed has shifted: added to one word, taken from the next. -/
def shiftedSecret (seed : UInt64) : ByteArray :=
  ⟨((List.range 12).flatMap fun i =>
    bytesOf (word64 secret (16 * i) + seed) ++
      bytesOf (word64 secret (16 * i + 8) - seed)).toArray⟩

/-- Absorbs the 64 bytes at `i` under the key bytes at `j`: each lane takes the product of the
halves of its keyed word, and its neighbour's plain word. -/
def Lanes.absorb (lanes : Lanes) (b key : ByteArray) (i j : Nat) : Lanes :=
  Vector.ofFn fun k =>
    let keyed := word64 b (i + 8 * k.val) ^^^ word64 key (j + 8 * k.val)
    let low : UInt64 := keyed &&& 0xffffffff
    lanes[k] + word64 b (i + 8 * (k.val ^^^ 1)) + low * (keyed >>> 32)

/-- Absorbs `count` stripes from `i` on; the key moves on by eight bytes a stripe. -/
def Lanes.absorbStripes (lanes : Lanes) (b key : ByteArray) (i count : Nat) : Lanes :=
  (List.range count).foldl (fun l s => l.absorb b key (i + 64 * s) (8 * s)) lanes

/-- Stirs the lanes after each whole block. -/
def Lanes.stir (lanes : Lanes) (key : ByteArray) : Lanes :=
  Vector.ofFn fun k =>
    let lane : UInt64 := lanes[k]
    (lane ^^^ (lane >>> 47) ^^^ word64 key (128 + 8 * k.val)) * prime32₁

/-- Folds the lanes into one word, two at a time. -/
def Lanes.merge (lanes : Lanes) (key : ByteArray) (start : UInt64) : UInt64 :=
  finish ((List.finRange 4).foldl (fun acc k =>
    acc + foldProduct (lanes[2 * k.val] ^^^ word64 key (11 + 16 * k.val))
      (lanes[2 * k.val + 1] ^^^ word64 key (11 + 16 * k.val + 8))) start)

/-- For more than 240 bytes: blocks of sixteen stripes, then the stripes left over, then the last 64
bytes once more. -/
def hashLong (seed : UInt64) (b : ByteArray) : UInt64 :=
  let n := b.size
  let key := shiftedSecret seed
  let blocks := (n - 1) / 1024
  let lanes := (List.range blocks).foldl
    (fun l i => (l.absorbStripes b key (1024 * i) 16).stir key) Lanes.start
  let lanes := lanes.absorbStripes b key (1024 * blocks) ((n - 1 - 1024 * blocks) / 64)
  let lanes := lanes.absorb b key (n - 64) 121
  lanes.merge key (n.toUInt64 * prime64₁)

def hash (seed : UInt64) (b : ByteArray) : UInt64 :=
  let n := b.size
  if n = 0 then hashEmpty seed
  else if n ≤ 3 then hash1to3 seed b
  else if n ≤ 8 then hash4to8 seed b
  else if n ≤ 16 then hash9to16 seed b
  else if n ≤ 128 then hash17to128 seed b
  else if n ≤ 240 then hash129to240 seed b
  else hashLong seed b

end AccessHistory.Hash.Xxh3
