/-!
# The 128-bit FNV-1a Hash

The hash of a byte string starts at a fixed basis; every byte is combined by exclusive
or, and the result is multiplied by a fixed prime modulo `2 ^ 128`. The prime is odd, so
a step can be undone, and two texts keep equal hashes when the same text follows both.

## Main definitions

* `Fnv.step`: one byte enters the hash.
* `Fnv.hash`: the hash of a byte string.
-/

namespace GoPlanner

namespace Fnv

/-- The hash of the empty byte string. -/
def basis : BitVec 128 :=
  0x6c62272e07bb014262b821756295c58d#128

/-- The multiplier. -/
def prime : BitVec 128 :=
  0x0000000001000000000000000000013b#128

/-- **One step.** Exclusive or with the byte, then multiplication by the prime. -/
def step (h : BitVec 128) (byte : UInt8) : BitVec 128 :=
  (h ^^^ byte.toBitVec.setWidth 128) * prime

/-- **The hash** of a byte string. -/
def hash (bytes : List UInt8) : BitVec 128 :=
  bytes.foldl step basis

end Fnv

end GoPlanner
