import ZcashSoloPool.Bytes.Endian

/-!
# SHA-256

The hash function on byte strings, executable on small inputs.  Words are
natural numbers below `2 ^ 32`; additions are reduced where their result is
stored.
-/

namespace ZcashSoloPool.Crypto

open ZcashSoloPool.Bytes

/-- The round constants. -/
def roundConstants : List Nat := [
  0x428a2f98, 0x71374491, 0xb5c0fbcf, 0xe9b5dba5, 0x3956c25b, 0x59f111f1, 0x923f82a4, 0xab1c5ed5,
  0xd807aa98, 0x12835b01, 0x243185be, 0x550c7dc3, 0x72be5d74, 0x80deb1fe, 0x9bdc06a7, 0xc19bf174,
  0xe49b69c1, 0xefbe4786, 0x0fc19dc6, 0x240ca1cc, 0x2de92c6f, 0x4a7484aa, 0x5cb0a9dc, 0x76f988da,
  0x983e5152, 0xa831c66d, 0xb00327c8, 0xbf597fc7, 0xc6e00bf3, 0xd5a79147, 0x06ca6351, 0x14292967,
  0x27b70a85, 0x2e1b2138, 0x4d2c6dfc, 0x53380d13, 0x650a7354, 0x766a0abb, 0x81c2c92e, 0x92722c85,
  0xa2bfe8a1, 0xa81a664b, 0xc24b8b70, 0xc76c51a3, 0xd192e819, 0xd6990624, 0xf40e3585, 0x106aa070,
  0x19a4c116, 0x1e376c08, 0x2748774c, 0x34b0bcb5, 0x391c0cb3, 0x4ed8aa4a, 0x5b9cca4f, 0x682e6ff3,
  0x748f82ee, 0x78a5636f, 0x84c87814, 0x8cc70208, 0x90befffa, 0xa4506ceb, 0xbef9a3f7, 0xc67178f2]

/-- Rotation of a 32-bit word to the right. -/
def rotateRight (amount word : Nat) : Nat :=
  (word >>> amount) ||| ((word <<< (32 - amount)) % 0x100000000)

/-- The eight words of the chaining value. -/
structure Chaining where
  (a b c d e f g h : Nat)
  deriving DecidableEq, Repr

namespace Chaining

def initial : Chaining :=
  ⟨0x6a09e667, 0xbb67ae85, 0x3c6ef372, 0xa54ff53a, 0x510e527f, 0x9b05688c, 0x1f83d9ab, 0x5be0cd19⟩

/-- One round with its constant and message word. -/
def round (v : Chaining) (constant word : Nat) : Chaining :=
  let sum1 := rotateRight 6 v.e ^^^ rotateRight 11 v.e ^^^ rotateRight 25 v.e
  let choice := (v.e &&& v.f) ^^^ ((v.e ^^^ 0xffffffff) &&& v.g)
  let temp1 := v.h + sum1 + choice + constant + word
  let sum0 := rotateRight 2 v.a ^^^ rotateRight 13 v.a ^^^ rotateRight 22 v.a
  let majority := (v.a &&& v.b) ^^^ (v.a &&& v.c) ^^^ (v.b &&& v.c)
  ⟨(temp1 + sum0 + majority) % 0x100000000, v.a, v.b, v.c, (v.d + temp1) % 0x100000000,
    v.e, v.f, v.g⟩

/-- Wordwise sum. -/
def add (v w : Chaining) : Chaining :=
  ⟨(v.a + w.a) % 0x100000000, (v.b + w.b) % 0x100000000, (v.c + w.c) % 0x100000000,
    (v.d + w.d) % 0x100000000, (v.e + w.e) % 0x100000000, (v.f + w.f) % 0x100000000,
    (v.g + w.g) % 0x100000000, (v.h + w.h) % 0x100000000⟩

def toBytes (v : Chaining) : List UInt8 :=
  toBE 4 v.a ++ toBE 4 v.b ++ toBE 4 v.c ++ toBE 4 v.d ++
    toBE 4 v.e ++ toBE 4 v.f ++ toBE 4 v.g ++ toBE 4 v.h

end Chaining

/-- The next word of the message schedule, after the sixteen latest ones. -/
def scheduleWord (window : List Nat) : Nat :=
  let early := window.getD 1 0
  let late := window.getD 14 0
  let small0 := rotateRight 7 early ^^^ rotateRight 18 early ^^^ (early >>> 3)
  let small1 := rotateRight 17 late ^^^ rotateRight 19 late ^^^ (late >>> 10)
  (window.getD 0 0 + small0 + window.getD 9 0 + small1) % 0x100000000

/-- The rounds, with the window of schedule words that moves along. -/
def rounds : List Nat → List Nat → Chaining → Chaining
  | [], _, v => v
  | constant :: rest, window, v =>
      rounds rest (window.drop 1 ++ [scheduleWord window]) (v.round constant (window.getD 0 0))

/-- Compress one block of sixteen words. -/
def compress (v : Chaining) (block : List Nat) : Chaining :=
  v.add (rounds roundConstants block v)

/-- Compress a number of blocks. -/
def compressAll : Nat → List Nat → Chaining → Chaining
  | 0, _, v => v
  | count + 1, words, v => compressAll count (words.drop 16) (compress v (words.take 16))

/-- Big-endian words of a byte string. -/
def toWords : List UInt8 → List Nat
  | b0 :: b1 :: b2 :: b3 :: rest =>
      (((b0.toNat * 256 + b1.toNat) * 256 + b2.toNat) * 256 + b3.toNat) :: toWords rest
  | _ => []

/-- The message with its end mark, zeros and bit length. -/
def padMessage (message : List UInt8) : List UInt8 :=
  message ++ [0x80] ++ List.replicate ((119 - message.length % 64) % 64) 0 ++
    toBE 8 (8 * message.length)

theorem Chaining.length_toBytes (v : Chaining) : v.toBytes.length = 32 := by
  simp [toBytes]

/-- SHA-256. -/
def sha256 (message : List UInt8) : Vector UInt8 32 :=
  let padded := padMessage message
  let result := compressAll (padded.length / 64) (toWords padded) Chaining.initial
  ⟨result.toBytes.toArray, result.length_toBytes⟩

set_option maxRecDepth 4000 in
example : (sha256 [0x61, 0x62, 0x63]).toList = [
    0xba, 0x78, 0x16, 0xbf, 0x8f, 0x01, 0xcf, 0xea, 0x41, 0x41, 0x40, 0xde, 0x5d, 0xae, 0x22, 0x23,
    0xb0, 0x03, 0x61, 0xa3, 0x96, 0x17, 0x7a, 0x9c, 0xb4, 0x10, 0xff, 0x61, 0xf2, 0x00, 0x15, 0xad]
    := by
  decide +kernel

end ZcashSoloPool.Crypto
