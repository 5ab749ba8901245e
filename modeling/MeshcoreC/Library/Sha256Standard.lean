import MeshcoreC.Library.Buffers
import MeshcoreC.Library.IteratedHash

/-! # SHA-256 as a standard

The hash function without tables and arrays: eight registers, the message schedule as a recurrence,
constants from the roots of primes, and padding of the whole message.

* **`compress`** — one block.
* **`pad`** — a one bit, zeros, and the number of bits of the message.
* **`digest`** — the hash of a message. -/

namespace Sha2

open Buffers Hashes

/-! ## Functions on words -/

/-- Rotation to the right. -/
def rotr (n x : UInt32) : UInt32 := x >>> n ||| x <<< (32 - n)

/-- Choice: the bits of `y` where those of `x` are set, those of `z` elsewhere. -/
def ch (x y z : UInt32) : UInt32 := x &&& y ^^^ ~~~x &&& z

/-- Majority. -/
def maj (x y z : UInt32) : UInt32 := x &&& y ^^^ x &&& z ^^^ y &&& z

/-- The large sigma of the first register. -/
def bigSigma0 (x : UInt32) : UInt32 := rotr 2 x ^^^ rotr 13 x ^^^ rotr 22 x

/-- The large sigma of the fifth register. -/
def bigSigma1 (x : UInt32) : UInt32 := rotr 6 x ^^^ rotr 11 x ^^^ rotr 25 x

/-- The small sigma of the schedule, 15 words back. -/
def sigma0 (x : UInt32) : UInt32 := rotr 7 x ^^^ rotr 18 x ^^^ x >>> 3

/-- The small sigma of the schedule, two words back. -/
def sigma1 (x : UInt32) : UInt32 := rotr 17 x ^^^ rotr 19 x ^^^ x >>> 10

/-! ## Constants -/

/-- The first 64 primes. -/
def primes : List ℕ := (List.range 312).filter fun p => 2 ≤ p ∧ ∀ d < p, 2 ≤ d → p % d ≠ 0

/-- The largest `k'` with `k' ^ e ≤ n` that differs from `k` only in its `b` lowest bits, which are
zero in `k`. -/
def root (e n : ℕ) : ℕ → ℕ → ℕ
  | 0, k => k
  | b + 1, k => if (k + 2 ^ b) ^ e ≤ n then root e n b (k + 2 ^ b) else root e n b k

/-- The first 32 bits of the fractional part of the root of a prime below 512 with exponent `e`. -/
def rootFraction (e p : ℕ) : UInt32 := UInt32.ofNat (root e (p * 2 ^ (32 * e)) 37 0)

/-- The constant of a round: from the cube root of a prime. -/
def roundConstant (t : ℕ) : UInt32 := rootFraction 3 (primes.getD t 0)

/-! ## Compression -/

/-- The eight words of a state. -/
@[ext]
structure Registers where
  a : UInt32
  b : UInt32
  c : UInt32
  d : UInt32
  e : UInt32
  f : UInt32
  g : UInt32
  h : UInt32
  deriving DecidableEq, Repr

/-- The state in front of the first block: from the square roots of the first eight primes. -/
def initial : Registers where
  a := rootFraction 2 2
  b := rootFraction 2 3
  c := rootFraction 2 5
  d := rootFraction 2 7
  e := rootFraction 2 11
  f := rootFraction 2 13
  g := rootFraction 2 17
  h := rootFraction 2 19

/-- A big-endian word. -/
def wordOf (bytes : List UInt8) : UInt32 := UInt32.ofNat (ofLeBytes bytes.reverse)

/-- The message schedule. -/
def schedule (block : List UInt8) (t : ℕ) : UInt32 :=
  if t < 16 then wordOf ((block.drop (4 * t)).take 4)
  else
    sigma1 (schedule block (t - 2)) + schedule block (t - 7) +
      sigma0 (schedule block (t - 15)) + schedule block (t - 16)
termination_by t

/-- The first 16 words are those of the block. -/
theorem schedule_of_lt (block : List UInt8) {t : ℕ} (h : t < 16) :
    schedule block t = wordOf ((block.drop (4 * t)).take 4) := by
  rw [schedule, if_pos h]

/-- The recurrence of the other words. -/
theorem schedule_of_le (block : List UInt8) {t : ℕ} (h : 16 ≤ t) :
    schedule block t =
      sigma1 (schedule block (t - 2)) + schedule block (t - 7) +
        sigma0 (schedule block (t - 15)) + schedule block (t - 16) := by
  rw [schedule, if_neg (not_lt.mpr h)]

/-- One round. -/
def round (block : List UInt8) (r : Registers) (t : ℕ) : Registers :=
  let t1 := r.h + bigSigma1 r.e + ch r.e r.f r.g + roundConstant t + schedule block t
  let t2 := bigSigma0 r.a + maj r.a r.b r.c
  { a := t1 + t2, b := r.a, c := r.b, d := r.c, e := r.d + t1, f := r.e, g := r.f, h := r.g }

/-- Word by word. -/
def add (r r' : Registers) : Registers where
  a := r.a + r'.a
  b := r.b + r'.b
  c := r.c + r'.c
  d := r.d + r'.d
  e := r.e + r'.e
  f := r.f + r'.f
  g := r.g + r'.g
  h := r.h + r'.h

/-- One block of 64 bytes. -/
def compress (r : Registers) (block : List UInt8) : Registers :=
  add r ((List.range 64).foldl (round block) r)

/-! ## Messages -/

/-- A number in eight big-endian bytes. -/
def lengthBytes (n : ℕ) : List UInt8 := (leBytes 8 n).reverse

/-- What is put behind a message of some length. -/
def padding (length : ℕ) : List UInt8 :=
  0x80 :: List.replicate ((119 - length % 64) % 64) 0 ++ lengthBytes (8 * length)

/-- The padded message. -/
def pad (message : List UInt8) : List UInt8 := message ++ padding message.length

/-- The words of a state, one after the other. -/
def bytes (r : Registers) : List UInt8 :=
  [r.a, r.b, r.c, r.d, r.e, r.f, r.g, r.h].flatMap fun w => (leBytes 4 w.toNat).reverse

/-- The hash of a message. -/
def digest (message : List UInt8) : List UInt8 :=
  bytes (absorb compress 64 initial (pad message)).1

/-- A hash has 32 bytes. -/
@[simp] theorem length_digest (message : List UInt8) : (digest message).length = 32 := by
  simp [digest, bytes]

end Sha2
