import MeshcoreC.Library.WireProgram

/-! # SHA-256

`crypto/sha256.c`: the compression of a block, and the context that a message is given to in pieces.
-/

namespace MeshcoreC.Crypto.Sha256

open Buffers Wire

/-! ## Macros and constants -/

/-- `Sha256Context`. -/
@[ext]
structure Sha256Context where
  length : UInt64
  state : Vector UInt32 8
  curlen : UInt32
  buf : Vector UInt8 64
  deriving DecidableEq, Repr

/-- `SHA256_HASH`. -/
abbrev Sha256Hash := Vector UInt8 32

/-- `BLOCK_SIZE`. -/
abbrev blockSize : UInt32 := 64

/-- `MIN(x, y)`. -/
def minimum (x y : UInt32) : UInt32 := if x < y then x else y

/-- The macro computes the minimum. -/
theorem toNat_minimum (x y : UInt32) : (minimum x y).toNat = min x.toNat y.toNat := by
  unfold minimum
  split
  · exact (min_eq_left (UInt32.lt_iff_toNat_lt.mp ‹_›).le).symm
  · exact (min_eq_right (UInt32.le_iff_toNat_le.mp (UInt32.not_lt.mp ‹_›))).symm

/-- The minimum is at most the first number. -/
theorem minimum_le (x y : UInt32) : minimum x y ≤ x := by
  rw [UInt32.le_iff_toNat_le, toNat_minimum]
  exact min_le_left ..

/-- `ror(value, bits)`. -/
def ror (value bits : UInt32) : UInt32 := value >>> bits ||| value <<< (32 - bits)

/-- `LOAD32H`. -/
def load32h (y : Memory) : UInt32 :=
  ((y 0).toUInt32 &&& 255) <<< 24 ||| ((y 1).toUInt32 &&& 255) <<< 16 |||
    ((y 2).toUInt32 &&& 255) <<< 8 ||| ((y 3).toUInt32 &&& 255)

/-- The bytes of `STORE32H`. -/
def store32h (x : UInt32) : List UInt8 :=
  [((x >>> 24) &&& 255).toUInt8, ((x >>> 16) &&& 255).toUInt8, ((x >>> 8) &&& 255).toUInt8,
    (x &&& 255).toUInt8]

/-- The bytes of `STORE64H`. -/
def store64h (x : UInt64) : List UInt8 :=
  [((x >>> 56) &&& 255).toUInt8, ((x >>> 48) &&& 255).toUInt8, ((x >>> 40) &&& 255).toUInt8,
    ((x >>> 32) &&& 255).toUInt8, ((x >>> 24) &&& 255).toUInt8, ((x >>> 16) &&& 255).toUInt8,
    ((x >>> 8) &&& 255).toUInt8, (x &&& 255).toUInt8]

/-- The K array. -/
def kArray : Vector UInt32 64 :=
  #v[
    0x428a2f98, 0x71374491, 0xb5c0fbcf, 0xe9b5dba5, 0x3956c25b, 0x59f111f1, 0x923f82a4, 0xab1c5ed5,
    0xd807aa98, 0x12835b01, 0x243185be, 0x550c7dc3, 0x72be5d74, 0x80deb1fe, 0x9bdc06a7, 0xc19bf174,
    0xe49b69c1, 0xefbe4786, 0x0fc19dc6, 0x240ca1cc, 0x2de92c6f, 0x4a7484aa, 0x5cb0a9dc, 0x76f988da,
    0x983e5152, 0xa831c66d, 0xb00327c8, 0xbf597fc7, 0xc6e00bf3, 0xd5a79147, 0x06ca6351, 0x14292967,
    0x27b70a85, 0x2e1b2138, 0x4d2c6dfc, 0x53380d13, 0x650a7354, 0x766a0abb, 0x81c2c92e, 0x92722c85,
    0xa2bfe8a1, 0xa81a664b, 0xc24b8b70, 0xc76c51a3, 0xd192e819, 0xd6990624, 0xf40e3585, 0x106aa070,
    0x19a4c116, 0x1e376c08, 0x2748774c, 0x34b0bcb5, 0x391c0cb3, 0x4ed8aa4a, 0x5b9cca4f, 0x682e6ff3,
    0x748f82ee, 0x78a5636f, 0x84c87814, 0x8cc70208, 0x90befffa, 0xa4506ceb, 0xbef9a3f7, 0xc67178f2]

/-! ## Logical functions -/

/-- `Ch(x, y, z)`. -/
def ch (x y z : UInt32) : UInt32 := z ^^^ (x &&& (y ^^^ z))

/-- `Maj(x, y, z)`. -/
def maj (x y z : UInt32) : UInt32 := ((x ||| y) &&& z) ||| (x &&& y)

/-- `R(x, n)`. -/
def r (x n : UInt32) : UInt32 := (x &&& 0xFFFFFFFF) >>> n

/-- `Sigma0(x)`. -/
def sigma0 (x : UInt32) : UInt32 := ror x 2 ^^^ ror x 13 ^^^ ror x 22

/-- `Sigma1(x)`. -/
def sigma1 (x : UInt32) : UInt32 := ror x 6 ^^^ ror x 11 ^^^ ror x 25

/-- `Gamma0(x)`. -/
def gamma0 (x : UInt32) : UInt32 := ror x 7 ^^^ ror x 18 ^^^ r x 3

/-- `Gamma1(x)`. -/
def gamma1 (x : UInt32) : UInt32 := ror x 17 ^^^ ror x 19 ^^^ r x 10

/-! ## Compression -/

/-- `W[0..15]`, from the block. -/
def loadWords (buffer : Memory) (w : Vector UInt32 64) : Vector UInt32 64 :=
  (List.range' 0 16).foldl
    (fun w i => w.setIfInBounds i (load32h fun j => buffer (4 * i + j))) w

/-- `W[16..63]`. -/
def fillWords (w : Vector UInt32 64) : Vector UInt32 64 :=
  (List.range' 16 48).foldl
    (fun w i => w.setIfInBounds i
      (gamma1 (view w (i - 2)) + view w (i - 7) + gamma0 (view w (i - 15)) + view w (i - 16))) w

/-- The body of the loop that compresses: `Sha256Round`, and the rotation of `S`. -/
def sha256Round (w : Vector UInt32 64) (s : Vector UInt32 8) (i : ℕ) : Vector UInt32 8 :=
  let t0 := s[7] + sigma1 s[4] + ch s[4] s[5] s[6] + view kArray i + view w i
  let t1 := sigma0 s[0] + maj s[0] s[1] s[2]
  let s := s.set 3 (s[3] + t0)
  let s := s.set 7 (t0 + t1)
  let t := s[7]
  let s := s.set 7 s[6]
  let s := s.set 6 s[5]
  let s := s.set 5 s[4]
  let s := s.set 4 s[3]
  let s := s.set 3 s[2]
  let s := s.set 2 s[1]
  let s := s.set 1 s[0]
  s.set 0 t

/-- `TransformFunction`. Every element of `W` is written before it is read. -/
def transformFunction (context : Sha256Context) (buffer : Memory) : Sha256Context :=
  let s := context.state
  let w := fillWords (loadWords buffer (Vector.replicate 64 0))
  let s := (List.range' 0 64).foldl (sha256Round w) s
  { context with state := Vector.ofFn fun i => context.state[i] + s[i] }

/-! ## The context -/

/-- `Sha256Initialise`. -/
def sha256Initialise (context : Sha256Context) : Sha256Context :=
  { context with
    curlen := 0
    length := 0
    state := #v[0x6A09E667, 0xBB67AE85, 0x3C6EF372, 0xA54FF53A, 0x510E527F, 0x9B05688C,
      0x1F83D9AB, 0x5BE0CD19] }

/-- `memcpy(buf + curlen, ...)`. -/
def copyToBuf (buf : Vector UInt8 64) (curlen : ℕ) (src : List UInt8) : Vector UInt8 64 :=
  Vector.ofFn fun i => store (view buf) curlen src i

/-- The variables of `Sha256Update`; `Buffer` was advanced by `position` bytes. -/
structure UpdateState where
  context : Sha256Context
  position : ℕ
  bufferSize : UInt32

/-- A full buffer is compressed and emptied. -/
def flushBuf (context : Sha256Context) : Sha256Context :=
  if context.curlen = blockSize then
    let context := transformFunction context (view context.buf)
    { context with length := context.length + 8 * 64, curlen := 0 }
  else context

/-- The body of the loop of `Sha256Update`. -/
def updateStep (buffer : Memory) (s : UpdateState) : UpdateState :=
  let context := s.context
  if context.curlen = 0 ∧ blockSize ≤ s.bufferSize then
    let context := transformFunction context fun i => buffer (s.position + i)
    { context := { context with length := context.length + 64 * 8 }
      position := s.position + 64
      bufferSize := s.bufferSize - blockSize }
  else
    let n := minimum s.bufferSize (blockSize - context.curlen)
    let context :=
      { context with
        buf := copyToBuf context.buf context.curlen.toNat (slice buffer s.position n.toNat)
        curlen := context.curlen + n }
    { context := flushBuf context
      position := s.position + n.toNat
      bufferSize := s.bufferSize - n }

/-- The buffer is never left full. -/
theorem curlen_flushBuf_ne (context : Sha256Context) : (flushBuf context).curlen ≠ blockSize := by
  unfold flushBuf
  by_cases h : context.curlen = blockSize
  · simp only [if_pos h]
    decide
  · rwa [if_neg h]

/-- What gets smaller in every iteration: an iteration that takes no bytes empties a full buffer. -/
def UpdateState.measure (s : UpdateState) : ℕ :=
  2 * s.bufferSize.toNat + if s.context.curlen = blockSize then 1 else 0

/-- Every iteration of `Sha256Update` takes bytes, or empties a full buffer. -/
theorem measure_updateStep_lt (buffer : Memory) (s : UpdateState) (h : 0 < s.bufferSize) :
    (updateStep buffer s).measure < s.measure := by
  have hsize : 0 < s.bufferSize.toNat := UInt32.lt_iff_toNat_lt.mp h
  unfold updateStep
  by_cases hblock : s.context.curlen = 0 ∧ blockSize ≤ s.bufferSize
  · have hle : 64 ≤ s.bufferSize.toNat := UInt32.le_iff_toNat_le.mp hblock.2
    have hsub := UInt32.toNat_sub_of_le _ _ hblock.2
    have hempty : s.context.curlen ≠ blockSize := by rw [hblock.1]; decide
    have h64 : (blockSize : UInt32).toNat = 64 := rfl
    simp only [if_pos hblock, UpdateState.measure, transformFunction, if_neg hempty, hsub]
    omega
  · have hle := minimum_le s.bufferSize (blockSize - s.context.curlen)
    have hsub := UInt32.toNat_sub_of_le _ _ hle
    have hnle := UInt32.le_iff_toNat_le.mp hle
    simp only [if_neg hblock, UpdateState.measure, if_neg (curlen_flushBuf_ne _), hsub]
    by_cases hfull : s.context.curlen = blockSize
    · rw [if_pos hfull]
      omega
    · have hfree : 0 < (blockSize - s.context.curlen).toNat := by
        apply Nat.pos_of_ne_zero
        intro h0
        have hzero : blockSize - s.context.curlen = 0 := UInt32.toNat_inj.mp h0
        rw [UInt32.sub_eq_iff_eq_add, UInt32.zero_add] at hzero
        exact hfull hzero.symm
      rw [toNat_minimum] at hnle ⊢
      omega

/-- The loop of `Sha256Update`. -/
def updateLoop (buffer : Memory) (s : UpdateState) : UpdateState :=
  if _h : 0 < s.bufferSize then updateLoop buffer (updateStep buffer s) else s
termination_by s.measure
decreasing_by exact measure_updateStep_lt buffer s _h

/-- `Sha256Update`. -/
def sha256Update (context : Sha256Context) (buffer : Memory) (bufferSize : UInt32) :
    Sha256Context :=
  if 64 < context.curlen then context
  else (updateLoop buffer ⟨context, 0, bufferSize⟩).context

/-- `Context->buf[Context->curlen++] = b`. -/
def appendByte (context : Sha256Context) (b : UInt8) : Sha256Context :=
  { context with
    buf := context.buf.setIfInBounds context.curlen.toNat b
    curlen := context.curlen + 1 }

/-- The index behind an appended byte. -/
theorem toNat_curlen_appendByte {context : Sha256Context} {limit : UInt32}
    (h : context.curlen < limit) (b : UInt8) :
    (appendByte context b).curlen.toNat = context.curlen.toNat + 1 := by
  have hlt := UInt32.lt_iff_toNat_lt.mp h
  have hlimit := limit.toNat_lt
  rw [appendByte, UInt32.toNat_add, show (1 : UInt32).toNat = 1 from rfl,
    Nat.mod_eq_of_lt (by omega)]

/-- `while (Context->curlen < limit)`, zero bytes are appended. -/
def appendZeros (limit : UInt32) (context : Sha256Context) : Sha256Context :=
  if _h : context.curlen < limit then appendZeros limit (appendByte context 0) else context
termination_by limit.toNat - context.curlen.toNat
decreasing_by
  have hlt := UInt32.lt_iff_toNat_lt.mp _h
  rw [toNat_curlen_appendByte _h]
  omega

/-- A block without room for the length is filled with zeros and compressed. -/
def makeRoom (context : Sha256Context) : Sha256Context :=
  if 56 < context.curlen then
    let context := appendZeros 64 context
    let context := transformFunction context (view context.buf)
    { context with curlen := 0 }
  else context

/-- `Sha256Finalise`. A context that is not in order leaves the digest alone. -/
def sha256Finalise (context : Sha256Context) (digest : Sha256Hash) : Sha256Context × Sha256Hash :=
  if 64 ≤ context.curlen then (context, digest)
  else
    let context := { context with length := context.length + (context.curlen * 8).toUInt64 }
    let context := appendByte context 0x80
    let context := makeRoom context
    let context := appendZeros 56 context
    let context :=
      { context with buf := copyToBuf context.buf 56 (store64h context.length) }
    let context := transformFunction context (view context.buf)
    (context, blit digest (context.state.toList.flatMap store32h))

/-- `Sha256Calculate`, with what the local context happens to hold at the start. -/
def sha256Calculate (context : Sha256Context) (buffer : Memory) (bufferSize : UInt32)
    (digest : Sha256Hash) : Sha256Hash :=
  (sha256Finalise (sha256Update (sha256Initialise context) buffer bufferSize) digest).2

end MeshcoreC.Crypto.Sha256
