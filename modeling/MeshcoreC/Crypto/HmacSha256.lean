import MeshcoreC.Crypto.Sha256Streaming

/-! # Keyed hashing

`crypto/hmac_sha256.c`. Lengths are of type `size_t`, but the hash function takes them modulo
`2 ^ 32`.

* **`hmacSha256_eq`** — for all lengths, the function is keyed hashing with the hash function that
  hashes what is left of a message when its length is taken modulo `2 ^ 32`.
* **`hmacSha256_wraps`** — so that longer data is not authenticated as a whole.
* **`hmacSha256_standard`** — for lengths that fit, it is keyed hashing with SHA-256. -/

namespace MeshcoreC.Crypto

open Buffers Wire Sha256

/-- `SHA256_BLOCK_SIZE`. -/
abbrev sha256BlockSize : ℕ := 64

/-- `SHA256_HASH_SIZE`. -/
abbrev sha256HashSize : ℕ := 32

/-- What local variables and allocated memory hold before they are written. -/
structure Uninitialised where
  context : Sha256Context
  hash : Sha256Hash
  memory : Memory

/-- Memory that holds one byte everywhere. -/
def Uninitialised.filled (b : UInt8) : Uninitialised where
  context := ⟨0, Vector.replicate 8 0, 0, Vector.replicate 64 b⟩
  hash := Vector.replicate 32 b
  memory := fun _ => b

variable (u : Uninitialised)

/-! ## The functions -/

/-- `sha256`. The length is converted to the `uint32_t` that `Sha256Update` takes. -/
def sha256 (data : Memory) (datalen : ℕ) (out : Memory) (outlen : ℕ) : Memory :=
  let ctx := sha256Initialise u.context
  let ctx := sha256Update ctx data (UInt32.ofNat datalen)
  let hash := (sha256Finalise ctx u.hash).2
  let sz := if sha256HashSize < outlen then sha256HashSize else outlen
  store out 0 (hash.toList.take sz)

/-- `H`: the hash of two pieces, one behind the other in allocated memory. -/
def h (x : Memory) (xlen : ℕ) (y : Memory) (ylen : ℕ) (out : Memory) (outlen : ℕ) : Memory :=
  let buflen := xlen + ylen
  let buf := store u.memory 0 (slice x 0 xlen)
  let buf := store buf xlen (slice y 0 ylen)
  sha256 u buf buflen out outlen

/-- The array `k`: the key, or the hash of a longer one, and zeros. -/
def keyArray (key : Memory) (keylen : ℕ) : Memory :=
  let k := fill u.memory 0 sha256BlockSize
  if sha256BlockSize < keylen then sha256 u key keylen k sha256BlockSize
  else store k 0 (slice key 0 keylen)

/-- The arrays `k_ipad` and `k_opad`. -/
def padArray (pad : UInt8) (k : Memory) : Memory := fun i =>
  if i < sha256BlockSize then fill u.memory pad sha256BlockSize i ^^^ k i else u.memory i

/-- `hmac_sha256`, with the number of bytes written. -/
def hmacSha256 (key : Memory) (keylen : ℕ) (data : Memory) (datalen : ℕ) (out : Memory)
    (outlen : ℕ) : ℕ × Memory :=
  let k := keyArray u key keylen
  let kIpad := padArray u 0x36 k
  let kOpad := padArray u 0x5c k
  let ihash := h u kIpad sha256BlockSize data datalen u.memory sha256HashSize
  let ohash := h u kOpad sha256BlockSize ihash sha256HashSize u.memory sha256HashSize
  let sz := if sha256HashSize < outlen then sha256HashSize else outlen
  (sz, store out 0 (slice ohash 0 sz))

/-! ## The hash of a length modulo `2 ^ 32` -/

/-- The hash of the front of a message that is left when its length is taken modulo `2 ^ 32`. -/
def wrappedDigest (message : List UInt8) : List UInt8 :=
  Sha2.digest (message.take (message.length % 2 ^ 32))

/-- For messages whose length fits, it is the hash. -/
theorem wrappedDigest_of_lt {message : List UInt8} (h : message.length < 2 ^ 32) :
    wrappedDigest message = Sha2.digest message := by
  rw [wrappedDigest, Nat.mod_eq_of_lt h, List.take_length]

@[simp] theorem length_wrappedDigest (message : List UInt8) :
    (wrappedDigest message).length = 32 := Sha2.length_digest _

/-- The front of a slice. -/
theorem take_slice (m : Memory) {k n : ℕ} (h : k ≤ n) :
    (slice m 0 n).take k = slice m 0 k := by
  obtain ⟨d, rfl⟩ := Nat.exists_eq_add_of_le h
  rw [slice_add, List.take_left' (length_slice ..)]

/-- What was stored at the front of memory is read back. -/
theorem slice_store_zero (m : Memory) (src : List UInt8) :
    slice (store m 0 src) 0 src.length = src := by
  simpa using slice_store_append m 0 0 src

/-- The output is no longer than a hash. -/
theorem minLen_eq (outlen : ℕ) :
    (if sha256HashSize < outlen then sha256HashSize else outlen) = min 32 outlen := by
  show (if 32 < outlen then 32 else outlen) = min 32 outlen
  split <;> omega

/-- **`sha256` writes the hash, or its front.** -/
theorem sha256_eq (data : Memory) (datalen : ℕ) (out : Memory) (outlen : ℕ) :
    sha256 u data datalen out outlen =
      store out 0 ((wrappedDigest (slice data 0 datalen)).take (min 32 outlen)) := by
  have hdigest := sha256Calculate_eq u.context data (UInt32.ofNat datalen) u.hash
  rw [UInt32.toNat_ofNat', ← take_slice data (Nat.mod_le datalen (2 ^ 32))] at hdigest
  rw [wrappedDigest, length_slice, ← hdigest, ← minLen_eq]
  rfl

/-- A written hash is read back. -/
theorem slice_sha256 (data : Memory) (datalen : ℕ) (out : Memory) :
    slice (sha256 u data datalen out 32) 0 32 = wrappedDigest (slice data 0 datalen) := by
  have hstore := slice_store_zero out (wrappedDigest (slice data 0 datalen))
  rw [length_wrappedDigest] at hstore
  rw [sha256_eq, min_self, List.take_of_length_le (by simp), hstore]

/-- **`H` writes the hash of the two pieces.** -/
theorem slice_h (x : Memory) (xlen : ℕ) (y : Memory) (ylen : ℕ) (out : Memory) :
    slice (h u x xlen y ylen out 32) 0 32 = wrappedDigest (slice x 0 xlen ++ slice y 0 ylen) := by
  have hfront := slice_store_zero u.memory (slice x 0 xlen)
  have hback := slice_store_append (store u.memory 0 (slice x 0 xlen)) 0 xlen (slice y 0 ylen)
  rw [length_slice] at hfront
  rw [length_slice, Nat.zero_add, hfront] at hback
  rw [h, slice_sha256, hback]

/-! ## The keys -/

/-- A buffer that holds a list is the list and zeros. -/
theorem slice_of_holds {m : Memory} {n : ℕ} {l : List UInt8} (hm : Holds m n l)
    (hle : l.length ≤ n) : slice m 0 n = l ++ List.replicate (n - l.length) 0 := by
  have hslice := (hm.append_zeros (n - l.length)).slice_zero (by simp; omega)
  rwa [List.length_append, List.length_replicate, Nat.add_sub_cancel' hle] at hslice

/-- **The array `k` is the key as a block.** -/
theorem slice_keyArray (key : Memory) (keylen : ℕ) :
    slice (keyArray u key keylen) 0 64 = Hashes.keyBlock wrappedDigest 64 (slice key 0 keylen) := by
  have hempty : Holds (fill u.memory 0 64) 64 [] := holds_fill _ _
  rw [keyArray, Hashes.keyBlock, length_slice]
  by_cases hlong : 64 < keylen
  · simp only [if_pos hlong]
    rw [sha256_eq]
    have hhash := hempty.store ((wrappedDigest (slice key 0 keylen)).take (min 32 64))
    rw [List.nil_append, List.take_of_length_le (by simp)] at hhash
    rw [show min 32 sha256BlockSize = 32 from rfl, List.take_of_length_le (by simp)]
    exact slice_of_holds hhash (by simp)
  · simp only [if_neg hlong]
    have hkey := hempty.store (slice key 0 keylen)
    rw [List.nil_append] at hkey
    exact slice_of_holds hkey (by rw [length_slice]; omega)

/-- The masked key. -/
theorem slice_padArray (pad : UInt8) (k : Memory) :
    slice (padArray u pad k) 0 64 = (slice k 0 64).map (pad ^^^ ·) := by
  apply List.ext_getElem (by simp)
  intro i hi _
  rw [length_slice] at hi
  simp [padArray, fill, hi]

/-! ## Keyed hashing -/

/-- **The function is keyed hashing**, truncated to the bytes that were asked for, with the hash of
lengths modulo `2 ^ 32`. What uninitialised memory holds does not matter. -/
theorem hmacSha256_eq (key : Memory) (keylen : ℕ) (data : Memory) (datalen : ℕ) (out : Memory)
    (outlen : ℕ) :
    hmacSha256 u key keylen data datalen out outlen =
      (min 32 outlen,
        store out 0 ((Hashes.hmac wrappedDigest 64 0x36 0x5c (slice key 0 keylen)
          (slice data 0 datalen)).take (min 32 outlen))) := by
  have hinner := slice_h u (padArray u 0x36 (keyArray u key keylen)) 64 data datalen u.memory
  have houter := slice_h u (padArray u 0x5c (keyArray u key keylen)) 64
    (h u (padArray u 0x36 (keyArray u key keylen)) 64 data datalen u.memory 32) 32 u.memory
  rw [slice_padArray, slice_keyArray] at hinner houter
  rw [hinner] at houter
  simp only [hmacSha256, minLen_eq]
  rw [← take_slice _ (min_le_left 32 outlen), houter]
  rfl

/-- **What does not fit 32 bits is not authenticated**: of the data, only the bytes count that are
left when its length with that of the masked key is taken modulo `2 ^ 32`. -/
theorem hmacSha256_wraps (key : Memory) (keylen : ℕ) {data data' : Memory} {datalen : ℕ}
    (out : Memory) (outlen : ℕ)
    (h : slice data 0 ((64 + datalen) % 2 ^ 32 - 64)
      = slice data' 0 ((64 + datalen) % 2 ^ 32 - 64)) :
    hmacSha256 u key keylen data datalen out outlen =
      hmacSha256 u key keylen data' datalen out outlen := by
  have hlen : (Hashes.keyBlock wrappedDigest 64 (slice key 0 keylen)).length = 64 := by
    rw [← slice_keyArray u, length_slice]
  have hle : (64 + datalen) % 2 ^ 32 - 64 ≤ datalen := by
    have hmod := Nat.mod_le (64 + datalen) (2 ^ 32)
    omega
  have hfront : ∀ m : Memory, wrappedDigest
      ((Hashes.keyBlock wrappedDigest 64 (slice key 0 keylen)).map (0x36 ^^^ ·) ++
        slice m 0 datalen)
      = Sha2.digest (((Hashes.keyBlock wrappedDigest 64 (slice key 0 keylen)).map (0x36 ^^^ ·)).take
          ((64 + datalen) % 2 ^ 32) ++ slice m 0 ((64 + datalen) % 2 ^ 32 - 64)) := fun m => by
    rw [wrappedDigest, List.length_append, List.length_map, hlen, length_slice, List.take_append,
      List.length_map, hlen, take_slice _ hle]
  rw [hmacSha256_eq, hmacSha256_eq, Hashes.hmac, Hashes.hmac]
  simp only [hfront, h]

/-- `2 ^ 32 - 64` bytes of data have the same MAC whatever they are. -/
theorem hmacSha256_wraps_all :
    hmacSha256 ⟨⟨0, Vector.replicate 8 0, 0, Vector.replicate 64 0⟩, Vector.replicate 32 0,
        fun _ => 0⟩ (fun _ => 0) 16 (fun _ => 0) (2 ^ 32 - 64) (fun _ => 0) 2 =
      hmacSha256 ⟨⟨0, Vector.replicate 8 0, 0, Vector.replicate 64 0⟩, Vector.replicate 32 0,
        fun _ => 0⟩ (fun _ => 0) 16 (fun _ => 1) (2 ^ 32 - 64) (fun _ => 0) 2 :=
  hmacSha256_wraps _ _ _ _ _ rfl

/-- **With SHA-256 itself**, when the lengths of the key and of the masked data fit 32 bits. -/
theorem hmacSha256_standard (key : Memory) {keylen : ℕ} (data : Memory) {datalen : ℕ}
    (out : Memory) (outlen : ℕ) (hkey : keylen < 2 ^ 32) (hdata : 64 + datalen < 2 ^ 32) :
    hmacSha256 u key keylen data datalen out outlen =
      (min 32 outlen,
        store out 0 ((Hashes.hmac Sha2.digest 64 0x36 0x5c (slice key 0 keylen)
          (slice data 0 datalen)).take (min 32 outlen))) := by
  have hblock : Hashes.keyBlock wrappedDigest 64 (slice key 0 keylen)
      = Hashes.keyBlock Sha2.digest 64 (slice key 0 keylen) := by
    rw [Hashes.keyBlock, Hashes.keyBlock, wrappedDigest_of_lt (by rwa [length_slice])]
  have hlen : (Hashes.keyBlock Sha2.digest 64 (slice key 0 keylen)).length = 64 := by
    rw [← hblock, ← slice_keyArray u, length_slice]
  have hsame : Hashes.hmac wrappedDigest 64 0x36 0x5c (slice key 0 keylen) (slice data 0 datalen)
      = Hashes.hmac Sha2.digest 64 0x36 0x5c (slice key 0 keylen) (slice data 0 datalen) := by
    rw [Hashes.hmac, Hashes.hmac, hblock]
    have hinner : ((Hashes.keyBlock Sha2.digest 64 (slice key 0 keylen)).map (0x36 ^^^ ·) ++
        slice data 0 datalen).length < 2 ^ 32 := by
      rwa [List.length_append, List.length_map, hlen, length_slice]
    rw [wrappedDigest_of_lt hinner, wrappedDigest_of_lt (by simp [hlen])]
  rw [hmacSha256_eq, hsame]

/-- A MAC of two bytes for the bytes of "hi", with a key of 65 bytes, which is hashed first. -/
theorem hmacSha256_standard_longKey :
    hmacSha256 (.filled 0) (fun i => UInt8.ofNat i) 65 (view #v[0x68, 0x69]) 2 (fun _ => 0) 2 =
      (2, store (fun _ => 0) 0 ((Hashes.hmac Sha2.digest 64 0x36 0x5c
        (slice (fun i => UInt8.ofNat i) 0 65) [0x68, 0x69]).take 2)) :=
  hmacSha256_standard _ _ _ _ _ (by norm_num) (by norm_num)

end MeshcoreC.Crypto
