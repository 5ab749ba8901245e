import MeshcoreC.Crypto.AesChaining

/-! # Counter mode

`AES_CTR_xcrypt_buffer`: a loop over bytes that encrypts `Iv` and counts it up whenever the last
encrypted `Iv` is used up.

* **`counterOf_incrementIv`** — the inner loop adds one to `Iv`, read as a big-endian number of 128
  bits, and wraps around.
* **`aesCtr_eq`** — every byte is masked with the byte of the key stream that its index alone says.
* **`aesCtr_involutive`** — the same call again undoes it.
* **`aesCtr_split`** — a buffer may be given in pieces of whole blocks.
* **`keyStream_blocks_distinct`** — no block of the key stream comes twice before the counter has
  gone round. -/

namespace MeshcoreC.Crypto

open Buffers Loops Ciphers Wire

/-! ## The loops -/

/-- The inner loop of `AES_CTR_xcrypt_buffer`, from byte `bi - 1` of `Iv` down: overflowing bytes
become zero. -/
def incrementFrom : ℕ → Block → Block
  | 0, iv => iv
  | bi + 1, iv =>
    if view iv bi = 255 then incrementFrom bi (iv.setIfInBounds bi 0)
    else iv.setIfInBounds bi (view iv bi + 1)

/-- `Iv` after one run of the inner loop. -/
def incrementIv (iv : Block) : Block := incrementFrom aesBlocklen iv

/-- The variables of `AES_CTR_xcrypt_buffer`. -/
structure CtrState where
  ctx : AesCtx
  /-- The local array `buffer`. -/
  buffer : Block
  bi : ℕ
  buf : Memory

/-- The body of the outer loop, and `++bi`. -/
def ctrByte (s : CtrState) (i : ℕ) : CtrState :=
  let s :=
    if s.bi = aesBlocklen then
      { s with
        buffer := cipher s.ctx.iv s.ctx.roundKey
        ctx := aesCtxSetIv s.ctx (incrementIv s.ctx.iv)
        bi := 0 }
    else s
  { s with
    buf := Function.update s.buf i (s.buf i ^^^ view s.buffer s.bi)
    bi := s.bi + 1 }

/-- `AES_CTR_xcrypt_buffer`, with what the local array `buffer` happens to hold at the start. -/
def aesCtrXcryptBuffer (buffer : Block) (ctx : AesCtx) (buf : Memory) (length : ℕ) :
    AesCtx × Memory :=
  let s := (List.range length).foldl ctrByte ⟨ctx, buffer, aesBlocklen, buf⟩
  (s.ctx, s.buf)

/-! ## The counter -/

/-- The first `n` bytes of a block as a big-endian number. -/
def counterFront (n : ℕ) (iv : Block) : ℕ := ofLeBytes (slice (view iv) 0 n).reverse

/-- A block as a big-endian number. -/
def counterOf (iv : Block) : ℕ := counterFront aesBlocklen iv

/-- The block with a big-endian number, modulo `2 ^ 128`. -/
def counterBlock (n : ℕ) : Block :=
  blit (Vector.replicate aesBlocklen 0) (leBytes aesBlocklen n).reverse

/-- One byte more is one digit more, at the low end. -/
theorem counterFront_succ (n : ℕ) (iv : Block) :
    counterFront (n + 1) iv = (view iv n).toNat + 256 * counterFront n iv := by
  rw [counterFront, slice_add, Nat.zero_add, slice_one, List.reverse_append,
    List.reverse_singleton, List.singleton_append, ofLeBytes_cons, counterFront]

/-- The front of a block is a number of as many bytes. -/
theorem counterFront_lt (n : ℕ) (iv : Block) : counterFront n iv < 256 ^ n := by
  have hlt := ofLeBytes_lt (slice (view iv) 0 n).reverse
  rwa [List.length_reverse, length_slice] at hlt

/-- Bytes behind the front do not count. -/
theorem counterFront_setIfInBounds {n : ℕ} (hn : n < aesBlocklen) (iv : Block) (b : UInt8) :
    counterFront n (iv.setIfInBounds n b) = counterFront n iv := by
  rw [counterFront, view_setIfInBounds _ _ hn, slice_update_of_le _ _ _ _ _ (by omega),
    counterFront]

/-- The inner loop leaves the bytes behind its start alone. -/
theorem view_incrementFrom_of_le {n k : ℕ} (hn : n ≤ aesBlocklen) (hk : n ≤ k) (iv : Block) :
    view (incrementFrom n iv) k = view iv k := by
  induction n generalizing iv with
  | zero => rfl
  | succ n ih =>
      have hlt : n < aesBlocklen := hn
      rw [incrementFrom]
      split
      · rw [ih (by omega) (by omega), view_setIfInBounds _ _ hlt,
          Function.update_of_ne (by omega)]
      · rw [view_setIfInBounds _ _ hlt, Function.update_of_ne (by omega)]

/-- **The inner loop adds one**, with all the carries, to the number in front of its start. -/
theorem counterFront_incrementFrom {n : ℕ} (hn : n ≤ aesBlocklen) (iv : Block) :
    counterFront n (incrementFrom n iv) = (counterFront n iv + 1) % 256 ^ n := by
  induction n generalizing iv with
  | zero => exact (Nat.mod_one _).symm
  | succ n ih =>
      have hlt : n < aesBlocklen := hn
      rw [incrementFrom, counterFront_succ, counterFront_succ]
      by_cases hfull : view iv n = 255
      · -- the byte overflows, and the carry goes to the bytes in front of it
        rw [if_pos hfull, view_incrementFrom_of_le (by omega) le_rfl, view_setIfInBounds _ _ hlt,
          Function.update_self, ih (by omega), counterFront_setIfInBounds hlt, hfull, pow_succ',
          show (255 : UInt8).toNat + 256 * counterFront n iv + 1 = 256 * (counterFront n iv + 1) by
            rw [show (255 : UInt8).toNat = 255 from rfl]; ring, Nat.mul_mod_mul_left]
        exact Nat.zero_add _
      · have hb : (view iv n).toNat ≠ 255 := fun h => hfull (UInt8.toNat_inj.mp h)
        have hbyte := (view iv n).toNat_lt
        have hfront := counterFront_lt n iv
        rw [if_neg hfull, view_setIfInBounds _ _ hlt, Function.update_self,
          counterFront_setIfInBounds hlt, UInt8.toNat_add, pow_succ',
          show (1 : UInt8).toNat = 1 from rfl, Nat.mod_eq_of_lt (by omega),
          Nat.mod_eq_of_lt (by omega)]
        omega

/-- **`Iv` is counted up by one**, modulo `2 ^ 128`. -/
theorem counterOf_incrementIv (iv : Block) :
    counterOf (incrementIv iv) = (counterOf iv + 1) % 256 ^ aesBlocklen :=
  counterFront_incrementFrom le_rfl iv

/-- The number of a block, from the list of its bytes. -/
theorem counterOf_eq (iv : Block) : counterOf iv = ofLeBytes iv.toList.reverse := by
  rw [counterOf, counterFront]
  congr 2
  apply List.ext_getElem (by simp)
  intro i _ hi
  rw [Vector.length_toList] at hi
  rw [getElem_slice, Nat.zero_add, view_of_lt _ hi, Vector.getElem_toList]

/-- A block is the block with its number. -/
theorem counterBlock_counterOf (iv : Block) : counterBlock (counterOf iv) = iv := by
  have hbytes := leBytes_ofLeBytes iv.toList.reverse
  rw [List.length_reverse, Vector.length_toList, ← counterOf_eq] at hbytes
  apply Vector.toList_inj.mp
  rw [counterBlock, hbytes, List.reverse_reverse, toList_blit _ _ (by simp)]
  simp

/-- The number of a block that was made from a number. -/
theorem counterOf_counterBlock (n : ℕ) : counterOf (counterBlock n) = n % 256 ^ aesBlocklen := by
  rw [counterOf_eq, counterBlock, toList_blit _ _ (by simp)]
  simp [ofLeBytes_leBytes]

/-- Blocks are made from numbers modulo `2 ^ 128`. -/
theorem counterBlock_mod (n : ℕ) : counterBlock (n % 256 ^ aesBlocklen) = counterBlock n := by
  rw [← counterOf_counterBlock, counterBlock_counterOf]

/-- The inner loop goes from the block of a number to that of the next. -/
theorem incrementIv_counterBlock (n : ℕ) : incrementIv (counterBlock n) = counterBlock (n + 1) := by
  rw [← counterBlock_counterOf (incrementIv _), counterOf_incrementIv, counterBlock_mod,
    counterOf_counterBlock]
  rw [← counterBlock_mod, Nat.mod_add_mod, counterBlock_mod]

/-- `Iv` after some runs of the inner loop. -/
theorem iterate_incrementIv (iv : Block) (k : ℕ) :
    incrementIv^[k] iv = counterBlock (counterOf iv + k) := by
  induction k with
  | zero => rw [Nat.add_zero, counterBlock_counterOf, Function.iterate_zero_apply]
  | succ k ih =>
      rw [Function.iterate_succ_apply', ih, incrementIv_counterBlock, Nat.add_assoc]

/-! ## The key stream -/

/-- Block `k` of the key stream. -/
def keyBlock (ctx : AesCtx) (k : ℕ) : Block :=
  cipher (counterBlock (counterOf ctx.iv + k)) ctx.roundKey

/-- Byte `i` of the key stream: blocks one behind the other. -/
def keyByte (ctx : AesCtx) (i : ℕ) : UInt8 := view (keyBlock ctx (i / 16)) (i % 16)

/-- The key stream is that of counter mode. -/
theorem keyByte_eq_keyStream (ctx : AesCtx) (i : ℕ) :
    keyByte ctx i = (aesBlockCipher ctx.roundKey).keyStream incrementIv view 16 ctx.iv i := by
  rw [keyByte, keyBlock, BlockCipher.keyStream, iterate_incrementIv]
  rfl

variable (ctx : AesCtx) (buf : Memory)

/-- The context after `k` encrypted counters. -/
def advanced (k : ℕ) : AesCtx := aesCtxSetIv ctx (counterBlock (counterOf ctx.iv + k))

/-- The counter that is encrypted next. -/
theorem advanced_iv (k : ℕ) : (advanced ctx k).iv = counterBlock (counterOf ctx.iv + k) := rfl

/-- Advances add up. -/
theorem advanced_advanced (n k : ℕ) : advanced (advanced ctx n) k = advanced ctx (n + k) := by
  rw [advanced, advanced_iv, counterOf_counterBlock, ← counterBlock_mod, Nat.mod_add_mod,
    counterBlock_mod, Nat.add_assoc]
  rfl

/-- No advance. -/
theorem advanced_zero : advanced ctx 0 = ctx := by
  rw [advanced, Nat.add_zero, counterBlock_counterOf]
  rfl

/-- One run of the inner loop. -/
theorem advanced_succ (k : ℕ) :
    aesCtxSetIv (advanced ctx k) (incrementIv (advanced ctx k).iv) = advanced ctx (k + 1) := by
  rw [advanced_iv, incrementIv_counterBlock, Nat.add_assoc]
  rfl

/-- **The key stream starts over at every block**, from the counter that was advanced so far. -/
theorem keyByte_advanced (n i : ℕ) : keyByte (advanced ctx n) i = keyByte ctx (16 * n + i) := by
  rw [keyByte_eq_keyStream, keyByte_eq_keyStream, BlockCipher.keyStream_add _ _ _ _ (by decide),
    iterate_incrementIv]
  rfl

/-! ## The outer loop -/

/-- The invariant in front of byte `i`: the counters of all blocks that were begun are used up, and
`buffer` is the last of their encryptions, used up to `bi`. -/
structure Counting (i : ℕ) (s : CtrState) : Prop where
  context : s.ctx = advanced ctx (blockCount i)
  index : s.bi + 16 * blockCount i = i + 16
  full : s.bi ≤ 16
  current : 0 < i → s.buffer = keyBlock ctx (blockCount i - 1)
  masked : s.buf = fun j => if j < i then buf j ^^^ keyByte ctx j else buf j

variable {ctx buf}

/-- Byte `i` of the buffer is masked. -/
theorem update_masked {i : ℕ} {out : Memory} {b : UInt8} (hb : b = keyByte ctx i)
    (hout : out = fun j => if j < i then buf j ^^^ keyByte ctx j else buf j) :
    Function.update out i (out i ^^^ b) =
      fun j => if j < i + 1 then buf j ^^^ keyByte ctx j else buf j := by
  subst hb hout
  funext j
  rw [Function.update_apply]
  by_cases hj : j = i
  · subst hj
    simp
  · rw [if_neg hj]
    by_cases hlt : j < i
    · rw [if_pos hlt, if_pos (by omega)]
    · rw [if_neg hlt, if_neg (by omega)]

/-- **One iteration masks one byte.** -/
theorem Counting.step {i : ℕ} {s : CtrState} (h : Counting ctx buf i s) :
    Counting ctx buf (i + 1) (ctrByte s i) := by
  have hindex := h.index
  have hcount : blockCount i = (i + 15) / 16 := rfl
  have hcountSucc : blockCount (i + 1) = (i + 1 + 15) / 16 := rfl
  rw [ctrByte]
  by_cases hfull : s.bi = 16
  · -- a block of the key stream is used up, or there is none yet
    have hnext : blockCount (i + 1) = blockCount i + 1 := by omega
    have hkey : cipher s.ctx.iv s.ctx.roundKey = keyBlock ctx (blockCount i) := by
      rw [h.context]
      rfl
    rw [if_pos hfull]
    refine ⟨?_, ?_, ?_, ?_, ?_⟩
    · rw [hnext, ← advanced_succ, ← h.context]
    · show 0 + 1 + 16 * blockCount (i + 1) = i + 1 + 16
      omega
    · show 0 + 1 ≤ 16
      omega
    · intro _
      rw [hnext, Nat.add_sub_cancel, ← hkey]
    · apply update_masked _ h.masked
      rw [hkey, keyByte, show i / 16 = blockCount i by omega, show i % 16 = 0 by omega]
  · have hlt : s.bi < 16 := lt_of_le_of_ne h.full hfull
    have hpos : 0 < i := by omega
    have hsame : blockCount (i + 1) = blockCount i := by omega
    rw [if_neg hfull]
    refine ⟨?_, ?_, ?_, ?_, ?_⟩
    · rw [hsame, h.context]
    · show s.bi + 1 + 16 * blockCount (i + 1) = i + 1 + 16
      omega
    · exact hlt
    · intro _
      rw [hsame, h.current hpos]
    · apply update_masked _ h.masked
      rw [h.current hpos, keyByte, show i / 16 = blockCount i - 1 by omega,
        show i % 16 = s.bi by omega]

variable (ctx buf) (buffer : Block) (length : ℕ)

/-- The invariant holds behind the last iteration. -/
theorem counting_loop :
    Counting ctx buf length
      ((List.range length).foldl ctrByte ⟨ctx, buffer, aesBlocklen, buf⟩) := by
  have hstart : Counting ctx buf 0 ⟨ctx, buffer, aesBlocklen, buf⟩ :=
    ⟨(advanced_zero ctx).symm, rfl, le_rfl, fun h => absurd h (lt_irrefl 0), by simp⟩
  have hloop := range'_induction (n := length) (fun i _ _ s h => Counting.step (i := i) (s := s) h)
    hstart
  rwa [Nat.zero_add, ← List.range_eq_range'] at hloop

/-- **Every byte up to the length is masked with the byte of the key stream at its index**, and the
counter is advanced by the number of blocks that were begun; what the local array held does not
matter. -/
theorem aesCtr_eq :
    aesCtrXcryptBuffer buffer ctx buf length =
      (advanced ctx (blockCount length),
        fun j => if j < length then buf j ^^^ keyByte ctx j else buf j) := by
  have hloop := counting_loop ctx buf buffer length
  rw [aesCtrXcryptBuffer]
  exact Prod.ext hloop.context hloop.masked

/-! ## Buffers -/

/-- **The same call again undoes it**, from a context with the same keys and `Iv`, and leaves the
same context. -/
theorem aesCtr_involutive (buffer' : Block) :
    aesCtrXcryptBuffer buffer' ctx (aesCtrXcryptBuffer buffer ctx buf length).2 length =
      ((aesCtrXcryptBuffer buffer ctx buf length).1, buf) := by
  rw [aesCtr_eq, aesCtr_eq]
  apply Prod.ext
  · rfl
  · funext j
    show (if j < length then _ else _) = _
    by_cases hj : j < length
    · simp [hj]
    · simp [hj]

/-- **A buffer may be given in pieces of whole blocks.** -/
theorem aesCtr_split (n : ℕ) :
    aesCtrXcryptBuffer buffer ctx buf (16 * n + length) =
      inTwoCalls (aesCtrXcryptBuffer buffer) ctx buf (16 * n) length := by
  simp only [inTwoCalls, aesCtr_eq]
  apply Prod.ext
  · simp only [blockCount_mul, blockCount_mul_add, advanced_advanced]
  · funext j
    simp only [splice, blockCount_mul, keyByte_advanced]
    by_cases hfront : j < 16 * n
    · rw [if_pos hfront, if_pos hfront, if_pos (by omega)]
    · obtain ⟨k, rfl⟩ := Nat.exists_eq_add_of_le (not_lt.mp hfront)
      simp

/-- **No block of the key stream comes twice** before the counter has gone round. -/
theorem keyStream_blocks_distinct {j k : ℕ} (hne : j ≠ k) (hj : j < 2 ^ 128) (hk : k < 2 ^ 128) :
    keyBlock ctx j ≠ keyBlock ctx k := by
  intro h
  have hcounter := (aesBlockCipher ctx.roundKey).encrypt_injective h
  have hnumber := congrArg counterOf hcounter
  rw [counterOf_counterBlock, counterOf_counterBlock] at hnumber
  have hmod : 256 ^ aesBlocklen = 2 ^ 128 := by norm_num
  rw [hmod] at hnumber
  exact hne (Nat.ModEq.eq_of_lt_of_lt (Nat.ModEq.add_left_cancel' _ hnumber) hj hk)

/-- The first and the last block of the key stream under zeros. -/
theorem keyStream_blocks_distinct_zeros :
    keyBlock ⟨Vector.replicate 176 0, Vector.replicate 16 0⟩ 0 ≠
      keyBlock ⟨Vector.replicate 176 0, Vector.replicate 16 0⟩ (2 ^ 128 - 1) :=
  keyStream_blocks_distinct _ (by norm_num) (by norm_num) (by norm_num)

end MeshcoreC.Crypto
