import MeshcoreC.Crypto.AesInverse
import MeshcoreC.Library.WhileLoop
import MeshcoreC.Library.WireProgram

/-! # Cipher block chaining

`AES_CBC_encrypt_buffer` and `AES_CBC_decrypt_buffer`, which change a buffer in place. A length that
is no multiple of 16 is rounded up, so the last block may reach past it.

* **`chained_encrypt`** / **`chained_decrypt`** — the loops are the mode of operation on the blocks
  of the buffer; `Iv` may point into the buffer, at the block in front of the current one.
* **`aesCbc_inverse`** — each direction undoes the other, the context included.
* **`aesCbc_split`** — a buffer may be given in pieces of whole blocks, since the context carries
  the last cipher block over. -/

namespace MeshcoreC.Crypto

open Buffers Loops Ciphers Wire

/-! ## The loops -/

/-- `XorWithIv`. -/
def xorWithIv (buf iv : Block) : Block := buf.zipWith (· ^^^ ·) iv

/-- The block at an address. -/
def blockAt (buf : Memory) (pos : ℕ) : Block := Vector.ofFn fun i => buf (pos + i)

/-- The block at an address is replaced. -/
def putBlock (buf : Memory) (pos : ℕ) (block : Block) : Memory := store buf pos block.toList

/-- The number of iterations of `for (i = 0; i < length; i += AES_BLOCKLEN)`. -/
def blockCount (length : ℕ) : ℕ := (length + 15) / 16

/-- What the pointer `Iv` points to: the context, or the buffer from an index on. -/
inductive IvPointer
  | context
  | buffer (pos : ℕ)
  deriving DecidableEq, Repr

/-- The block that `Iv` points to. -/
def IvPointer.deref (ctx : AesCtx) (buf : Memory) : IvPointer → Block
  | context => ctx.iv
  | buffer pos => blockAt buf pos

/-- The body of the loop of `AES_CBC_encrypt_buffer`, on `Iv` and the buffer. -/
def cbcEncryptBlock (ctx : AesCtx) (s : IvPointer × Memory) (pos : ℕ) : IvPointer × Memory :=
  let (iv, buf) := s
  let buf := putBlock buf pos (xorWithIv (blockAt buf pos) (iv.deref ctx buf))
  let buf := putBlock buf pos (cipher (blockAt buf pos) ctx.roundKey)
  (.buffer pos, buf)

/-- `AES_CBC_encrypt_buffer`. -/
def aesCbcEncryptBuffer (ctx : AesCtx) (buf : Memory) (length : ℕ) : AesCtx × Memory :=
  let (iv, buf) :=
    (List.range' 0 (blockCount length) aesBlocklen).foldl (cbcEncryptBlock ctx) (.context, buf)
  ({ ctx with iv := iv.deref ctx buf }, buf)

/-- The body of the loop of `AES_CBC_decrypt_buffer`. -/
def cbcDecryptBlock (s : AesCtx × Memory) (pos : ℕ) : AesCtx × Memory :=
  let (ctx, buf) := s
  let storeNextIv := blockAt buf pos
  let buf := putBlock buf pos (invCipher (blockAt buf pos) ctx.roundKey)
  let buf := putBlock buf pos (xorWithIv (blockAt buf pos) ctx.iv)
  ({ ctx with iv := storeNextIv }, buf)

/-- `AES_CBC_decrypt_buffer`. -/
def aesCbcDecryptBuffer (ctx : AesCtx) (buf : Memory) (length : ℕ) : AesCtx × Memory :=
  (List.range' 0 (blockCount length) aesBlocklen).foldl cbcDecryptBlock (ctx, buf)

/-! ## Memory as blocks -/

/-- The blocks of a buffer. -/
def blocksOf (buf : Memory) : ℕ → Block := fun k => blockAt buf (aesBlocklen * k)

/-- The bytes of a block. -/
theorem getElem_blocksOf (buf : Memory) (k : ℕ) {i : ℕ} (hi : i < 16) :
    (blocksOf buf k)[i] = buf (16 * k + i) := by
  rw [blocksOf, blockAt, Vector.getElem_ofFn]

/-- A byte, from its block. -/
theorem eq_view_blocksOf (buf : Memory) (i : ℕ) :
    buf i = view (blocksOf buf (i / 16)) (i % 16) := by
  rw [view_of_lt _ (Nat.mod_lt i (by decide)), getElem_blocksOf _ _ (Nat.mod_lt i (by decide)),
    Nat.div_add_mod]

/-- A buffer is determined by its blocks. -/
theorem blocksOf_injective : Function.Injective blocksOf := by
  intro buf buf' h
  funext i
  rw [eq_view_blocksOf buf, eq_view_blocksOf buf', h]

/-- A stored block is one element in the buffer of blocks. -/
theorem blocksOf_putBlock (buf : Memory) (k : ℕ) (block : Block) :
    blocksOf (putBlock buf (aesBlocklen * k) block) = Function.update (blocksOf buf) k block := by
  funext j
  apply Vector.ext
  intro i hi
  rw [aesBlocklen] at hi
  rw [getElem_blocksOf _ _ hi, putBlock, store, Function.update_apply]
  rw [show aesBlocklen * k = 16 * k from rfl]
  by_cases hj : j = k
  · subst hj
    simp [hi]
  · rw [if_neg hj, getElem_blocksOf _ _ hi]
    split
    · rw [List.getElem?_eq_none (by simp only [Vector.length_toList, aesBlocklen]; omega),
        Option.getD_none]
    · rfl

/-- A block that was written is read back. -/
theorem blockAt_putBlock (buf : Memory) (k : ℕ) (block : Block) :
    blockAt (putBlock buf (aesBlocklen * k) block) (aesBlocklen * k) = block := by
  have h := congrFun (blocksOf_putBlock buf k block) k
  rwa [Function.update_self] at h

/-- The blocks of a buffer from a block on. -/
theorem blocksOf_shift (buf : Memory) (n k : ℕ) :
    blocksOf (fun i => buf (16 * n + i)) k = blocksOf buf (n + k) := by
  apply Vector.ext
  intro i hi
  rw [getElem_blocksOf _ _ hi, getElem_blocksOf _ _ hi, Nat.mul_add, Nat.add_assoc]

/-- A buffer whose front is taken from one memory and whose rest is the other. -/
def splice (front : Memory) (pos : ℕ) (back : Memory) : Memory := fun i =>
  if i < pos then front i else back (i - pos)

/-- The blocks of two memories, the second behind blocks of the first. -/
theorem blocksOf_splice (front back : Memory) (n k : ℕ) :
    blocksOf (splice front (16 * n) back) k =
      if k < n then blocksOf front k else blocksOf back (k - n) := by
  apply Vector.ext
  intro i hi
  rw [aesBlocklen] at hi
  rw [getElem_blocksOf _ _ hi, splice]
  by_cases hk : k < n
  · simp only [if_pos hk, if_pos (show 16 * k + i < 16 * n by omega), getElem_blocksOf _ _ hi]
  · simp only [if_neg hk, if_neg (show ¬ 16 * k + i < 16 * n by omega), getElem_blocksOf _ _ hi]
    rw [show 16 * k + i - 16 * n = 16 * (k - n) + i by omega]

/-- The same for a list of blocks. -/
theorem slice_blocksOf_splice (front back : Memory) (n m : ℕ) :
    slice (blocksOf (splice front (16 * n) back)) 0 (n + m) =
      slice (blocksOf front) 0 n ++ slice (blocksOf back) 0 m := by
  have hfront : slice (blocksOf (splice front (16 * n) back)) 0 n = slice (blocksOf front) 0 n := by
    apply slice_congr
    intro k _ hk
    rw [blocksOf_splice, if_pos (by omega)]
  have hback : slice (blocksOf (splice front (16 * n) back)) n m = slice (blocksOf back) 0 m := by
    apply List.ext_getElem (by simp)
    intro k _ _
    rw [getElem_slice, getElem_slice, blocksOf_splice, if_neg (by omega),
      Nat.add_sub_cancel_left, Nat.zero_add]
  rw [slice_add, Nat.zero_add, hfront, hback]

/-- The blocks of the rest of a buffer. -/
theorem slice_blocksOf_shift (buf : Memory) (n m : ℕ) :
    slice (blocksOf fun i => buf (16 * n + i)) 0 m = slice (blocksOf buf) n m := by
  apply List.ext_getElem (by simp)
  intro k _ _
  rw [getElem_slice, getElem_slice, blocksOf_shift, Nat.zero_add]

/-! ## Buffers transformed block by block -/

/-- The first `n` blocks are transformed, and the rest is left alone. -/
structure Chained (F : List Block → List Block) (n : ℕ) (buf out : Memory) : Prop where
  front : slice (blocksOf out) 0 n = F (slice (blocksOf buf) 0 n)
  rest : ∀ k, n ≤ k → blocksOf out k = blocksOf buf k

namespace Chained

variable {F G : List Block → List Block} {n m : ℕ} {buf out out' : Memory}

/-- No block done. -/
theorem zero (hnil : F [] = []) : Chained F 0 buf buf := ⟨hnil.symm, fun _ _ => rfl⟩

/-- One block more. -/
theorem succ (h : Chained F n buf out) {block : Block}
    (hF : F (slice (blocksOf buf) 0 n ++ [blocksOf buf n])
      = F (slice (blocksOf buf) 0 n) ++ [block])
    (hout : blocksOf out' = Function.update (blocksOf out) n block) :
    Chained F (n + 1) buf out' where
  front := by
    have hslice := slice_update_succ (blocksOf out) 0 n block
    rw [Nat.zero_add] at hslice
    rw [hout, hslice, h.front, ← hF, slice_add, Nat.zero_add, slice_one]
  rest k hk := by
    rw [hout, Function.update_of_ne (by omega), h.rest k (by omega)]

/-- What is transformed is determined. -/
theorem unique (h : Chained F n buf out) (h' : Chained F n buf out') : out = out' := by
  apply blocksOf_injective
  funext k
  by_cases hk : k < n
  · exact eq_of_slice_eq (h.front.trans h'.front.symm) hk
  · rw [h.rest k (not_lt.mp hk), h'.rest k (not_lt.mp hk)]

/-- What is undone on lists of blocks is undone on buffers. -/
theorem inverse (h : Chained F n buf out) (h' : Chained G n out out') (hGF : ∀ l, G (F l) = l) :
    out' = buf := by
  apply blocksOf_injective
  funext k
  by_cases hk : k < n
  · apply eq_of_slice_eq _ hk
    rw [h'.front, h.front, hGF]
  · rw [h'.rest k (not_lt.mp hk), h.rest k (not_lt.mp hk)]

/-- A buffer in two pieces, the second one transformed as the first one asks for. -/
theorem splice (h : Chained F n buf out) (h' : Chained G m (fun i => out (16 * n + i)) out')
    (hFG : F (slice (blocksOf buf) 0 n ++ slice (blocksOf buf) n m)
      = F (slice (blocksOf buf) 0 n) ++ G (slice (blocksOf buf) n m)) :
    Chained F (n + m) buf (splice out (16 * n) out') where
  front := by
    have hsame : slice (blocksOf out) n m = slice (blocksOf buf) n m :=
      slice_congr fun k hk _ => h.rest k hk
    rw [slice_blocksOf_splice, slice_add, Nat.zero_add, hFG, h.front, h'.front,
      slice_blocksOf_shift, hsame]
  rest k hk := by
    rw [blocksOf_splice, if_neg (by omega), h'.rest _ (by omega), blocksOf_shift,
      h.rest _ (by omega), Nat.add_sub_cancel' (by omega)]

end Chained

/-! ## The loops are the mode of operation -/

/-- Masking twice with the same block does nothing. -/
theorem xorWithIv_xorWithIv (buf iv : Block) : xorWithIv (xorWithIv buf iv) iv = buf := by
  apply Vector.ext
  intro i hi
  simp [xorWithIv]

/-- The cipher under some round keys. -/
def aesBlockCipher (roundKey : RoundKeys) : BlockCipher Block where
  encrypt s := cipher s roundKey
  decrypt s := invCipher s roundKey
  mask := xorWithIv
  decrypt_encrypt := invCipher_cipher roundKey
  encrypt_decrypt := cipher_invCipher roundKey
  mask_mask := xorWithIv_xorWithIv

/-- A block put twice. -/
theorem blocksOf_putBlock_putBlock (buf : Memory) (k : ℕ) (block block' : Block) :
    blocksOf (putBlock (putBlock buf (aesBlocklen * k) block) (aesBlocklen * k) block') =
      Function.update (blocksOf buf) k block' := by
  rw [blocksOf_putBlock, blocksOf_putBlock, Function.update_idem]

variable (ctx : AesCtx) (buf : Memory) (length : ℕ)

/-- The invariant of encryption: the blocks so far are encrypted, and `Iv` points to the last one of
them. -/
structure Encrypting (n : ℕ) (s : IvPointer × Memory) : Prop where
  chained : Chained ((aesBlockCipher ctx.roundKey).cbcEncrypt ctx.iv) n buf s.2
  iv : s.1.deref ctx s.2 = BlockCipher.nextIv ctx.iv (slice (blocksOf s.2) 0 n)

/-- The invariant of decryption: the blocks so far are decrypted, and the context holds what was in
the place of the last one of them. -/
structure Decrypting (n : ℕ) (s : AesCtx × Memory) : Prop where
  chained : Chained ((aesBlockCipher ctx.roundKey).cbcDecrypt ctx.iv) n buf s.2
  context : s.1 = aesCtxSetIv ctx (BlockCipher.nextIv ctx.iv (slice (blocksOf buf) 0 n))

variable {ctx buf}

/-- The last one of some blocks in front of which others stand. -/
theorem nextIv_slice_succ (iv : Block) (buf : Memory) (n : ℕ) :
    BlockCipher.nextIv iv (slice (blocksOf buf) 0 (n + 1)) = blocksOf buf n := by
  rw [slice_add, Nat.zero_add, slice_one, BlockCipher.nextIv_append, BlockCipher.nextIv_cons,
    BlockCipher.nextIv_nil]

/-- **One iteration of the encryption.** -/
theorem Encrypting.step {n : ℕ} {s : IvPointer × Memory} (h : Encrypting ctx buf n s) :
    Encrypting ctx buf (n + 1) (cbcEncryptBlock ctx s (aesBlocklen * n)) := by
  obtain ⟨iv, out⟩ := s
  have hblock : blockAt out (aesBlocklen * n) = blocksOf buf n := h.chained.rest n le_rfl
  rw [cbcEncryptBlock]
  simp only [blockAt_putBlock, hblock]
  have hout := blocksOf_putBlock_putBlock out n (xorWithIv (blocksOf buf n) (iv.deref ctx out))
    (cipher (xorWithIv (blocksOf buf n) (iv.deref ctx out)) ctx.roundKey)
  constructor
  · apply h.chained.succ _ hout
    rw [BlockCipher.cbcEncrypt_concat, ← h.chained.front, ← h.iv]
    rfl
  · rw [nextIv_slice_succ]
    rfl

/-- **One iteration of the decryption.** -/
theorem Decrypting.step {n : ℕ} {s : AesCtx × Memory} (h : Decrypting ctx buf n s) :
    Decrypting ctx buf (n + 1) (cbcDecryptBlock s (aesBlocklen * n)) := by
  obtain ⟨ctx', out⟩ := s
  obtain ⟨hchained, rfl⟩ := h
  have hblock : blockAt out (aesBlocklen * n) = blocksOf buf n := hchained.rest n le_rfl
  rw [cbcDecryptBlock]
  simp only [blockAt_putBlock, hblock]
  constructor
  · apply hchained.succ _ (blocksOf_putBlock_putBlock ..)
    rw [BlockCipher.cbcDecrypt_concat]
    rfl
  · rw [nextIv_slice_succ]
    rfl

variable (ctx buf)

/-- The invariant holds behind every number of iterations. -/
theorem encrypting_loop (n : ℕ) :
    Encrypting ctx buf n
      ((List.range' 0 n aesBlocklen).foldl (cbcEncryptBlock ctx) (.context, buf)) := by
  apply strided_induction
  · intro k _ s h
    rw [Nat.zero_add]
    exact h.step
  · exact ⟨.zero rfl, rfl⟩

/-- The same for decryption. -/
theorem decrypting_loop (n : ℕ) :
    Decrypting ctx buf n ((List.range' 0 n aesBlocklen).foldl cbcDecryptBlock (ctx, buf)) := by
  apply strided_induction
  · intro k _ s h
    rw [Nat.zero_add]
    exact h.step
  · exact ⟨.zero rfl, rfl⟩

/-- **`AES_CBC_encrypt_buffer` is the mode of operation**, and leaves the last cipher block in the
context. -/
theorem chained_encrypt :
    Chained ((aesBlockCipher ctx.roundKey).cbcEncrypt ctx.iv) (blockCount length) buf
        (aesCbcEncryptBuffer ctx buf length).2 ∧
      (aesCbcEncryptBuffer ctx buf length).1 =
        aesCtxSetIv ctx (BlockCipher.nextIv ctx.iv
          (slice (blocksOf (aesCbcEncryptBuffer ctx buf length).2) 0 (blockCount length))) := by
  have hloop := encrypting_loop ctx buf (blockCount length)
  refine ⟨hloop.chained, ?_⟩
  exact congrArg (aesCtxSetIv ctx) hloop.iv

/-- **`AES_CBC_decrypt_buffer` is the mode of operation.** -/
theorem chained_decrypt :
    Chained ((aesBlockCipher ctx.roundKey).cbcDecrypt ctx.iv) (blockCount length) buf
        (aesCbcDecryptBuffer ctx buf length).2 ∧
      (aesCbcDecryptBuffer ctx buf length).1 =
        aesCtxSetIv ctx
          (BlockCipher.nextIv ctx.iv (slice (blocksOf buf) 0 (blockCount length))) :=
  ⟨(decrypting_loop ctx buf (blockCount length)).chained,
    (decrypting_loop ctx buf (blockCount length)).context⟩

/-! ## Buffers -/

/-- **Each direction undoes the other**, on every buffer, for every length, and from contexts with
the same keys and `Iv` both leave the same context. -/
theorem aesCbc_inverse :
    aesCbcDecryptBuffer ctx (aesCbcEncryptBuffer ctx buf length).2 length =
        ((aesCbcEncryptBuffer ctx buf length).1, buf) ∧
      aesCbcEncryptBuffer ctx (aesCbcDecryptBuffer ctx buf length).2 length =
        ((aesCbcDecryptBuffer ctx buf length).1, buf) := by
  obtain ⟨hencrypt, hiv⟩ := chained_encrypt ctx buf length
  obtain ⟨hdecrypt, hiv'⟩ := chained_decrypt ctx buf length
  constructor
  · obtain ⟨hback, hivBack⟩ := chained_decrypt ctx (aesCbcEncryptBuffer ctx buf length).2 length
    apply Prod.ext
    · rw [hivBack, hiv]
    · exact hencrypt.inverse hback (BlockCipher.cbcDecrypt_cbcEncrypt _ _)
  · obtain ⟨hback, hivBack⟩ := chained_encrypt ctx (aesCbcDecryptBuffer ctx buf length).2 length
    have hbuf := hdecrypt.inverse hback (BlockCipher.cbcEncrypt_cbcDecrypt _ _)
    apply Prod.ext
    · rw [hivBack, hiv', hbuf]
    · exact hbuf

/-- Whole blocks are counted. -/
theorem blockCount_mul (n : ℕ) : blockCount (16 * n) = n := by
  unfold blockCount
  omega

/-- Whole blocks in front are counted by themselves. -/
theorem blockCount_mul_add (n length : ℕ) :
    blockCount (16 * n + length) = n + blockCount length := by
  unfold blockCount
  omega

/-- What a function on buffers does in two calls, the second one behind the first `pos` bytes. -/
def inTwoCalls (f : AesCtx → Memory → ℕ → AesCtx × Memory) (ctx : AesCtx) (buf : Memory)
    (pos length : ℕ) : AesCtx × Memory :=
  let (ctx, front) := f ctx buf pos
  let (ctx, back) := f ctx (fun i => front (pos + i)) length
  (ctx, splice front pos back)

/-- **A buffer may be given in pieces of whole blocks.** -/
theorem aesCbc_split (n : ℕ) :
    aesCbcEncryptBuffer ctx buf (16 * n + length) =
        inTwoCalls aesCbcEncryptBuffer ctx buf (16 * n) length ∧
      aesCbcDecryptBuffer ctx buf (16 * n + length) =
        inTwoCalls aesCbcDecryptBuffer ctx buf (16 * n) length := by
  constructor
  · obtain ⟨hwhole, hivWhole⟩ := chained_encrypt ctx buf (16 * n + length)
    obtain ⟨hfront, hivFront⟩ := chained_encrypt ctx buf (16 * n)
    obtain ⟨hback, hivBack⟩ := chained_encrypt (aesCbcEncryptBuffer ctx buf (16 * n)).1
      (fun i => (aesCbcEncryptBuffer ctx buf (16 * n)).2 (16 * n + i)) length
    rw [blockCount_mul_add] at hwhole hivWhole
    rw [blockCount_mul] at hfront hivFront
    have hbuf := hwhole.unique (hfront.splice hback (by
      rw [hivFront, hfront.front]
      exact BlockCipher.cbcEncrypt_append ..))
    apply Prod.ext
    · rw [hivWhole, hbuf, slice_blocksOf_splice, BlockCipher.nextIv_append]
      refine Eq.trans ?_ hivBack.symm
      rw [hivFront]
      rfl
    · exact hbuf
  · obtain ⟨hwhole, hivWhole⟩ := chained_decrypt ctx buf (16 * n + length)
    obtain ⟨hfront, hivFront⟩ := chained_decrypt ctx buf (16 * n)
    obtain ⟨hback, hivBack⟩ := chained_decrypt (aesCbcDecryptBuffer ctx buf (16 * n)).1
      (fun i => (aesCbcDecryptBuffer ctx buf (16 * n)).2 (16 * n + i)) length
    rw [blockCount_mul_add] at hwhole hivWhole
    rw [blockCount_mul] at hfront hivFront
    have hbuf := hwhole.unique (hfront.splice hback (by
      rw [hivFront]
      exact BlockCipher.cbcDecrypt_append ..))
    have hrest : slice (blocksOf (aesCbcDecryptBuffer ctx buf (16 * n)).2) n (blockCount length)
        = slice (blocksOf buf) n (blockCount length) := slice_congr fun k hk _ => hfront.rest k hk
    apply Prod.ext
    · rw [hivWhole, slice_add, Nat.zero_add, BlockCipher.nextIv_append]
      refine Eq.trans ?_ hivBack.symm
      rw [slice_blocksOf_shift, hrest, hivFront]
      rfl
    · exact hbuf

end MeshcoreC.Crypto
