import Mathlib

/-! # Block ciphers and their modes of operation

A block cipher under a fixed key is a permutation of the blocks. Product ciphers compose it from
rounds, and the modes of operation encrypt sequences of blocks with it.

* **`leftInverse_foldl`** — the inverse rounds, in the opposite order, undo the rounds.
* **`BlockCipher`** — a permutation of the blocks with its inverse, and an operation to mask blocks
  with.
* **`cbcEncrypt` / `cbcDecrypt`** — cipher block chaining; each undoes the other, and a sequence
  may be cut anywhere when the last cipher block is carried over.
* **`keyStream`** — counter mode's stream of symbols, and where it starts over. -/

namespace Ciphers

/-! ## Rounds -/

/-- **Rounds are undone by their inverses in the opposite order.** -/
theorem leftInverse_foldl {ι β : Type*} {f g : β → ι → β}
    (h : ∀ i, Function.LeftInverse (fun s => g s i) (fun s => f s i)) (rounds : List ι) (s : β) :
    rounds.reverse.foldl g (rounds.foldl f s) = s := by
  induction rounds generalizing s with
  | nil => rfl
  | cons i rounds ih =>
      rw [List.foldl_cons, List.reverse_cons, List.foldl_append, ih]
      exact h i s

/-- A step that ends every round may be made before the first round instead, and left away behind
the last one. -/
theorem foldl_slide {ι β : Type*} (a : β → β) (f : β → ι → β) (rounds : List ι) (s : β) :
    rounds.foldl (fun s i => a (f s i)) (a s) = a (rounds.foldl (fun s i => f (a s) i) s) :=
  List.foldl_hom a fun _ _ => rfl

/-! ## Ciphers -/

/-- A block cipher under one key. -/
structure BlockCipher (β : Type*) where
  /-- The permutation. -/
  encrypt : β → β
  /-- Its inverse. -/
  decrypt : β → β
  /-- Mask a block with another one. -/
  mask : β → β → β
  decrypt_encrypt : ∀ b, decrypt (encrypt b) = b
  encrypt_decrypt : ∀ b, encrypt (decrypt b) = b
  mask_mask : ∀ b k, mask (mask b k) k = b

namespace BlockCipher

variable {β : Type*} (C : BlockCipher β)

/-- Different blocks are encrypted to different blocks. -/
theorem encrypt_injective : Function.Injective C.encrypt :=
  Function.LeftInverse.injective C.decrypt_encrypt

/-! ## Cipher block chaining -/

/-- Every block is masked with the cipher block in front of it, the first one with the initial
vector. -/
def cbcEncrypt : β → List β → List β
  | _, [] => []
  | iv, b :: blocks => C.encrypt (C.mask b iv) :: cbcEncrypt (C.encrypt (C.mask b iv)) blocks

/-- The masks are the cipher blocks themselves. -/
def cbcDecrypt : β → List β → List β
  | _, [] => []
  | iv, c :: cipherBlocks => C.mask (C.decrypt c) iv :: cbcDecrypt c cipherBlocks

/-- The initial vector for what follows some cipher blocks. -/
def nextIv (iv : β) (cipherBlocks : List β) : β := cipherBlocks.getLastD iv

@[simp] theorem nextIv_nil (iv : β) : nextIv iv [] = iv := rfl

@[simp] theorem nextIv_cons (iv c : β) (cipherBlocks : List β) :
    nextIv iv (c :: cipherBlocks) = nextIv c cipherBlocks := List.getLastD_cons

/-- What is carried over two sequences is carried over the second from the first. -/
theorem nextIv_append (iv : β) (cipherBlocks cipherBlocks' : List β) :
    nextIv iv (cipherBlocks ++ cipherBlocks') = nextIv (nextIv iv cipherBlocks) cipherBlocks' := by
  induction cipherBlocks generalizing iv with
  | nil => rfl
  | cons c cipherBlocks ih => rw [List.cons_append, nextIv_cons, ih, nextIv_cons]

@[simp] theorem length_cbcEncrypt (iv : β) (blocks : List β) :
    (C.cbcEncrypt iv blocks).length = blocks.length := by
  induction blocks generalizing iv with
  | nil => rfl
  | cons b blocks ih => rw [cbcEncrypt, List.length_cons, ih, List.length_cons]

/-- **Decryption undoes encryption.** -/
theorem cbcDecrypt_cbcEncrypt (iv : β) (blocks : List β) :
    C.cbcDecrypt iv (C.cbcEncrypt iv blocks) = blocks := by
  induction blocks generalizing iv with
  | nil => rfl
  | cons b blocks ih =>
      rw [cbcEncrypt, cbcDecrypt, C.decrypt_encrypt, C.mask_mask, ih]

/-- **Encryption undoes decryption.** -/
theorem cbcEncrypt_cbcDecrypt (iv : β) (cipherBlocks : List β) :
    C.cbcEncrypt iv (C.cbcDecrypt iv cipherBlocks) = cipherBlocks := by
  induction cipherBlocks generalizing iv with
  | nil => rfl
  | cons c cipherBlocks ih =>
      rw [cbcDecrypt, cbcEncrypt, C.mask_mask, C.encrypt_decrypt, ih]

/-- **A sequence may be cut anywhere**, when the last cipher block is carried over. -/
theorem cbcEncrypt_append (iv : β) (blocks blocks' : List β) :
    C.cbcEncrypt iv (blocks ++ blocks') =
      C.cbcEncrypt iv blocks ++ C.cbcEncrypt (nextIv iv (C.cbcEncrypt iv blocks)) blocks' := by
  induction blocks generalizing iv with
  | nil => rfl
  | cons b blocks ih =>
      rw [List.cons_append, cbcEncrypt, ih, cbcEncrypt, List.cons_append, nextIv_cons]

/-- A sequence of cipher blocks may be cut anywhere. -/
theorem cbcDecrypt_append (iv : β) (cipherBlocks cipherBlocks' : List β) :
    C.cbcDecrypt iv (cipherBlocks ++ cipherBlocks') =
      C.cbcDecrypt iv cipherBlocks ++ C.cbcDecrypt (nextIv iv cipherBlocks) cipherBlocks' := by
  induction cipherBlocks generalizing iv with
  | nil => rfl
  | cons c cipherBlocks ih =>
      rw [List.cons_append, cbcDecrypt, ih, cbcDecrypt, List.cons_append, nextIv_cons]

/-- One block more. -/
theorem cbcEncrypt_concat (iv : β) (blocks : List β) (b : β) :
    C.cbcEncrypt iv (blocks ++ [b]) =
      C.cbcEncrypt iv blocks ++
        [C.encrypt (C.mask b (nextIv iv (C.cbcEncrypt iv blocks)))] := by
  rw [cbcEncrypt_append, cbcEncrypt, cbcEncrypt]

/-- One cipher block more. -/
theorem cbcDecrypt_concat (iv : β) (cipherBlocks : List β) (c : β) :
    C.cbcDecrypt iv (cipherBlocks ++ [c]) =
      C.cbcDecrypt iv cipherBlocks ++ [C.mask (C.decrypt c) (nextIv iv cipherBlocks)] := by
  rw [cbcDecrypt_append, cbcDecrypt, cbcDecrypt]

/-! ## Counter mode -/

variable {γ : Type*} (next : β → β) (symbol : β → ℕ → γ) (n : ℕ)

/-- Symbol `i` of the stream that blocks of `n` symbols are encrypted to, from a counter on. -/
def keyStream (counter : β) (i : ℕ) : γ := symbol (C.encrypt (next^[i / n] counter)) (i % n)

/-- **The stream starts over at every block**, from a later counter. -/
theorem keyStream_add (hn : 0 < n) (counter : β) (k i : ℕ) :
    C.keyStream next symbol n counter (n * k + i)
      = C.keyStream next symbol n (next^[k] counter) i := by
  rw [keyStream, keyStream, Nat.mul_add_div hn, Nat.mul_add_mod, Nat.add_comm k,
    Function.iterate_add_apply]

end BlockCipher

end Ciphers
