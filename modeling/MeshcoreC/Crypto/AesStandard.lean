import MeshcoreC.Crypto.AesInverse
import MeshcoreC.Library.Rijndael
import MeshcoreC.Library.WhileLoop

/-! # The cipher is the standard one

The tables and the byte-wise code against the cipher over the field of 256 elements.

* **`scheduled_keyExpansion`** — `KeyExpansion` leaves the words of the standard's key schedule, and
  nothing of what the context held.
* **`aesEcbEncrypt_standard`** — a context made from a key encrypts as the standard says.
* **`roundKey_determines_key`** — every single round key determines the key. -/

namespace MeshcoreC.Crypto

open Buffers Loops

/-! ## States, words and keys -/

/-- A block as the state of the standard: column by column. -/
def stateOf (s : Block) : Rijndael.State := fun r c => view s (4 * c + r)

/-- A word by its bytes. -/
def wordOf (w : Word) : Rijndael.Word := fun j => w[j.val]

/-- The words of a key. -/
def keyOf (key : Block) : Fin 4 → Rijndael.Word := fun i j => view key (i * 4 + j)

/-- A block is determined by its state. -/
theorem stateOf_injective : Function.Injective stateOf := by
  intro s t h
  apply Vector.ext
  intro i hi
  rw [aesBlocklen] at hi
  have hbyte := congrFun (congrFun h ⟨i % 4, by omega⟩) ⟨i / 4, by omega⟩
  simp only [stateOf, Nat.div_add_mod] at hbyte
  rwa [view_of_lt _ hi, view_of_lt _ hi] at hbyte

/-- A key is determined by its words. -/
theorem keyOf_injective : Function.Injective keyOf := by
  intro key key' h
  apply stateOf_injective
  funext r c
  have hbyte := congrFun (congrFun h c) r
  simp only [keyOf] at hbyte
  rw [stateOf, stateOf, mul_comm, hbyte]

/-! ## The transformations -/

/-- **The table is the S-box**: the inverse in the field, then the affine map. -/
theorem getSBoxValue_eq (b : UInt8) : getSBoxValue b = Rijndael.subByte b := by
  have hall : ∀ i : Fin 256, getSBoxValue (.ofFin i) = Rijndael.subByte (.ofFin i) := by
    decide +kernel
  exact hall b.toFin

/-- Doubling in the field is `xtime`. -/
theorem mul_two (b : UInt8) : Rijndael.mul 2 b = xtime b := by
  have hall : ∀ i : Fin 256, Rijndael.mul 2 (.ofFin i) = xtime (.ofFin i) := by
    decide +kernel
  exact hall b.toFin

/-- Tripling in the field is `xtime` and one more. -/
theorem mul_three (b : UInt8) : Rijndael.mul 3 b = xtime b ^^^ b := by
  have hall : ∀ i : Fin 256, Rijndael.mul 3 (.ofFin i) = xtime (.ofFin i) ^^^ .ofFin i := by
    decide +kernel
  exact hall b.toFin

/-- `SubBytes`, on the state matrix. -/
theorem stateOf_subBytes (s : Block) :
    stateOf (subBytes s) = Rijndael.subBytes (stateOf s) := by
  funext r c
  have hlt : 4 * c.val + r.val < 16 := by omega
  rw [Rijndael.subBytes, stateOf, stateOf, view_of_lt _ hlt, view_of_lt _ hlt, subBytes,
    Vector.getElem_map, getSBoxValue_eq]

/-- `ShiftRows`, on the state matrix. -/
theorem stateOf_shiftRows (s : Block) :
    stateOf (shiftRows s) = Rijndael.shiftRows (stateOf s) := by
  funext r c
  induction s using block_cases with
  | bytes b0 b1 b2 b3 b4 b5 b6 b7 b8 b9 b10 b11 b12 b13 b14 b15 =>
      have hrows :
          shiftRows #v[b0, b1, b2, b3, b4, b5, b6, b7, b8, b9, b10, b11, b12, b13, b14, b15]
          = #v[b0, b5, b10, b15, b4, b9, b14, b3, b8, b13, b2, b7, b12, b1, b6, b11] := by
        simp [shiftRows]
      rw [hrows]
      fin_cases r <;> fin_cases c <;> rfl

/-- A column of a state whose columns are changed. -/
theorem stateOf_mapColumns (f : UInt8 → UInt8 → UInt8 → UInt8 → Word) (s : Block) (r c : Fin 4) :
    stateOf (mapColumns f s) r c =
      wordOf (f (stateOf s 0 c) (stateOf s 1 c) (stateOf s 2 c) (stateOf s 3 c)) r := by
  fin_cases c <;> fin_cases r <;> simp [stateOf, wordOf, mapColumns, view] <;> rfl

/-- A column with the products written out. -/
theorem mixColumn_products (a b c d : UInt8) :
    mixColumn a b c d =
      #v[xtime a ^^^ (xtime b ^^^ b) ^^^ c ^^^ d, a ^^^ xtime b ^^^ (xtime c ^^^ c) ^^^ d,
        a ^^^ b ^^^ xtime c ^^^ (xtime d ^^^ d), (xtime a ^^^ a) ^^^ b ^^^ c ^^^ xtime d] :=
  mixColumn_eq a b c d

/-- Every byte of a column is the same sum of products, from its own row on. -/
theorem wordOf_mixColumn (v : Fin 4 → UInt8) (r : Fin 4) :
    wordOf (mixColumn (v 0) (v 1) (v 2) (v 3)) r =
      xtime (v r) ^^^ (xtime (v (r + 1)) ^^^ v (r + 1)) ^^^ v (r + 2) ^^^ v (r + 3) := by
  rw [mixColumn_products]
  fin_cases r
  · rfl
  · show v 0 ^^^ xtime (v 1) ^^^ (xtime (v 2) ^^^ v 2) ^^^ v 3
      = xtime (v 1) ^^^ (xtime (v 2) ^^^ v 2) ^^^ v 3 ^^^ v 0
    ac_rfl
  · show v 0 ^^^ v 1 ^^^ xtime (v 2) ^^^ (xtime (v 3) ^^^ v 3)
      = xtime (v 2) ^^^ (xtime (v 3) ^^^ v 3) ^^^ v 0 ^^^ v 1
    ac_rfl
  · show (xtime (v 0) ^^^ v 0) ^^^ v 1 ^^^ v 2 ^^^ xtime (v 3)
      = xtime (v 3) ^^^ (xtime (v 0) ^^^ v 0) ^^^ v 1 ^^^ v 2
    ac_rfl

/-- `MixColumns`, on the state matrix. -/
theorem stateOf_mixColumns (s : Block) :
    stateOf (mixColumns s) = Rijndael.mixColumns (stateOf s) := by
  funext r c
  rw [mixColumns, stateOf_mapColumns, wordOf_mixColumn (fun r => stateOf s r c),
    Rijndael.mixColumns, mul_two, mul_three]

/-! ## The key schedule -/

/-- The bytes of a word. -/
theorem getElem_wordAt (roundKey : RoundKeys) (k : ℕ) {j : ℕ} (hj : j < 4) :
    (wordAt roundKey k)[j] = view roundKey (k + j) := by
  rw [wordAt, Vector.getElem_ofFn]

/-- A stored word, byte by byte. -/
theorem view_putWord (roundKey : RoundKeys) {j : ℕ} (w : Word) (h : j + 4 ≤ aesKeyExpSize) :
    view (putWord roundKey j w) =
      Function.update (Function.update (Function.update (Function.update (view roundKey)
        (j + 0) w[0]) (j + 1) w[1]) (j + 2) w[2]) (j + 3) w[3] := by
  rw [putWord, view_setIfInBounds _ _ (by omega), view_setIfInBounds _ _ (by omega),
    view_setIfInBounds _ _ (by omega), view_setIfInBounds _ _ (by omega)]

/-- A stored word is read back. -/
theorem wordAt_putWord (roundKey : RoundKeys) {j : ℕ} (w : Word) (h : j + 4 ≤ aesKeyExpSize) :
    wordAt (putWord roundKey j w) j = w := by
  apply Vector.ext
  intro i hi
  rw [getElem_wordAt _ _ hi, view_putWord _ _ h]
  interval_cases i <;> simp

/-- The words in front of a stored one stay. -/
theorem wordAt_putWord_of_le (roundKey : RoundKeys) {k j : ℕ} (w : Word) (hle : k + 4 ≤ j)
    (h : j + 4 ≤ aesKeyExpSize) : wordAt (putWord roundKey j w) k = wordAt roundKey k := by
  apply Vector.ext
  intro i hi
  rw [getElem_wordAt _ _ hi, getElem_wordAt _ _ hi, view_putWord _ _ h,
    Function.update_of_ne (by omega), Function.update_of_ne (by omega),
    Function.update_of_ne (by omega), Function.update_of_ne (by omega)]

/-- The first `n` words are those of the standard's key schedule. -/
def Scheduled (roundKey : RoundKeys) (key : Block) (n : ℕ) : Prop :=
  ∀ i < n, wordOf (wordAt roundKey (i * 4)) = Rijndael.keyWord (keyOf key) i

/-- One word more. -/
theorem Scheduled.putWord {roundKey : RoundKeys} {key : Block} {n : ℕ}
    (h : Scheduled roundKey key n) {w : Word} (hn : n < 44)
    (hw : wordOf w = Rijndael.keyWord (keyOf key) n) :
    Scheduled (putWord roundKey (n * 4) w) key (n + 1) := by
  have hbound : n * 4 + 4 ≤ aesKeyExpSize := by rw [aesKeyExpSize]; omega
  intro i hi
  rcases Nat.lt_succ_iff_lt_or_eq.mp hi with hlt | rfl
  · rw [wordAt_putWord_of_le _ _ (by omega) hbound, h i hlt]
  · rw [wordAt_putWord _ _ hbound, hw]

/-- The table of round constants, at the indices that are used. -/
theorem view_rcon {round : ℕ} (hpos : 0 < round) (hle : round ≤ nr) :
    view rcon round = Rijndael.roundConstant round 0 := by
  interval_cases round <;> decide +kernel

/-- The code and the standard rotate and substitute words alike. -/
theorem wordOf_subWord_rotWord (w : Word) :
    wordOf (subWord (rotWord w)) = Rijndael.subWord (Rijndael.rotWord (wordOf w)) := by
  funext j
  fin_cases j <;> simp [wordOf, subWord, rotWord, Rijndael.subWord, Rijndael.rotWord,
    getSBoxValue_eq]

/-- The word of the schedule that an iteration computes. -/
theorem wordOf_term {roundKey : RoundKeys} {key : Block} {i : ℕ} (hle : 4 ≤ i) (hlt : i < 44)
    (h : Scheduled roundKey key i) :
    wordOf (if i % nk = 0 then
        (subWord (rotWord (wordAt roundKey ((i - 1) * 4)))).set 0
          ((subWord (rotWord (wordAt roundKey ((i - 1) * 4))))[0] ^^^ view rcon (i / nk))
      else wordAt roundKey ((i - 1) * 4))
      = Rijndael.scheduleTerm i (Rijndael.keyWord (keyOf key) (i - 1)) := by
  have hlast := h (i - 1) (by omega)
  rw [Rijndael.scheduleTerm]
  by_cases hround : i % 4 = 0
  · rw [if_pos hround, if_pos hround, ← hlast, ← wordOf_subWord_rotWord,
      view_rcon (show 0 < i / 4 by omega) (by rw [nr]; omega)]
    funext j
    fin_cases j <;> simp [wordOf, Rijndael.roundConstant]
  · rw [if_neg hround, if_neg hround, hlast]

/-- **One iteration computes one word.** -/
theorem Scheduled.expandWord {roundKey : RoundKeys} {key : Block} {i : ℕ} (hle : 4 ≤ i)
    (hlt : i < 44) (h : Scheduled roundKey key i) :
    Scheduled (expandWord roundKey i) key (i + 1) := by
  rw [Crypto.expandWord]
  apply h.putWord hlt
  rw [Rijndael.keyWord_of_le _ hle, ← h (i - 4) (by omega), ← wordOf_term hle hlt h]
  funext j
  simp [wordOf]

/-- **`KeyExpansion` leaves the standard's key schedule**, whatever was in the context. -/
theorem scheduled_keyExpansion (roundKey : RoundKeys) (key : Block) :
    Scheduled (keyExpansion roundKey key) key 44 := by
  rw [keyExpansion, List.range_eq_range']
  have hkey := range'_induction (P := fun i roundKey => Scheduled roundKey key i) (a := 0) (n := nk)
    (f := fun roundKey i =>
      putWord roundKey (i * 4) (Vector.ofFn fun j => view key (i * 4 + j)))
    (fun i _ hi roundKey h => by
      have hi4 : i < 4 := by simpa using hi
      apply h.putWord (by omega)
      rw [Rijndael.keyWord_of_lt _ hi4]
      funext j
      simp [wordOf, keyOf])
    (b := roundKey) (fun i hi => absurd hi (Nat.not_lt_zero i))
  exact range'_induction (P := fun i roundKey => Scheduled roundKey key i) (a := nk) (n := 40)
    (fun i hle hi roundKey h => h.expandWord hle (by simpa using hi)) hkey

/-- A byte of the round keys, from its word. -/
theorem view_eq_wordOf (roundKey : RoundKeys) (k : ℕ) :
    view roundKey k = wordOf (wordAt roundKey (k / 4 * 4)) ⟨k % 4, Nat.mod_lt k (by decide)⟩ := by
  rw [wordOf, getElem_wordAt _ _ (Nat.mod_lt k (by decide)), mul_comm, Nat.div_add_mod]

/-- The round keys come from the key alone. -/
theorem keyExpansion_congr (roundKey roundKey' : RoundKeys) (key : Block) :
    keyExpansion roundKey key = keyExpansion roundKey' key := by
  apply Vector.ext
  intro i hi
  have hword : i / 4 < 44 := by rw [aesKeyExpSize] at hi; omega
  rw [← view_of_lt _ hi, ← view_of_lt _ hi, view_eq_wordOf, view_eq_wordOf,
    scheduled_keyExpansion _ _ _ hword, scheduled_keyExpansion _ _ _ hword]

/-! ## The cipher -/

variable {roundKey : RoundKeys} {key : Block}

/-- `AddRoundKey`, on the state matrix, with the round key of the standard. -/
theorem stateOf_addRoundKey (h : Scheduled roundKey key 44) {round : ℕ} (hround : round ≤ nr)
    (s : Block) :
    stateOf (addRoundKey round s roundKey) =
      Rijndael.addRoundKey (keyOf key) round (stateOf s) := by
  funext r c
  have hlt : 4 * c.val + r.val < 16 := by omega
  have hindex : round * nb * 4 + (4 * c.val + r.val) = (4 * round + c) * 4 + r := by
    rw [nb]; ring
  rw [nr] at hround
  have hword := congrFun (h (4 * round + c) (by omega)) r
  rw [wordOf, getElem_wordAt _ _ r.isLt] at hword
  rw [Rijndael.addRoundKey, ← hword, stateOf, stateOf, view_of_lt _ hlt, view_of_lt _ hlt,
    addRoundKey, Vector.getElem_ofFn, hindex]
  rfl

/-- A round, on the state matrix. -/
theorem stateOf_round (h : Scheduled roundKey key 44) {round : ℕ} (hround : round ≤ nr)
    (s : Block) :
    stateOf (addRoundKey round (mixColumns (shiftRows (subBytes s))) roundKey) =
      Rijndael.round (keyOf key) (stateOf s) round := by
  rw [stateOf_addRoundKey h hround, stateOf_mixColumns, stateOf_shiftRows, stateOf_subBytes,
    Rijndael.round]

/-- **The cipher under the round keys of a key is the standard's.** -/
theorem stateOf_cipher (h : Scheduled roundKey key 44) (s : Block) :
    stateOf (cipher s roundKey) = Rijndael.encrypt (keyOf key) (stateOf s) := by
  rw [cipher, stateOf_addRoundKey h le_rfl, stateOf_shiftRows, stateOf_subBytes,
    Rijndael.encrypt, ← stateOf_addRoundKey h (Nat.zero_le nr)]
  congr 3
  exact range'_induction (a := 1) (n := 9)
    (P := fun i t => stateOf t = (List.range' 1 (i - 1)).foldl (Rijndael.round (keyOf key))
      (stateOf (addRoundKey 0 s roundKey)))
    (fun i hle hlt t ht => by
      have hsplit : List.range' 1 (i + 1 - 1) = List.range' 1 (i - 1) ++ [i] := by
        obtain ⟨k, rfl⟩ := Nat.exists_eq_add_of_le hle
        simp [List.range'_concat, Nat.add_comm]
      rw [stateOf_round h (by rw [nr]; omega), hsplit, List.foldl_append, ← ht]
      rfl) rfl

/-- **Encryption with a key is the standard's cipher**, whatever the context held before. -/
theorem aesEcbEncrypt_standard (ctx : AesCtx) (key buf : Block) :
    stateOf (aesEcbEncrypt (aesInitCtx ctx key) buf) =
      Rijndael.encrypt (keyOf key) (stateOf buf) :=
  stateOf_cipher (scheduled_keyExpansion ctx.roundKey key) buf

/-- **Every round key determines the key**: contexts made from two keys that agree on the 16 bytes
of one round key come from the same key. -/
theorem roundKey_determines_key (ctx ctx' : AesCtx) (key key' : Block) (round : ℕ)
    (hround : round ≤ nr)
    (h : ∀ k < 16, view (aesInitCtx ctx key).roundKey (round * 16 + k)
      = view (aesInitCtx ctx' key').roundKey (round * 16 + k)) : key = key' := by
  rw [nr] at hround
  have hkeys : keyOf key = keyOf key' := by
    apply Rijndael.keyWord_injective (i := 4 * round)
    intro k hk
    rw [← scheduled_keyExpansion ctx.roundKey key _ (by omega),
      ← scheduled_keyExpansion ctx'.roundKey key' _ (by omega)]
    funext j
    rw [wordOf, wordOf, getElem_wordAt _ _ j.isLt, getElem_wordAt _ _ j.isLt,
      show (4 * round + k) * 4 + j.val = round * 16 + (k * 4 + j) by ring]
    exact h (k * 4 + j) (by omega)
  exact keyOf_injective hkeys

/-- The last round keys of two contexts made from the key of zeros, on different garbage. -/
theorem roundKey_determines_key_zeros :
    (Vector.replicate 16 0 : Block) = Vector.replicate 16 0 :=
  roundKey_determines_key ⟨Vector.replicate 176 0, Vector.replicate 16 0⟩
    ⟨Vector.replicate 176 1, Vector.replicate 16 0⟩ _ _ 10 le_rfl fun k hk => by
      rw [aesInitCtx, aesInitCtx, keyExpansion_congr]

end MeshcoreC.Crypto
