import MeshcoreC.Crypto.Aes
import MeshcoreC.Library.BlockCiphers
import MeshcoreC.Library.CirculantLayer

/-! # The inverse cipher undoes the cipher

Under any round keys, whether or not they come from a key.

* **`xtime_xor`** — `xtime` is linear, so that `MixColumns` and `InvMixColumns` are linear maps of
  a column, whose products need only be compared term by term.
* **`undoRound_round`**, **`round_undoRound`** — a round and its inverse.
* **`aesEcb_inverse`** — encryption and decryption of a block. -/

namespace MeshcoreC.Crypto

open Buffers Ciphers

/-! ## Blocks by their bytes -/

/-- A block is its sixteen bytes. -/
theorem block_eta (s : Block) :
    s = #v[s[0], s[1], s[2], s[3], s[4], s[5], s[6], s[7], s[8], s[9], s[10], s[11], s[12], s[13],
      s[14], s[15]] := by
  apply Vector.ext
  intro i hi
  interval_cases i <;> rfl

/-- What holds of sixteen bytes holds of every block. -/
@[elab_as_elim]
theorem block_cases {P : Block → Prop}
    (bytes : ∀ b0 b1 b2 b3 b4 b5 b6 b7 b8 b9 b10 b11 b12 b13 b14 b15,
      P #v[b0, b1, b2, b3, b4, b5, b6, b7, b8, b9, b10, b11, b12, b13, b14, b15]) (s : Block) :
    P s := by
  rw [block_eta s]
  exact bytes ..

/-! ## The substitution -/

/-- The second table undoes the first one. -/
theorem getSBoxInvert_getSBoxValue (b : UInt8) : getSBoxInvert (getSBoxValue b) = b := by
  have hall : ∀ i : Fin 256, getSBoxInvert (getSBoxValue (.ofFin i)) = .ofFin i := by
    decide +kernel
  exact hall b.toFin

/-- There are only finitely many bytes, so the inverse on one side is one on the other. -/
theorem getSBoxValue_getSBoxInvert (b : UInt8) : getSBoxValue (getSBoxInvert b) = b := by
  have hinjective : Function.Injective getSBoxValue :=
    Function.LeftInverse.injective getSBoxInvert_getSBoxValue
  obtain ⟨a, rfl⟩ := Finite.surjective_of_injective hinjective b
  rw [getSBoxInvert_getSBoxValue]

/-- `InvSubBytes` undoes `SubBytes`. -/
theorem invSubBytes_subBytes (s : Block) : invSubBytes (subBytes s) = s := by
  apply Vector.ext
  intro i hi
  rw [invSubBytes, subBytes, Vector.getElem_map, Vector.getElem_map, getSBoxInvert_getSBoxValue]

/-- `SubBytes` undoes `InvSubBytes`. -/
theorem subBytes_invSubBytes (s : Block) : subBytes (invSubBytes s) = s := by
  apply Vector.ext
  intro i hi
  rw [invSubBytes, subBytes, Vector.getElem_map, Vector.getElem_map, getSBoxValue_getSBoxInvert]

/-! ## The rotation of the rows -/

/-- `InvShiftRows` undoes `ShiftRows`. -/
theorem invShiftRows_shiftRows (s : Block) : invShiftRows (shiftRows s) = s := by
  induction s using block_cases with
  | bytes => simp [shiftRows, invShiftRows]

/-- `ShiftRows` undoes `InvShiftRows`. -/
theorem shiftRows_invShiftRows (s : Block) : shiftRows (invShiftRows s) = s := by
  induction s using block_cases with
  | bytes => simp [shiftRows, invShiftRows]

/-! ## The mixing of the columns -/

/-- Bytes as a group under exclusive or. -/
def XorByte : Type := UInt8

instance : Zero XorByte := ⟨(0 : UInt8)⟩

instance : Add XorByte := ⟨UInt8.xor⟩

instance : Neg XorByte := ⟨id⟩

instance : AddCommGroup XorByte where
  add_assoc := UInt8.xor_assoc
  zero_add _ := UInt8.zero_xor
  add_zero _ := UInt8.xor_zero
  neg_add_cancel _ := UInt8.xor_self
  add_comm := UInt8.xor_comm
  nsmul := nsmulRec
  zsmul := zsmulRec

/-- Every byte is its own opposite. -/
theorem XorByte.add_self (x : XorByte) : x + x = 0 := UInt8.xor_self

/-- `xtime` is a shift and, if a bit is lost in it, the addition of a constant. -/
theorem xtime_eq (x : UInt8) : xtime x = x <<< 1 ^^^ if x.toBitVec.msb then 0x1b else 0 := by
  have hall : ∀ i : Fin 256, xtime (UInt8.ofFin i)
      = UInt8.ofFin i <<< 1 ^^^ if (UInt8.ofFin i).toBitVec.msb then 0x1b else 0 := by
    decide +kernel
  exact hall x.toFin

/-- **`xtime` is linear.** -/
theorem xtime_xor (a b : UInt8) : xtime (a ^^^ b) = xtime a ^^^ xtime b := by
  have hshift : (a ^^^ b) <<< 1 = a <<< 1 ^^^ b <<< 1 := by
    apply UInt8.toBitVec_inj.mp
    exact BitVec.shiftLeft_xor_distrib ..
  have hmsb : (a ^^^ b).toBitVec.msb = (a.toBitVec.msb ^^ b.toBitVec.msb) := BitVec.msb_xor ..
  have hconst : (if (a.toBitVec.msb ^^ b.toBitVec.msb) then (0x1b : UInt8) else 0)
      = (if a.toBitVec.msb then 0x1b else 0) ^^^ if b.toBitVec.msb then 0x1b else 0 := by
    cases a.toBitVec.msb <;> cases b.toBitVec.msb <;> rfl
  rw [xtime_eq, xtime_eq, xtime_eq, hshift, hmsb, hconst]
  ac_rfl

/-- `xtime` as an additive map. -/
def xtimeHom : XorByte →+ XorByte where
  toFun := xtime
  map_zero' := rfl
  map_add' := xtime_xor

/-- A column as four bytes. -/
def columnWord (v : Column XorByte) : Word := #v[v.a, v.b, v.c, v.d]

/-- `MixColumns` on a column is the circulant layer with the small coefficients. -/
theorem mixColumn_eq (a b c d : UInt8) :
    mixColumn a b c d = columnWord (mix xtimeHom ⟨a, b, c, d⟩) :=
  (congrArg columnWord (mix_eq_sums (X := xtimeHom) XorByte.add_self a b c d)).symm

/-- A product whose factor has the given low bits, without the terms that vanish. -/
theorem multiply_eq (x y y0 y1 y2 y3 : UInt8) (h0 : y &&& 1 = y0) (h1 : y >>> 1 &&& 1 = y1)
    (h2 : y >>> 2 &&& 1 = y2) (h3 : y >>> 3 &&& 1 = y3) (h4 : y >>> 4 &&& 1 = 0) :
    multiply x y = y0 * x ^^^ y1 * xtime x ^^^ y2 * xtime (xtime x) ^^^
      y3 * xtime (xtime (xtime x)) := by
  simp only [multiply, h0, h1, h2, h3, h4, UInt8.zero_mul, UInt8.xor_zero]

/-- `Multiply` by 14, as a sum of doublings. -/
theorem multiply_0e (x : UInt8) : multiply x 0x0e = times14 xtimeHom x := by
  rw [multiply_eq x 0x0e 0 1 1 1 rfl rfl rfl rfl rfl]
  simp only [UInt8.zero_mul, UInt8.one_mul, UInt8.zero_xor]
  rfl

/-- `Multiply` by 11. -/
theorem multiply_0b (x : UInt8) : multiply x 0x0b = times11 xtimeHom x := by
  rw [multiply_eq x 0x0b 1 1 0 1 rfl rfl rfl rfl rfl]
  simp only [UInt8.zero_mul, UInt8.one_mul, UInt8.xor_zero]
  rfl

/-- `Multiply` by 13. -/
theorem multiply_0d (x : UInt8) : multiply x 0x0d = times13 xtimeHom x := by
  rw [multiply_eq x 0x0d 1 0 1 1 rfl rfl rfl rfl rfl]
  simp only [UInt8.zero_mul, UInt8.one_mul, UInt8.xor_zero]
  rfl

/-- `Multiply` by 9. -/
theorem multiply_09 (x : UInt8) : multiply x 0x09 = times9 xtimeHom x := by
  rw [multiply_eq x 0x09 1 0 0 1 rfl rfl rfl rfl rfl]
  simp only [UInt8.zero_mul, UInt8.one_mul, UInt8.xor_zero]
  rfl

/-- `InvMixColumns` on a column is the circulant layer with the large coefficients. -/
theorem invMixColumn_eq (a b c d : UInt8) :
    invMixColumn a b c d = columnWord (unmix xtimeHom ⟨a, b, c, d⟩) := by
  simp only [invMixColumn, multiply_0e, multiply_0b, multiply_0d, multiply_09]
  rfl

/-- The inverse mixes a mixed column back. -/
theorem invMixColumn_mixColumn (a b c d : UInt8) :
    invMixColumn ((mixColumn a b c d).get 0) ((mixColumn a b c d).get 1)
      ((mixColumn a b c d).get 2) ((mixColumn a b c d).get 3) = #v[a, b, c, d] := by
  rw [invMixColumn_eq, mixColumn_eq]
  exact congrArg columnWord (unmix_mix XorByte.add_self ⟨a, b, c, d⟩)

/-- The other way round. -/
theorem mixColumn_invMixColumn (a b c d : UInt8) :
    mixColumn ((invMixColumn a b c d).get 0) ((invMixColumn a b c d).get 1)
      ((invMixColumn a b c d).get 2) ((invMixColumn a b c d).get 3) = #v[a, b, c, d] := by
  rw [mixColumn_eq, invMixColumn_eq]
  exact congrArg columnWord (mix_unmix XorByte.add_self ⟨a, b, c, d⟩)

/-- What is undone on columns is undone on states. -/
theorem mapColumns_mapColumns {f g : UInt8 → UInt8 → UInt8 → UInt8 → Word}
    (h : ∀ a b c d, g ((f a b c d).get 0) ((f a b c d).get 1) ((f a b c d).get 2)
      ((f a b c d).get 3) = #v[a, b, c, d])
    (s : Block) : mapColumns g (mapColumns f s) = s := by
  have helements : ∀ a b c d,
      g (f a b c d)[0] (f a b c d)[1] (f a b c d)[2] (f a b c d)[3] = #v[a, b, c, d] := h
  induction s using block_cases with
  | bytes => simp [mapColumns, helements]

/-- `InvMixColumns` undoes `MixColumns`. -/
theorem invMixColumns_mixColumns (s : Block) : invMixColumns (mixColumns s) = s :=
  mapColumns_mapColumns invMixColumn_mixColumn s

/-- `MixColumns` undoes `InvMixColumns`. -/
theorem mixColumns_invMixColumns (s : Block) : mixColumns (invMixColumns s) = s :=
  mapColumns_mapColumns mixColumn_invMixColumn s

/-! ## Rounds -/

/-- Adding a round key twice gives the state back. -/
theorem addRoundKey_addRoundKey (round : ℕ) (s : Block) (roundKey : RoundKeys) :
    addRoundKey round (addRoundKey round s roundKey) roundKey = s := by
  apply Vector.ext
  intro i hi
  simp [addRoundKey]

variable (roundKey : RoundKeys)

/-- The undoing of one whole round, in the order of the round. -/
def undoRound (s : Block) (round : ℕ) : Block :=
  invSubBytes (invShiftRows (invMixColumns (addRoundKey round s roundKey)))

/-- A whole round is undone. -/
theorem undoRound_round (round : ℕ) (s : Block) :
    undoRound roundKey (addRoundKey round (mixColumns (shiftRows (subBytes s))) roundKey) round
      = s := by
  rw [undoRound, addRoundKey_addRoundKey, invMixColumns_mixColumns, invShiftRows_shiftRows,
    invSubBytes_subBytes]

/-- A round does again what was undone. -/
theorem round_undoRound (round : ℕ) (s : Block) :
    addRoundKey round (mixColumns (shiftRows (subBytes (undoRound roundKey s round)))) roundKey
      = s := by
  rw [undoRound, subBytes_invSubBytes, shiftRows_invShiftRows, mixColumns_invMixColumns,
    addRoundKey_addRoundKey]

/-- The inverse cipher begins its rounds with the steps that the undoing of a round ends with. -/
theorem invCipher_eq (s : Block) :
    invCipher s roundKey =
      addRoundKey 0 ((List.range' 1 (nr - 1)).reverse.foldl (undoRound roundKey)
        (invSubBytes (invShiftRows (addRoundKey nr s roundKey)))) roundKey := by
  rw [invCipher]
  have hslide := foldl_slide (fun s => invSubBytes (invShiftRows s))
    (fun s round => invMixColumns (addRoundKey round s roundKey))
    (List.range' 1 (nr - 1)).reverse (addRoundKey nr s roundKey)
  exact congrArg (fun s => addRoundKey 0 s roundKey) hslide.symm

/-- **The inverse cipher undoes the cipher.** -/
theorem invCipher_cipher (s : Block) : invCipher (cipher s roundKey) roundKey = s := by
  rw [invCipher_eq, cipher]
  simp only [addRoundKey_addRoundKey, invShiftRows_shiftRows, invSubBytes_subBytes]
  rw [leftInverse_foldl (undoRound_round roundKey), addRoundKey_addRoundKey]

/-- **The cipher undoes the inverse cipher.** -/
theorem cipher_invCipher (s : Block) : cipher (invCipher s roundKey) roundKey = s := by
  rw [invCipher_eq, cipher]
  simp only [addRoundKey_addRoundKey]
  have hrounds := leftInverse_foldl (f := undoRound roundKey)
    (g := fun s round => addRoundKey round (mixColumns (shiftRows (subBytes s))) roundKey)
    (round_undoRound roundKey) (List.range' 1 (nr - 1)).reverse
    (invSubBytes (invShiftRows (addRoundKey nr s roundKey)))
  rw [List.reverse_reverse] at hrounds
  rw [hrounds, subBytes_invSubBytes, shiftRows_invShiftRows, addRoundKey_addRoundKey]

/-- **Decryption undoes encryption, and encryption decryption**, whatever the round keys are. -/
theorem aesEcb_inverse (ctx : AesCtx) (buf : Block) :
    aesEcbDecrypt ctx (aesEcbEncrypt ctx buf) = buf ∧
      aesEcbEncrypt ctx (aesEcbDecrypt ctx buf) = buf :=
  ⟨invCipher_cipher ctx.roundKey buf, cipher_invCipher ctx.roundKey buf⟩

end MeshcoreC.Crypto
