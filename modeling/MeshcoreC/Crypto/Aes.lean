import MeshcoreC.Library.Buffers

/-! # AES-128

`crypto/aes.c`: the tables, the key schedule, the four transformations of the state with their
inverses, the cipher and its inverse, and the entry points for single blocks.

The state is the buffer itself: byte `(*state)[i][j]` is byte `4 * i + j` of the block, column `i`
and row `j`. -/

namespace MeshcoreC.Crypto

open Buffers

/-! ## Blocks and keys -/

/-- `AES_BLOCKLEN`. -/
abbrev aesBlocklen : ℕ := 16

/-- `AES_KEYLEN`. -/
abbrev aesKeylen : ℕ := 16

/-- `AES_keyExpSize`. -/
abbrev aesKeyExpSize : ℕ := 176

/-- `Nk`, the number of 32-bit words of a key. -/
abbrev nk : ℕ := 4

/-- `Nb`, the number of columns of a state. -/
abbrev nb : ℕ := 4

/-- `Nr`, the number of rounds. -/
abbrev nr : ℕ := 10

/-- A block of 16 bytes, and the state of the cipher. -/
abbrev Block := Vector UInt8 aesBlocklen

/-- The round keys, one after the other. -/
abbrev RoundKeys := Vector UInt8 aesKeyExpSize

/-- `struct AES_ctx`. -/
@[ext]
structure AesCtx where
  roundKey : RoundKeys
  iv : Block
  deriving DecidableEq, Repr

/-! ## Tables -/

set_option maxRecDepth 2000 in
/-- `sbox`. -/
def sbox : Vector UInt8 256 :=
  #v[
    0x63, 0x7c, 0x77, 0x7b, 0xf2, 0x6b, 0x6f, 0xc5, 0x30, 0x01, 0x67, 0x2b, 0xfe, 0xd7, 0xab, 0x76,
    0xca, 0x82, 0xc9, 0x7d, 0xfa, 0x59, 0x47, 0xf0, 0xad, 0xd4, 0xa2, 0xaf, 0x9c, 0xa4, 0x72, 0xc0,
    0xb7, 0xfd, 0x93, 0x26, 0x36, 0x3f, 0xf7, 0xcc, 0x34, 0xa5, 0xe5, 0xf1, 0x71, 0xd8, 0x31, 0x15,
    0x04, 0xc7, 0x23, 0xc3, 0x18, 0x96, 0x05, 0x9a, 0x07, 0x12, 0x80, 0xe2, 0xeb, 0x27, 0xb2, 0x75,
    0x09, 0x83, 0x2c, 0x1a, 0x1b, 0x6e, 0x5a, 0xa0, 0x52, 0x3b, 0xd6, 0xb3, 0x29, 0xe3, 0x2f, 0x84,
    0x53, 0xd1, 0x00, 0xed, 0x20, 0xfc, 0xb1, 0x5b, 0x6a, 0xcb, 0xbe, 0x39, 0x4a, 0x4c, 0x58, 0xcf,
    0xd0, 0xef, 0xaa, 0xfb, 0x43, 0x4d, 0x33, 0x85, 0x45, 0xf9, 0x02, 0x7f, 0x50, 0x3c, 0x9f, 0xa8,
    0x51, 0xa3, 0x40, 0x8f, 0x92, 0x9d, 0x38, 0xf5, 0xbc, 0xb6, 0xda, 0x21, 0x10, 0xff, 0xf3, 0xd2,
    0xcd, 0x0c, 0x13, 0xec, 0x5f, 0x97, 0x44, 0x17, 0xc4, 0xa7, 0x7e, 0x3d, 0x64, 0x5d, 0x19, 0x73,
    0x60, 0x81, 0x4f, 0xdc, 0x22, 0x2a, 0x90, 0x88, 0x46, 0xee, 0xb8, 0x14, 0xde, 0x5e, 0x0b, 0xdb,
    0xe0, 0x32, 0x3a, 0x0a, 0x49, 0x06, 0x24, 0x5c, 0xc2, 0xd3, 0xac, 0x62, 0x91, 0x95, 0xe4, 0x79,
    0xe7, 0xc8, 0x37, 0x6d, 0x8d, 0xd5, 0x4e, 0xa9, 0x6c, 0x56, 0xf4, 0xea, 0x65, 0x7a, 0xae, 0x08,
    0xba, 0x78, 0x25, 0x2e, 0x1c, 0xa6, 0xb4, 0xc6, 0xe8, 0xdd, 0x74, 0x1f, 0x4b, 0xbd, 0x8b, 0x8a,
    0x70, 0x3e, 0xb5, 0x66, 0x48, 0x03, 0xf6, 0x0e, 0x61, 0x35, 0x57, 0xb9, 0x86, 0xc1, 0x1d, 0x9e,
    0xe1, 0xf8, 0x98, 0x11, 0x69, 0xd9, 0x8e, 0x94, 0x9b, 0x1e, 0x87, 0xe9, 0xce, 0x55, 0x28, 0xdf,
    0x8c, 0xa1, 0x89, 0x0d, 0xbf, 0xe6, 0x42, 0x68, 0x41, 0x99, 0x2d, 0x0f, 0xb0, 0x54, 0xbb, 0x16]

set_option maxRecDepth 2000 in
/-- `rsbox`. -/
def rsbox : Vector UInt8 256 :=
  #v[
    0x52, 0x09, 0x6a, 0xd5, 0x30, 0x36, 0xa5, 0x38, 0xbf, 0x40, 0xa3, 0x9e, 0x81, 0xf3, 0xd7, 0xfb,
    0x7c, 0xe3, 0x39, 0x82, 0x9b, 0x2f, 0xff, 0x87, 0x34, 0x8e, 0x43, 0x44, 0xc4, 0xde, 0xe9, 0xcb,
    0x54, 0x7b, 0x94, 0x32, 0xa6, 0xc2, 0x23, 0x3d, 0xee, 0x4c, 0x95, 0x0b, 0x42, 0xfa, 0xc3, 0x4e,
    0x08, 0x2e, 0xa1, 0x66, 0x28, 0xd9, 0x24, 0xb2, 0x76, 0x5b, 0xa2, 0x49, 0x6d, 0x8b, 0xd1, 0x25,
    0x72, 0xf8, 0xf6, 0x64, 0x86, 0x68, 0x98, 0x16, 0xd4, 0xa4, 0x5c, 0xcc, 0x5d, 0x65, 0xb6, 0x92,
    0x6c, 0x70, 0x48, 0x50, 0xfd, 0xed, 0xb9, 0xda, 0x5e, 0x15, 0x46, 0x57, 0xa7, 0x8d, 0x9d, 0x84,
    0x90, 0xd8, 0xab, 0x00, 0x8c, 0xbc, 0xd3, 0x0a, 0xf7, 0xe4, 0x58, 0x05, 0xb8, 0xb3, 0x45, 0x06,
    0xd0, 0x2c, 0x1e, 0x8f, 0xca, 0x3f, 0x0f, 0x02, 0xc1, 0xaf, 0xbd, 0x03, 0x01, 0x13, 0x8a, 0x6b,
    0x3a, 0x91, 0x11, 0x41, 0x4f, 0x67, 0xdc, 0xea, 0x97, 0xf2, 0xcf, 0xce, 0xf0, 0xb4, 0xe6, 0x73,
    0x96, 0xac, 0x74, 0x22, 0xe7, 0xad, 0x35, 0x85, 0xe2, 0xf9, 0x37, 0xe8, 0x1c, 0x75, 0xdf, 0x6e,
    0x47, 0xf1, 0x1a, 0x71, 0x1d, 0x29, 0xc5, 0x89, 0x6f, 0xb7, 0x62, 0x0e, 0xaa, 0x18, 0xbe, 0x1b,
    0xfc, 0x56, 0x3e, 0x4b, 0xc6, 0xd2, 0x79, 0x20, 0x9a, 0xdb, 0xc0, 0xfe, 0x78, 0xcd, 0x5a, 0xf4,
    0x1f, 0xdd, 0xa8, 0x33, 0x88, 0x07, 0xc7, 0x31, 0xb1, 0x12, 0x10, 0x59, 0x27, 0x80, 0xec, 0x5f,
    0x60, 0x51, 0x7f, 0xa9, 0x19, 0xb5, 0x4a, 0x0d, 0x2d, 0xe5, 0x7a, 0x9f, 0x93, 0xc9, 0x9c, 0xef,
    0xa0, 0xe0, 0x3b, 0x4d, 0xae, 0x2a, 0xf5, 0xb0, 0xc8, 0xeb, 0xbb, 0x3c, 0x83, 0x53, 0x99, 0x61,
    0x17, 0x2b, 0x04, 0x7e, 0xba, 0x77, 0xd6, 0x26, 0xe1, 0x69, 0x14, 0x63, 0x55, 0x21, 0x0c, 0x7d]

/-- `Rcon`. -/
def rcon : Vector UInt8 11 :=
  #v[0x8d, 0x01, 0x02, 0x04, 0x08, 0x10, 0x20, 0x40, 0x80, 0x1b, 0x36]

/-- `getSBoxValue(num)`. -/
def getSBoxValue (num : UInt8) : UInt8 := view sbox num.toNat

/-- `getSBoxInvert(num)`. -/
def getSBoxInvert (num : UInt8) : UInt8 := view rsbox num.toNat

/-! ## The key schedule -/

/-- Four bytes, `tempa`. -/
abbrev Word := Vector UInt8 4

/-- `RotWord()`: `[a0, a1, a2, a3]` becomes `[a1, a2, a3, a0]`. -/
def rotWord (tempa : Word) : Word :=
  let u8tmp := tempa[0]
  let tempa := tempa.set 0 tempa[1]
  let tempa := tempa.set 1 tempa[2]
  let tempa := tempa.set 2 tempa[3]
  tempa.set 3 u8tmp

/-- `SubWord()`. -/
def subWord (tempa : Word) : Word := tempa.map getSBoxValue

/-- The four bytes of `RoundKey` from index `k` on. -/
def wordAt (roundKey : RoundKeys) (k : ℕ) : Word :=
  Vector.ofFn fun j => view roundKey (k + j)

/-- Four bytes stored to `RoundKey` from index `j` on. -/
def putWord (roundKey : RoundKeys) (j : ℕ) (w : Word) : RoundKeys :=
  (((roundKey.setIfInBounds (j + 0) w[0]).setIfInBounds (j + 1) w[1]).setIfInBounds (j + 2)
    w[2]).setIfInBounds (j + 3) w[3]

/-- One word of the key schedule: the body of the second loop of `KeyExpansion`. -/
def expandWord (roundKey : RoundKeys) (i : ℕ) : RoundKeys :=
  let tempa := wordAt roundKey ((i - 1) * 4)
  let tempa :=
    if i % nk = 0 then
      let tempa := subWord (rotWord tempa)
      tempa.set 0 (tempa[0] ^^^ view rcon (i / nk))
    else tempa
  putWord roundKey (i * 4) ((wordAt roundKey ((i - nk) * 4)).zipWith (· ^^^ ·) tempa)

/-- `KeyExpansion`. The first round key is the key itself. -/
def keyExpansion (roundKey : RoundKeys) (key : Block) : RoundKeys :=
  let roundKey := (List.range nk).foldl
    (fun roundKey i => putWord roundKey (i * 4) (Vector.ofFn fun j => view key (i * 4 + j)))
    roundKey
  (List.range' nk (nb * (nr + 1) - nk)).foldl expandWord roundKey

/-- `AES_init_ctx`. -/
def aesInitCtx (ctx : AesCtx) (key : Block) : AesCtx :=
  { ctx with roundKey := keyExpansion ctx.roundKey key }

/-- `AES_ctx_set_iv`. -/
def aesCtxSetIv (ctx : AesCtx) (iv : Block) : AesCtx := { ctx with iv := iv }

/-! ## The transformations of the state -/

/-- `AddRoundKey`. -/
def addRoundKey (round : ℕ) (state : Block) (roundKey : RoundKeys) : Block :=
  Vector.ofFn fun k => state[k] ^^^ view roundKey (round * nb * 4 + k)

/-- `SubBytes`. -/
def subBytes (state : Block) : Block := state.map getSBoxValue

/-- `ShiftRows`: row `j` is rotated by `j` columns. -/
def shiftRows (state : Block) : Block :=
  -- the first row by one column
  let temp := state[1]
  let state := state.set 1 state[5]
  let state := state.set 5 state[9]
  let state := state.set 9 state[13]
  let state := state.set 13 temp
  -- the second row by two columns
  let temp := state[2]
  let state := state.set 2 state[10]
  let state := state.set 10 temp
  let temp := state[6]
  let state := state.set 6 state[14]
  let state := state.set 14 temp
  -- the third row by three columns
  let temp := state[3]
  let state := state.set 3 state[15]
  let state := state.set 15 state[11]
  let state := state.set 11 state[7]
  state.set 7 temp

/-- `xtime`. -/
def xtime (x : UInt8) : UInt8 := (x <<< 1) ^^^ (((x >>> 7) &&& 1) * 0x1b)

/-- A loop over the columns, whose body is a function of the four bytes of a column. -/
def mapColumns (f : UInt8 → UInt8 → UInt8 → UInt8 → Word) (state : Block) : Block :=
  let c0 := f state[0] state[1] state[2] state[3]
  let c1 := f state[4] state[5] state[6] state[7]
  let c2 := f state[8] state[9] state[10] state[11]
  let c3 := f state[12] state[13] state[14] state[15]
  #v[c0[0], c0[1], c0[2], c0[3], c1[0], c1[1], c1[2], c1[3],
    c2[0], c2[1], c2[2], c2[3], c3[0], c3[1], c3[2], c3[3]]

/-- The body of the loop of `MixColumns`, on one column. -/
def mixColumn (s0 s1 s2 s3 : UInt8) : Word :=
  let t := s0
  let tmp := s0 ^^^ s1 ^^^ s2 ^^^ s3
  let tm := s0 ^^^ s1
  let tm := xtime tm
  let s0 := s0 ^^^ (tm ^^^ tmp)
  let tm := s1 ^^^ s2
  let tm := xtime tm
  let s1 := s1 ^^^ (tm ^^^ tmp)
  let tm := s2 ^^^ s3
  let tm := xtime tm
  let s2 := s2 ^^^ (tm ^^^ tmp)
  let tm := s3 ^^^ t
  let tm := xtime tm
  let s3 := s3 ^^^ (tm ^^^ tmp)
  #v[s0, s1, s2, s3]

/-- `MixColumns`. -/
def mixColumns (state : Block) : Block := mapColumns mixColumn state

/-- `Multiply(x, y)`, for the constants `y` below 32 that the source multiplies with. -/
def multiply (x y : UInt8) : UInt8 :=
  let term0 := (y &&& 1) * x
  let term1 := (y >>> 1 &&& 1) * xtime x
  let term2 := (y >>> 2 &&& 1) * xtime (xtime x)
  let term3 := (y >>> 3 &&& 1) * xtime (xtime (xtime x))
  let term4 := (y >>> 4 &&& 1) * xtime (xtime (xtime (xtime x)))
  term0 ^^^ term1 ^^^ term2 ^^^ term3 ^^^ term4

/-- The body of the loop of `InvMixColumns`, on one column. -/
def invMixColumn (a b c d : UInt8) : Word :=
  #v[multiply a 0x0e ^^^ multiply b 0x0b ^^^ multiply c 0x0d ^^^ multiply d 0x09,
    multiply a 0x09 ^^^ multiply b 0x0e ^^^ multiply c 0x0b ^^^ multiply d 0x0d,
    multiply a 0x0d ^^^ multiply b 0x09 ^^^ multiply c 0x0e ^^^ multiply d 0x0b,
    multiply a 0x0b ^^^ multiply b 0x0d ^^^ multiply c 0x09 ^^^ multiply d 0x0e]

/-- `InvMixColumns`. -/
def invMixColumns (state : Block) : Block := mapColumns invMixColumn state

/-- `InvSubBytes`. -/
def invSubBytes (state : Block) : Block := state.map getSBoxInvert

/-- `InvShiftRows`. -/
def invShiftRows (state : Block) : Block :=
  let temp := state[13]
  let state := state.set 13 state[9]
  let state := state.set 9 state[5]
  let state := state.set 5 state[1]
  let state := state.set 1 temp
  let temp := state[2]
  let state := state.set 2 state[10]
  let state := state.set 10 temp
  let temp := state[6]
  let state := state.set 6 state[14]
  let state := state.set 14 temp
  let temp := state[3]
  let state := state.set 3 state[7]
  let state := state.set 7 state[11]
  let state := state.set 11 state[15]
  state.set 15 temp

/-! ## The cipher -/

/-- `Cipher`. Its loop is left in round `Nr`, in front of `MixColumns`. -/
def cipher (state : Block) (roundKey : RoundKeys) : Block :=
  let state := addRoundKey 0 state roundKey
  let state := (List.range' 1 (nr - 1)).foldl
    (fun state round => addRoundKey round (mixColumns (shiftRows (subBytes state))) roundKey) state
  addRoundKey nr (shiftRows (subBytes state)) roundKey

/-- `InvCipher`. Its loop is left in round 0, in front of `InvMixColumns`. -/
def invCipher (state : Block) (roundKey : RoundKeys) : Block :=
  let state := addRoundKey nr state roundKey
  let state := (List.range' 1 (nr - 1)).reverse.foldl
    (fun state round =>
      invMixColumns (addRoundKey round (invSubBytes (invShiftRows state)) roundKey)) state
  addRoundKey 0 (invSubBytes (invShiftRows state)) roundKey

/-- `AES_ECB_encrypt`. -/
def aesEcbEncrypt (ctx : AesCtx) (buf : Block) : Block := cipher buf ctx.roundKey

/-- `AES_ECB_decrypt`. -/
def aesEcbDecrypt (ctx : AesCtx) (buf : Block) : Block := invCipher buf ctx.roundKey

end MeshcoreC.Crypto
