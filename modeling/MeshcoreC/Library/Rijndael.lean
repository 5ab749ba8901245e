import Mathlib

/-! # AES-128 as a standard

The cipher in terms of the field of 256 elements, without tables: bytes are polynomials over the
field of two elements modulo `x⁸ + x⁴ + x³ + x + 1`, states have four rows and four columns of
bytes, and the key schedule is a recurrence on words.

* **`subByte`** — the S-box: the inverse in the field, then an affine map.
* **`keyWord`** — the key schedule; `keyWord_injective` says that any four words in a row determine
  the key.
* **`encrypt`** — the cipher. -/

namespace Rijndael

/-! ## The field -/

/-- Multiplication with `x`. -/
def xtimes (b : UInt8) : UInt8 := if b < 0x80 then b <<< 1 else b <<< 1 ^^^ 0x1b

/-- The multiples of `a` for the lowest bits of `b`, added up. -/
def mulBits : ℕ → UInt8 → UInt8 → UInt8
  | 0, _, _ => 0
  | n + 1, a, b => (if b &&& 1 = 1 then a else 0) ^^^ mulBits n (xtimes a) (b >>> 1)

/-- Multiplication. -/
def mul (a b : UInt8) : UInt8 := mulBits 8 a b

/-- The multiplicative inverse, as the power with exponent 254; zero is sent to itself. -/
def inverse (b : UInt8) : UInt8 :=
  let b2 := mul b b
  let b4 := mul b2 b2
  let b8 := mul b4 b4
  let b16 := mul b8 b8
  let b32 := mul b16 b16
  let b64 := mul b32 b32
  let b128 := mul b64 b64
  mul b2 (mul b4 (mul b8 (mul b16 (mul b32 (mul b64 b128)))))

/-- Rotation to the left. -/
def rotateLeft (b k : UInt8) : UInt8 := b <<< k ||| b >>> (8 - k)

/-- The affine map: bit `i` of the result is the sum of the bits `i`, `i + 4`, `i + 5`, `i + 6` and
`i + 7`, modulo 8, and of bit `i` of a constant. -/
def affine (b : UInt8) : UInt8 :=
  b ^^^ rotateLeft b 4 ^^^ rotateLeft b 3 ^^^ rotateLeft b 2 ^^^ rotateLeft b 1 ^^^ 0x63

/-- The S-box. -/
def subByte (b : UInt8) : UInt8 := affine (inverse b)

/-! ## The key schedule -/

/-- Four bytes. -/
abbrev Word := Fin 4 → UInt8

/-- The bytes of a word, one step to the left. -/
def rotWord (w : Word) : Word := fun j => w (j + 1)

/-- The substitution of the four bytes of a word. -/
def subWord (w : Word) : Word := fun j => subByte (w j)

/-- The round constant: a power of `x` in front of zeros. -/
def roundConstant (round : ℕ) : Word := fun j => if j = 0 then xtimes^[round - 1] 1 else 0

/-- What is added to the word four places back. -/
def scheduleTerm (i : ℕ) (w : Word) : Word :=
  if i % 4 = 0 then fun j => subWord (rotWord w) j ^^^ roundConstant (i / 4) j else w

/-- The words of the key schedule. -/
def keyWord (key : Fin 4 → Word) (i : ℕ) : Word :=
  if h : i < 4 then key ⟨i, h⟩
  else fun j => keyWord key (i - 4) j ^^^ scheduleTerm i (keyWord key (i - 1)) j
termination_by i

/-- The first four words are the key. -/
theorem keyWord_of_lt (key : Fin 4 → Word) {i : ℕ} (h : i < 4) : keyWord key i = key ⟨i, h⟩ := by
  rw [keyWord, dif_pos h]

/-- The recurrence of the other words. -/
theorem keyWord_of_le (key : Fin 4 → Word) {i : ℕ} (h : 4 ≤ i) :
    keyWord key i = fun j => keyWord key (i - 4) j ^^^ scheduleTerm i (keyWord key (i - 1)) j := by
  rw [keyWord, dif_neg (not_lt.mpr h)]

/-- A word and the three behind it determine the one in front of them. -/
theorem keyWord_pred {key key' : Fin 4 → Word} {i : ℕ}
    (hlast : keyWord key (i + 3) = keyWord key' (i + 3))
    (hnext : keyWord key (i + 4) = keyWord key' (i + 4)) : keyWord key i = keyWord key' i := by
  rw [keyWord_of_le key (by omega), keyWord_of_le key' (by omega)] at hnext
  have hpred : i + 4 - 1 = i + 3 := rfl
  simp only [Nat.add_sub_cancel, hpred, hlast] at hnext
  funext j
  exact (UInt8.xor_left_inj _).mp (congrFun hnext j)

/-- **Any four words in a row determine the key.** -/
theorem keyWord_injective {key key' : Fin 4 → Word} {i : ℕ}
    (h : ∀ k < 4, keyWord key (i + k) = keyWord key' (i + k)) : key = key' := by
  induction i with
  | zero =>
      funext k
      have hk := h k k.isLt
      rwa [Nat.zero_add, keyWord_of_lt key k.isLt, keyWord_of_lt key' k.isLt] at hk
  | succ i ih =>
      apply ih
      intro k hk
      rcases Nat.eq_zero_or_pos k with rfl | hpos
      · exact keyWord_pred (h 2 (by decide)) (h 3 (by decide))
      · have hprev := h (k - 1) (by omega)
        rwa [show i + 1 + (k - 1) = i + k by omega] at hprev

/-! ## The cipher -/

/-- A state: rows of four bytes. -/
abbrev State := Fin 4 → Fin 4 → UInt8

/-- The substitution of all bytes of the state. -/
def subBytes (s : State) : State := fun r c => subByte (s r c)

/-- Row `r` is rotated by `r` columns. -/
def shiftRows (s : State) : State := fun r c => s r (c + r)

/-- Every column is multiplied with the fixed polynomial. -/
def mixColumns (s : State) : State := fun r c =>
  mul 2 (s r c) ^^^ mul 3 (s (r + 1) c) ^^^ s (r + 2) c ^^^ s (r + 3) c

/-- Four words of the key schedule are added to the columns. -/
def addRoundKey (key : Fin 4 → Word) (round : ℕ) (s : State) : State := fun r c =>
  s r c ^^^ keyWord key (4 * round + c) r

/-- A whole round. -/
def round (key : Fin 4 → Word) (s : State) (i : ℕ) : State :=
  addRoundKey key i (mixColumns (shiftRows (subBytes s)))

/-- The cipher. -/
def encrypt (key : Fin 4 → Word) (s : State) : State :=
  addRoundKey key 10 (shiftRows (subBytes
    ((List.range' 1 9).foldl (round key) (addRoundKey key 0 s))))

end Rijndael
