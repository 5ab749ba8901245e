import MeshcoreC.Crypto.Sha256
import MeshcoreC.Library.Sha256Standard
import MeshcoreC.Library.WhileLoop

/-! # The compression is the standard one

* **`view_kArray`** — the table of constants holds the cube roots of the primes.
* **`scheduled_fillWords`** — the array `W` is the message schedule.
* **`registersOf_transformFunction`** — `TransformFunction` compresses the 64 bytes it is given. -/

namespace MeshcoreC.Crypto.Sha256

open Buffers Wire Loops

/-! ## Constants -/

/-- The first 64 primes. -/
theorem primes_eq :
    Sha2.primes =
      [2, 3, 5, 7, 11, 13, 17, 19, 23, 29, 31, 37, 41, 43, 47, 53, 59, 61, 67, 71, 73, 79, 83, 89,
        97, 101, 103, 107, 109, 113, 127, 131, 137, 139, 149, 151, 157, 163, 167, 173, 179, 181,
        191, 193, 197, 199, 211, 223, 227, 229, 233, 239, 241, 251, 257, 263, 269, 271, 277, 281,
        283, 293, 307, 311] := by
  decide +kernel

/-- **The K array holds the constants of the rounds.** -/
theorem view_kArray {t : ℕ} (h : t < 64) : view kArray t = Sha2.roundConstant t := by
  have hall : ∀ i : Fin 64, view kArray i = Sha2.roundConstant i := by
    simp only [Sha2.roundConstant, primes_eq]
    decide +kernel
  exact hall ⟨t, h⟩

/-! ## Logical functions -/

/-- The macro chooses bit by bit. -/
theorem ch_eq (x y z : UInt32) : ch x y z = Sha2.ch x y z := by
  apply UInt32.toBitVec_inj.mp
  ext i hi
  simp only [ch, Sha2.ch, UInt32.toBitVec_xor, UInt32.toBitVec_and, UInt32.toBitVec_not,
    BitVec.getElem_xor, BitVec.getElem_and, BitVec.getElem_not]
  cases x.toBitVec[i] <;> cases y.toBitVec[i] <;> cases z.toBitVec[i] <;> rfl

/-- The macro takes the majority bit by bit. -/
theorem maj_eq (x y z : UInt32) : maj x y z = Sha2.maj x y z := by
  apply UInt32.toBitVec_inj.mp
  ext i hi
  simp only [maj, Sha2.maj, UInt32.toBitVec_xor, UInt32.toBitVec_and, UInt32.toBitVec_or,
    BitVec.getElem_xor, BitVec.getElem_and, BitVec.getElem_or]
  cases x.toBitVec[i] <;> cases y.toBitVec[i] <;> cases z.toBitVec[i] <;> rfl

/-- The mask in the macro does nothing to a 32-bit number. -/
theorem r_eq (x n : UInt32) : r x n = x >>> n := by
  rw [r, show (0xFFFFFFFF : UInt32) = -1 from rfl, UInt32.and_neg_one]

/-- The code writes `Sigma0` for the standard's large sigma. -/
theorem sigma0_eq (x : UInt32) : sigma0 x = Sha2.bigSigma0 x := rfl

/-- The same for `Sigma1`. -/
theorem sigma1_eq (x : UInt32) : sigma1 x = Sha2.bigSigma1 x := rfl

/-- The code writes `Gamma0` for the standard's small sigma. -/
theorem gamma0_eq (x : UInt32) : gamma0 x = Sha2.sigma0 x := by
  rw [gamma0, r_eq]
  rfl

/-- The same for `Gamma1`. -/
theorem gamma1_eq (x : UInt32) : gamma1 x = Sha2.sigma1 x := by
  rw [gamma1, r_eq]
  rfl

/-! ## Big-endian words -/

/-- Two halves that do not overlap. -/
theorem toNat_shiftLeft_or {a b k : ℕ} (hb : b < 2 ^ k) : a <<< k ||| b = a * 2 ^ k + b := by
  rw [← Nat.shiftLeft_add_eq_or_of_lt hb, Nat.shiftLeft_eq]

/-- A byte that is shifted inside a word. -/
theorem toNat_byte_shiftLeft (b : UInt8) {k : UInt32} (hk : k.toNat ≤ 24) :
    ((b.toUInt32 &&& 255) <<< k).toNat = b.toNat <<< k.toNat := by
  have hb := b.toNat_lt
  have hmask : (b.toUInt32 &&& 255).toNat = b.toNat := by
    rw [UInt32.toNat_and, UInt8.toNat_toUInt32, show (255 : UInt32).toNat = 2 ^ 8 - 1 from rfl,
      Nat.and_two_pow_sub_one_eq_mod, Nat.mod_eq_of_lt hb]
  have hfit : b.toNat * 2 ^ k.toNat < 2 ^ 32 :=
    calc b.toNat * 2 ^ k.toNat < 2 ^ 8 * 2 ^ k.toNat :=
          Nat.mul_lt_mul_of_pos_right hb (Nat.two_pow_pos _)
      _ = 2 ^ (8 + k.toNat) := (pow_add ..).symm
      _ ≤ 2 ^ 32 := Nat.pow_le_pow_right (by decide) (by omega)
  rw [UInt32.toNat_shiftLeft, hmask, Nat.mod_eq_of_lt (show k.toNat < 32 by omega),
    Nat.shiftLeft_eq, Nat.mod_eq_of_lt hfit]

/-- **`LOAD32H` loads a big-endian word.** -/
theorem load32h_eq (y : Memory) : load32h y = Sha2.wordOf [y 0, y 1, y 2, y 3] := by
  have h0 := (y 0).toNat_lt
  have h1 := (y 1).toNat_lt
  have h2 := (y 2).toNat_lt
  have h3 := (y 3).toNat_lt
  have hlow : ((y 3).toUInt32 &&& 255).toNat = (y 3).toNat := by
    simpa using toNat_byte_shiftLeft (y 3) (k := 0) (by decide)
  apply UInt32.toNat_inj.mp
  rw [load32h, UInt32.toNat_or, UInt32.toNat_or, UInt32.toNat_or,
    toNat_byte_shiftLeft _ (by decide), toNat_byte_shiftLeft _ (by decide),
    toNat_byte_shiftLeft _ (by decide), hlow, show (24 : UInt32).toNat = 24 from rfl,
    show (16 : UInt32).toNat = 16 from rfl, show (8 : UInt32).toNat = 8 from rfl, Nat.or_assoc,
    Nat.or_assoc, toNat_shiftLeft_or (a := (y 2).toNat) (by omega),
    toNat_shiftLeft_or (a := (y 1).toNat) (by omega),
    toNat_shiftLeft_or (a := (y 0).toNat) (by omega), Sha2.wordOf, UInt32.toNat_ofNat']
  simp only [List.reverse_cons, List.reverse_nil, List.nil_append, List.cons_append,
    ofLeBytes_cons]
  rw [show ofLeBytes [] = 0 from rfl, Nat.mod_eq_of_lt (by omega)]
  omega

/-! ## The message schedule -/

/-- The first `n` elements of `W` are the message schedule of a block. -/
def Scheduled (buffer : Memory) (n : ℕ) (w : Vector UInt32 64) : Prop :=
  ∀ t < n, view w t = Sha2.schedule (slice buffer 0 64) t

variable {buffer : Memory} {w : Vector UInt32 64} {n : ℕ}

/-- One element more. -/
theorem Scheduled.set (h : Scheduled buffer n w) (hn : n < 64) {x : UInt32}
    (hx : x = Sha2.schedule (slice buffer 0 64) n) :
    Scheduled buffer (n + 1) (w.setIfInBounds n x) := by
  intro t ht
  rw [view_setIfInBounds _ _ hn, Function.update_apply]
  by_cases htn : t = n
  · rw [if_pos htn, htn, hx]
  · rw [if_neg htn, h t (by omega)]

/-- A word of the block. -/
theorem schedule_slice (buffer : Memory) {t : ℕ} (h : t < 16) :
    Sha2.schedule (slice buffer 0 64) t = load32h fun j => buffer (4 * t + j) := by
  have hsplit : slice buffer 0 64 = slice buffer 0 (4 * t) ++
      (slice buffer (4 * t) 4 ++ slice buffer (4 * t + 4) (60 - 4 * t)) := by
    have hlen : 64 = 4 * t + (4 + (60 - 4 * t)) := by omega
    rw [← slice_add, hlen, slice_add, Nat.zero_add]
  rw [Sha2.schedule_of_lt _ h, load32h_eq, hsplit, List.drop_left' (length_slice ..),
    List.take_left' (length_slice ..)]
  rfl

/-- The first loop puts the words of the block into the schedule. -/
theorem scheduled_loadWords (buffer : Memory) (w : Vector UInt32 64) :
    Scheduled buffer 16 (loadWords buffer w) := by
  rw [loadWords]
  have hloop := range'_induction (P := fun i w => Scheduled buffer i w) (a := 0) (n := 16)
    (f := fun w i => w.setIfInBounds i (load32h fun j => buffer (4 * i + j)))
    (fun i _ hi w h => h.set (by omega) (schedule_slice buffer (by omega)).symm) (b := w)
    (fun t ht => absurd ht (Nat.not_lt_zero t))
  exact hloop

/-- **`W` is the message schedule.** -/
theorem scheduled_fillWords (h : Scheduled buffer 16 w) : Scheduled buffer 64 (fillWords w) := by
  rw [fillWords]
  exact range'_induction (P := fun i w => Scheduled buffer i w) (a := 16) (n := 48)
    (fun i hle hi w h => h.set (by omega) (by
      rw [h _ (by omega), h _ (by omega), h _ (by omega), h _ (by omega), gamma0_eq, gamma1_eq,
        Sha2.schedule_of_le _ hle])) h

/-! ## Rounds -/

/-- The registers of a state. -/
def registersOf (s : Vector UInt32 8) : Sha2.Registers where
  a := s.get 0
  b := s.get 1
  c := s.get 2
  d := s.get 3
  e := s.get 4
  f := s.get 5
  g := s.get 6
  h := s.get 7

/-- **One iteration is one round.** -/
theorem registersOf_sha256Round (h : Scheduled buffer 64 w) {i : ℕ} (hi : i < 64)
    (s : Vector UInt32 8) :
    registersOf (sha256Round w s i) = Sha2.round (slice buffer 0 64) (registersOf s) i := by
  rw [Sha2.round, ← h i hi, ← view_kArray hi]
  simp only [registersOf, sha256Round, ch_eq, maj_eq, sigma0_eq, sigma1_eq]
  simp [Vector.get_eq_getElem]

/-- The rounds together. -/
theorem registersOf_rounds (h : Scheduled buffer 64 w) (s : Vector UInt32 8) :
    registersOf ((List.range' 0 64).foldl (sha256Round w) s) =
      (List.range 64).foldl (Sha2.round (slice buffer 0 64)) (registersOf s) := by
  have hloop := range'_induction (a := 0) (n := 64) (f := sha256Round w) (b := s)
    (P := fun i t =>
      registersOf t = (List.range i).foldl (Sha2.round (slice buffer 0 64)) (registersOf s))
    (fun i _ hi t ht => by
      rw [registersOf_sha256Round h (by omega), List.range_succ, List.foldl_append, ← ht]
      rfl) rfl
  exact hloop

/-- **`TransformFunction` is the standard's compression** of the 64 bytes at the address. -/
theorem registersOf_transformFunction (context : Sha256Context) (buffer : Memory) :
    registersOf (transformFunction context buffer).state =
      Sha2.compress (registersOf context.state) (slice buffer 0 64) := by
  have hw := scheduled_fillWords (scheduled_loadWords buffer (Vector.replicate 64 0))
  rw [Sha2.compress, ← registersOf_rounds hw]
  simp [transformFunction, registersOf, Sha2.add, Vector.get_eq_getElem]

end MeshcoreC.Crypto.Sha256
