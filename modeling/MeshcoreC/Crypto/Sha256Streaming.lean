import MeshcoreC.Crypto.Sha256Compression

/-! # Hashing a message in pieces

* **`Represents`** — what a context stands for: the message that was given to it, of which the
  complete blocks are compressed and the rest is pending.
* **`represents_sha256Update`** — an update appends to the message, whatever its length.
* **`sha256Finalise_eq`** — the digest is the hash of the message.
* **`sha256_pieces`** — so a message may be given in pieces of any lengths. -/

namespace MeshcoreC.Crypto.Sha256

open Buffers Wire Loops Hashes

/-! ## Contexts and messages -/

/-- The bytes of a block that is not complete. -/
def pending (context : Sha256Context) : List UInt8 :=
  slice (view context.buf) 0 context.curlen.toNat

@[simp] theorem length_pending (context : Sha256Context) :
    (pending context).length = context.curlen.toNat := length_slice ..

/-- **The invariant of a context**: the state after the complete blocks of a message, the rest of
it, and the number of bits in the complete blocks. -/
structure Represents (context : Sha256Context) (message : List UInt8) : Prop where
  absorbed : absorb Sha2.compress 64 Sha2.initial message =
    (registersOf context.state, pending context)
  length : context.length = UInt64.ofNat (8 * (message.length - context.curlen.toNat))

/-- The context starts from the fractions of the square roots of the first eight primes. -/
theorem initial_eq :
    registersOf #v[0x6A09E667, 0xBB67AE85, 0x3C6EF372, 0xA54FF53A, 0x510E527F, 0x9B05688C,
      0x1F83D9AB, 0x5BE0CD19] = Sha2.initial := by
  decide +kernel

/-- A new context stands for the empty message, whatever it held before. -/
theorem represents_sha256Initialise (context : Sha256Context) :
    Represents (sha256Initialise context) [] where
  absorbed := by
    rw [absorb_of_lt (by decide)]
    apply Prod.ext
    · exact initial_eq.symm
    · rfl
  length := rfl

namespace Represents

variable {context context' : Sha256Context} {message : List UInt8}

/-- Less than a block is pending. -/
theorem curlen_eq (h : Represents context message) :
    context.curlen.toNat = message.length % 64 := by
  have hlen : (absorb Sha2.compress 64 Sha2.initial message).2.length = message.length % 64 :=
    length_absorb (by decide) Sha2.initial message
  rwa [h.absorbed, length_pending] at hlen

/-- There is never a whole block in the buffer. -/
theorem curlen_lt (h : Represents context message) : context.curlen.toNat < 64 := by
  rw [h.curlen_eq]
  exact Nat.mod_lt _ (by decide)

/-- The buffer holds a part of the message. -/
theorem curlen_le (h : Represents context message) :
    context.curlen.toNat ≤ message.length := by
  rw [h.curlen_eq]
  exact Nat.mod_le ..

/-- What follows a message is absorbed behind what is pending. -/
theorem absorb_append (h : Represents context message) (src : List UInt8) :
    absorb Sha2.compress 64 Sha2.initial (message ++ src) =
      absorb Sha2.compress 64 (registersOf context.state) (pending context ++ src) := by
  rw [Hashes.absorb_append (by decide), h.absorbed]

/-- A block that is complete with some bytes more is compressed. -/
theorem compressed (h : Represents context message) {src : List UInt8}
    (hlen : (pending context ++ src).length = 64)
    (hstate : registersOf context'.state =
      Sha2.compress (registersOf context.state) (pending context ++ src))
    (hlength : context'.length = context.length + 512) (hcurlen : context'.curlen = 0) :
    Represents context' (message ++ src) := by
  have hle := h.curlen_le
  have hzero : context'.curlen.toNat = 0 := by rw [hcurlen]; rfl
  rw [List.length_append, length_pending] at hlen
  constructor
  · rw [h.absorb_append, absorb_singleton (by decide) _ (by simpa using hlen), hstate, pending,
      pending, hzero, slice_zero]
  · have hbits : 8 * ((message ++ src).length - 0)
        = 8 * (message.length - context.curlen.toNat) + 512 := by
      rw [List.length_append]
      omega
    rw [hlength, h.length, hzero, hbits, UInt64.ofNat_add]
    rfl

/-- Some bytes are put behind what is pending, and a block that is complete then is compressed. -/
theorem flushBuf (h : Represents context message) {src : List UInt8}
    (hfit : context.curlen.toNat + src.length ≤ 64) (hstate : context'.state = context.state)
    (hlength : context'.length = context.length)
    (hcurlen : context'.curlen.toNat = context.curlen.toNat + src.length)
    (hpending : pending context' = pending context ++ src) :
    Represents (flushBuf context') (message ++ src) := by
  have hle := h.curlen_le
  rw [Sha256.flushBuf]
  by_cases hfull : context'.curlen = blockSize
  · have h64 : context'.curlen.toNat = 64 := by rw [hfull]; rfl
    rw [if_pos hfull]
    apply h.compressed
    · rw [← hpending, length_pending, h64]
    · rw [← hpending, ← hstate, pending, h64]
      exact registersOf_transformFunction context' (view context'.buf)
    · rw [← hlength]
      rfl
    · rfl
  · have hlt : context'.curlen.toNat < 64 := by
      have hne : context'.curlen.toNat ≠ 64 := fun h64 => hfull (UInt32.toNat_inj.mp h64)
      omega
    rw [if_neg hfull]
    constructor
    · rw [h.absorb_append, ← hpending, ← hstate,
        absorb_of_lt (by rw [length_pending]; exact hlt)]
    · rw [hlength, h.length, List.length_append, hcurlen]
      congr 2
      omega

end Represents

/-! ## Updates -/

/-- Bytes are copied behind the pending ones. -/
theorem slice_copyToBuf (buf : Vector UInt8 64) {curlen : ℕ} {src : List UInt8}
    (hfit : curlen + src.length ≤ 64) :
    slice (view (copyToBuf buf curlen src)) 0 (curlen + src.length) =
      slice (view buf) 0 curlen ++ src := by
  have hstore := slice_store_append (view buf) 0 curlen src
  rw [Nat.zero_add] at hstore
  rw [← hstore, copyToBuf]
  exact slice_view_ofFn (store (view buf) curlen src) hfit

/-- The invariant of the loop: the context stands for the old message and the bytes that were taken,
and the other bytes are still to be taken. -/
structure Updating (buffer : Memory) (message : List UInt8) (total : ℕ) (s : UpdateState) :
    Prop where
  represents : Represents s.context (message ++ slice buffer 0 s.position)
  remaining : s.position + s.bufferSize.toNat = total

variable {buffer : Memory} {message : List UInt8} {total : ℕ}

/-- **One iteration takes some bytes.** -/
theorem Updating.step {s : UpdateState} (h : Updating buffer message total s) :
    Updating buffer message total (updateStep buffer s) := by
  have hrep := h.represents
  have hlt := hrep.curlen_lt
  have hremaining := h.remaining
  unfold updateStep
  by_cases hblock : s.context.curlen = 0 ∧ blockSize ≤ s.bufferSize
  · have hle : 64 ≤ s.bufferSize.toNat := UInt32.le_iff_toNat_le.mp hblock.2
    have hsub := UInt32.toNat_sub_of_le _ _ hblock.2
    have hempty : pending s.context = [] := by
      rw [pending, hblock.1]
      rfl
    rw [if_pos hblock]
    constructor
    · show Represents _ (message ++ slice buffer 0 (s.position + 64))
      rw [slice_add, Nat.zero_add, ← List.append_assoc]
      apply hrep.compressed
      · rw [hempty, List.nil_append, length_slice]
      · rw [hempty, List.nil_append]
        exact registersOf_transformFunction s.context fun i => buffer (s.position + i)
      · rfl
      · exact hblock.1
    · show s.position + 64 + (s.bufferSize - blockSize).toNat = total
      rw [hsub, show blockSize.toNat = 64 from rfl]
      omega
  · rw [if_neg hblock]
    have hfree : (blockSize - s.context.curlen).toNat = 64 - s.context.curlen.toNat :=
      UInt32.toNat_sub_of_le _ _ (UInt32.le_iff_toNat_le.mpr hlt.le)
    have hle := minimum_le s.bufferSize (blockSize - s.context.curlen)
    have hsub := UInt32.toNat_sub_of_le _ _ hle
    have hn := toNat_minimum s.bufferSize (blockSize - s.context.curlen)
    rw [hfree] at hn
    generalize minimum s.bufferSize (blockSize - s.context.curlen) = n at hn hle hsub
    have hcurlen : (s.context.curlen + n).toNat = s.context.curlen.toNat + n.toNat := by
      rw [UInt32.toNat_add, Nat.mod_eq_of_lt (by omega)]
    constructor
    · show Represents _ (message ++ slice buffer 0 (s.position + n.toNat))
      rw [slice_add, Nat.zero_add, ← List.append_assoc]
      have hfit : s.context.curlen.toNat + (slice buffer s.position n.toNat).length ≤ 64 := by
        rw [length_slice]
        omega
      apply hrep.flushBuf hfit
      · rfl
      · rfl
      · rw [length_slice]
        exact hcurlen
      · have hcopy := slice_copyToBuf s.context.buf hfit
        rw [length_slice, ← hcurlen] at hcopy
        exact hcopy
    · show s.position + n.toNat + (s.bufferSize - n).toNat = total
      rw [hsub]
      omega

/-- The loop takes all bytes. -/
theorem Updating.loop {s : UpdateState} (h : Updating buffer message total s) :
    Represents (updateLoop buffer s).context (message ++ slice buffer 0 total) := by
  induction s using updateLoop.induct buffer with
  | case1 s hpos ih =>
      rw [updateLoop, dif_pos hpos]
      exact ih h.step
  | case2 s hpos =>
      have hzero : s.bufferSize.toNat = 0 := by
        have hle := UInt32.le_iff_toNat_le.mp (UInt32.not_lt.mp hpos)
        exact Nat.le_zero.mp hle
      have hremaining := h.remaining
      have hrep := h.represents
      rw [updateLoop, dif_neg hpos]
      rwa [show s.position = total by omega] at hrep

/-- **An update appends to the message**, whatever its length. -/
theorem represents_sha256Update {context : Sha256Context} (h : Represents context message)
    (buffer : Memory) (bufferSize : UInt32) :
    Represents (sha256Update context buffer bufferSize)
      (message ++ slice buffer 0 bufferSize.toNat) := by
  have hlt : ¬ (64 : UInt32) < context.curlen := by
    rw [UInt32.not_lt, UInt32.le_iff_toNat_le]
    exact h.curlen_lt.le
  rw [sha256Update, if_neg hlt]
  exact Updating.loop ⟨by simpa using h, Nat.zero_add _⟩

/-! ## The end of a message -/

/-- One byte is appended. -/
theorem pending_appendByte {context : Sha256Context} (h : context.curlen.toNat < 64) (b : UInt8) :
    pending (appendByte context b) = pending context ++ [b] := by
  have hcurlen : (appendByte context b).curlen.toNat = context.curlen.toNat + 1 :=
    toNat_curlen_appendByte (show context.curlen < 64 from UInt32.lt_iff_toNat_lt.mpr h) b
  have hslice := slice_update_succ (view context.buf) 0 context.curlen.toNat b
  rw [Nat.zero_add] at hslice
  rw [pending, hcurlen, pending, ← hslice, appendByte, view_setIfInBounds _ _ h]

/-- Zeros are appended up to the limit, and nothing else changes. -/
theorem appendZeros_eq {limit : UInt32} (hlimit : limit.toNat ≤ 64) {context : Sha256Context}
    (hle : context.curlen.toNat ≤ limit.toNat) :
    pending (appendZeros limit context) =
        pending context ++ List.replicate (limit.toNat - context.curlen.toNat) 0 ∧
      (appendZeros limit context).curlen = limit ∧
      (appendZeros limit context).state = context.state ∧
      (appendZeros limit context).length = context.length := by
  induction context using appendZeros.induct limit with
  | case1 context hlt ih =>
      have hnat := UInt32.lt_iff_toNat_lt.mp hlt
      have hcurlen := toNat_curlen_appendByte hlt 0
      obtain ⟨hpending, hend, hstate, hlength⟩ := ih (by omega)
      rw [appendZeros, dif_pos hlt]
      refine ⟨?_, hend, hstate, hlength⟩
      rw [hpending, pending_appendByte (by omega), hcurlen, List.append_assoc,
        List.singleton_append, ← List.replicate_succ]
      congr 2
      omega
  | case2 context hlt =>
      have hge := UInt32.le_iff_toNat_le.mp (UInt32.not_lt.mp hlt)
      have heq : context.curlen = limit := UInt32.toNat_inj.mp (le_antisymm hle hge)
      rw [appendZeros, dif_neg hlt, heq]
      simp

/-- The low bytes of a number modulo a power of 256. -/
theorem leBytes_mod (w n : ℕ) : leBytes w (n % 256 ^ w) = leBytes w n := by
  have hbytes := leBytes_ofLeBytes (leBytes w n)
  rwa [length_leBytes, ofLeBytes_leBytes] at hbytes

/-- A byte of a shifted number. -/
theorem toUInt8_shiftRight (x k : UInt64) (hk : k.toNat < 64) :
    ((x >>> k) &&& 255).toUInt8 = UInt8.ofNat (x.toNat / 2 ^ k.toNat) := by
  apply UInt8.toNat_inj.mp
  rw [UInt64.toNat_toUInt8, UInt64.toNat_and, UInt64.toNat_shiftRight, Nat.mod_eq_of_lt hk,
    show (255 : UInt64).toNat = 2 ^ 8 - 1 from rfl, Nat.and_two_pow_sub_one_eq_mod,
    Nat.mod_mod, Nat.shiftRight_eq_div_pow, UInt8.toNat_ofNat']

/-- **`STORE64H` stores the big-endian bytes.** -/
theorem store64h_eq (x : UInt64) : store64h x = (leBytes 8 x.toNat).reverse := by
  have hlow : (x &&& 255).toUInt8 = UInt8.ofNat x.toNat := by
    simpa using toUInt8_shiftRight x 0 (by decide)
  rw [store64h, hlow, toUInt8_shiftRight x 56 (by decide), toUInt8_shiftRight x 48 (by decide),
    toUInt8_shiftRight x 40 (by decide), toUInt8_shiftRight x 32 (by decide),
    toUInt8_shiftRight x 24 (by decide), toUInt8_shiftRight x 16 (by decide),
    toUInt8_shiftRight x 8 (by decide)]
  simp [leBytes, Nat.div_div_eq_div_mul]

/-- A byte of a shifted word. -/
theorem toUInt8_shiftRight_word (x k : UInt32) (hk : k.toNat < 32) :
    ((x >>> k) &&& 255).toUInt8 = UInt8.ofNat (x.toNat / 2 ^ k.toNat) := by
  apply UInt8.toNat_inj.mp
  rw [UInt32.toNat_toUInt8, UInt32.toNat_and, UInt32.toNat_shiftRight, Nat.mod_eq_of_lt hk,
    show (255 : UInt32).toNat = 2 ^ 8 - 1 from rfl, Nat.and_two_pow_sub_one_eq_mod,
    Nat.mod_mod, Nat.shiftRight_eq_div_pow, UInt8.toNat_ofNat']

/-- **`STORE32H` stores the big-endian bytes.** -/
theorem store32h_eq (x : UInt32) : store32h x = (leBytes 4 x.toNat).reverse := by
  have hlow : (x &&& 255).toUInt8 = UInt8.ofNat x.toNat := by
    simpa using toUInt8_shiftRight_word x 0 (by decide)
  rw [store32h, hlow, toUInt8_shiftRight_word x 24 (by decide),
    toUInt8_shiftRight_word x 16 (by decide), toUInt8_shiftRight_word x 8 (by decide)]
  simp [leBytes, Nat.div_div_eq_div_mul]

/-- The bytes of the words of a state. -/
theorem flatMap_store32h (state : Vector UInt32 8) :
    state.toList.flatMap store32h = Sha2.bytes (registersOf state) := by
  have hwords : state.toList =
      [state[0], state[1], state[2], state[3], state[4], state[5], state[6], state[7]] := by
    apply List.ext_getElem (by simp)
    intro i hi _
    rw [Vector.length_toList] at hi
    rw [Vector.getElem_toList]
    interval_cases i <;> rfl
  rw [hwords, Sha2.bytes, show store32h = fun x => (leBytes 4 x.toNat).reverse from
    funext store32h_eq]
  rfl

/-- The digest is overwritten with the words of a state. -/
theorem toList_blit_words (digest : Sha256Hash) (state : Vector UInt32 8) :
    (blit digest (state.toList.flatMap store32h)).toList = Sha2.bytes (registersOf state) := by
  have hlen : (Sha2.bytes (registersOf state)).length = 32 := by simp [Sha2.bytes]
  rw [flatMap_store32h, toList_blit _ _ hlen.le, hlen, List.drop_eq_nil_of_le (by simp),
    List.append_nil]

/-- The padding of a block that may be too full for it: with zeros in between, the block is
compressed first. -/
theorem makeRoom_eq {context : Sha256Context} (hle : context.curlen.toNat ≤ 64)
    (tail : List UInt8) :
    absorb Sha2.compress 64 (registersOf context.state)
        (pending context ++ List.replicate ((120 - context.curlen.toNat) % 64) 0 ++ tail) =
      absorb Sha2.compress 64 (registersOf (makeRoom context).state)
        (pending (makeRoom context) ++
          List.replicate (56 - (makeRoom context).curlen.toNat) 0 ++ tail) ∧
      (makeRoom context).curlen.toNat ≤ 56 ∧ (makeRoom context).length = context.length := by
  rw [makeRoom]
  by_cases hfull : 56 < context.curlen
  · have hnat : 56 < context.curlen.toNat := UInt32.lt_iff_toNat_lt.mp hfull
    have h64 : (64 : UInt32).toNat = 64 := by decide
    obtain ⟨hpending, hend, hstate, hlength⟩ := appendZeros_eq h64.le hle
    rw [h64] at hpending
    rw [if_pos hfull]
    refine ⟨?_, Nat.zero_le _, hlength⟩
    have hzeros : (120 - context.curlen.toNat) % 64 = (64 - context.curlen.toNat) + 56 := by omega
    have hblock : (pending (appendZeros 64 context)).length = 64 := by
      rw [length_pending, hend, h64]
    have hsplit : pending context ++ List.replicate ((120 - context.curlen.toNat) % 64) 0 ++ tail
        = pending (appendZeros 64 context) ++ (List.replicate 56 0 ++ tail) := by
      rw [hpending, hzeros, ← List.replicate_append_replicate]
      simp only [List.append_assoc]
    rw [hsplit, absorb_block (by decide) _ hblock, registersOf_transformFunction, hstate, pending,
      hend, h64]
    rfl
  · have hnat : context.curlen.toNat ≤ 56 := UInt32.le_iff_toNat_le.mp (UInt32.not_lt.mp hfull)
    rw [if_neg hfull]
    refine ⟨?_, hnat, rfl⟩
    rw [show (120 - context.curlen.toNat) % 64 = 56 - context.curlen.toNat by omega]

/-- The last block: zeros, and the length. -/
theorem slice_lastBlock {context : Sha256Context} (hle : context.curlen.toNat ≤ 56) :
    slice (view (copyToBuf (appendZeros 56 context).buf 56
        (store64h (appendZeros 56 context).length))) 0 64 =
      pending context ++ List.replicate (56 - context.curlen.toNat) 0 ++
        store64h context.length := by
  have h56 : (56 : UInt32).toNat = 56 := by decide
  obtain ⟨hpending, hend, -, hlength⟩ := appendZeros_eq (h56.le.trans (by decide)) hle
  rw [pending, hend, h56] at hpending
  have hlen : (store64h context.length).length = 8 := by simp [store64h_eq]
  have hcopy := slice_copyToBuf (appendZeros 56 context).buf
    (show 56 + (store64h context.length).length ≤ 64 by rw [hlen])
  rw [hlen, hpending] at hcopy
  rw [hlength, hcopy]

/-- The number of bits of the whole message. -/
theorem Represents.bits {context : Sha256Context} {message : List UInt8}
    (h : Represents context message) :
    store64h (context.length + (context.curlen * 8).toUInt64) =
      Sha2.lengthBytes (8 * message.length) := by
  have hlt := h.curlen_lt
  have hle := h.curlen_le
  have hbits : (context.length + (context.curlen * 8).toUInt64).toNat
      = 8 * message.length % 256 ^ 8 := by
    rw [UInt64.toNat_add, UInt32.toNat_toUInt64, UInt32.toNat_mul, h.length, UInt64.toNat_ofNat',
      show (8 : UInt32).toNat = 8 from rfl, Nat.mod_eq_of_lt (by omega : _ < 2 ^ 32),
      Nat.mod_add_mod, show 256 ^ 8 = 2 ^ 64 by norm_num]
    congr 1
    omega
  rw [store64h_eq, hbits, leBytes_mod, Sha2.lengthBytes]

/-- What is done to the context when the first byte of the padding is appended. -/
def beginPadding (context : Sha256Context) : Sha256Context :=
  appendByte { context with length := context.length + (context.curlen * 8).toUInt64 } 0x80

/-- The state at the end is the one behind the last block of the padded message. -/
theorem registersOf_lastBlock {context : Sha256Context} (hle : context.curlen.toNat ≤ 64) :
    let padded := appendZeros 56 (makeRoom context)
    registersOf (transformFunction
        { padded with buf := copyToBuf padded.buf 56 (store64h padded.length) }
        (view (copyToBuf padded.buf 56 (store64h padded.length)))).state =
      (absorb Sha2.compress 64 (registersOf context.state)
        (pending context ++ List.replicate ((120 - context.curlen.toNat) % 64) 0 ++
          store64h context.length)).1 := by
  obtain ⟨habsorb, hroom, hlength⟩ := makeRoom_eq hle (store64h context.length)
  obtain ⟨-, -, hstate, -⟩ := appendZeros_eq (show (56 : UInt32).toNat ≤ 64 by decide) hroom
  have hblock := slice_lastBlock hroom
  rw [hlength] at hblock
  intro padded
  rw [registersOf_transformFunction, hblock, habsorb,
    absorb_singleton (by decide) _ (by rw [← hblock, length_slice]), ← hstate]

/-- **The digest is the hash of the message.** -/
theorem sha256Finalise_eq {context : Sha256Context} {message : List UInt8}
    (h : Represents context message) (digest : Sha256Hash) :
    (sha256Finalise context digest).2.toList = Sha2.digest message := by
  have hlt := h.curlen_lt
  have hopen : ¬ (64 : UInt32) ≤ context.curlen := by
    rw [UInt32.not_le, UInt32.lt_iff_toNat_lt]
    exact hlt
  have hbegin : (beginPadding context).curlen.toNat = context.curlen.toNat + 1 :=
    toNat_curlen_appendByte (show _ < (64 : UInt32) from UInt32.lt_iff_toNat_lt.mpr hlt) 0x80
  have hpending : pending (beginPadding context) = pending context ++ [0x80] :=
    pending_appendByte (by exact hlt) 0x80
  have hlength : store64h (beginPadding context).length = Sha2.lengthBytes (8 * message.length) :=
    h.bits
  have hlast := registersOf_lastBlock (show (beginPadding context).curlen.toNat ≤ 64 by omega)
  rw [hpending, hbegin, hlength] at hlast
  have hzeros : (120 - (context.curlen.toNat + 1)) % 64 = (119 - message.length % 64) % 64 := by
    rw [h.curlen_eq]
    omega
  rw [hzeros] at hlast
  have hpad : pending context ++ [0x80] ++
        List.replicate ((119 - message.length % 64) % 64) 0 ++ Sha2.lengthBytes (8 * message.length)
      = pending context ++ Sha2.padding message.length := by
    simp [Sha2.padding]
  rw [hpad] at hlast
  rw [Sha2.digest, Sha2.pad, h.absorb_append, sha256Finalise, if_neg hopen]
  exact (toList_blit_words digest _).trans (congrArg Sha2.bytes hlast)

/-! ## Messages in pieces -/

/-- Updates with pieces of memory, one after the other. -/
def updates (context : Sha256Context) (pieces : List (Memory × UInt32)) : Sha256Context :=
  pieces.foldl (fun context piece => sha256Update context piece.1 piece.2) context

/-- The message that pieces make. -/
def messageOf (pieces : List (Memory × UInt32)) : List UInt8 :=
  pieces.flatMap fun piece => slice piece.1 0 piece.2.toNat

/-- **Updates append their pieces.** -/
theorem represents_updates {context : Sha256Context} {message : List UInt8}
    (h : Represents context message) (pieces : List (Memory × UInt32)) :
    Represents (updates context pieces) (message ++ messageOf pieces) := by
  induction pieces generalizing context message with
  | nil => simpa [updates, messageOf] using h
  | cons piece pieces ih =>
      have hnext := ih (represents_sha256Update h piece.1 piece.2)
      rwa [List.append_assoc] at hnext

/-- **The digest of a message in pieces is the hash of the message**, however it is cut, and
whatever the context and the digest held before. -/
theorem sha256_pieces (context : Sha256Context) (pieces : List (Memory × UInt32))
    (digest : Sha256Hash) :
    (sha256Finalise (updates (sha256Initialise context) pieces) digest).2.toList =
      Sha2.digest (messageOf pieces) :=
  sha256Finalise_eq (represents_updates (represents_sha256Initialise context) pieces) digest

/-- **`Sha256Calculate` computes the hash.** -/
theorem sha256Calculate_eq (context : Sha256Context) (buffer : Memory) (bufferSize : UInt32)
    (digest : Sha256Hash) :
    (sha256Calculate context buffer bufferSize digest).toList =
      Sha2.digest (slice buffer 0 bufferSize.toNat) :=
  sha256Finalise_eq
    (represents_sha256Update (represents_sha256Initialise context) buffer bufferSize) digest

end MeshcoreC.Crypto.Sha256
