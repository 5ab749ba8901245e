import MeshcoreC.Library.Buffers
import MeshcoreC.Library.EarlyReturn

/-! # Code that walks through a wire buffer

Encoders and decoders go through a buffer with an 8-bit position. A decoder reads the buffer and
fills a structure in; an encoder reads a structure and fills the buffer in.

* **`WireState`** — the position, the target (what is filled in) and a trace of the accesses to the
  buffer and to the arrays of the structure.
* **`advance`, `position`, `assign`, `readByte`, `copyIn`** — the statements of a decoder;
  **`clear`, `put`, `copyArray`, `finish`** — those an encoder has beside the first two.
* **`call`** — a function of this kind, with its null check and its return code `0` or `-1`;
  **`Writes`**, **`Yields`**, **`Rejects`** — what its calls come to, whatever the target held.
* **`Determined`** — a decoder that makes no use of the memory behind its payload.
* **`Encodes`** — the encoder's invariant: the buffer holds the bytes written so far, followed by
  zeros, and the position is behind them. `Encodes.append` is its rule for one field.
* **`toSizeT`** — a difference of two bytes, as it is compared with a `sizeof`. -/

namespace Wire

open Buffers EarlyReturn

/-- Memory seen through a pointer. -/
abbrev Memory := ℕ → UInt8

/-- An access to the wire buffer or to an array of the structure. -/
inductive Access
  /-- `count` bytes of the buffer are read, from index `start` on. -/
  | read (start count : ℕ)
  /-- `count` bytes of the buffer are written, from index `start` on. -/
  | write (start count : ℕ)
  /-- The first `count` bytes of an array of `capacity` bytes are read. -/
  | load (count capacity : ℕ)
  /-- The first `count` bytes of an array of `capacity` bytes are written. -/
  | fill (count capacity : ℕ)
  deriving DecidableEq, Repr

/-- The indices of the buffer that are read. -/
def Access.readIndices : Access → List ℕ
  | .read start count => List.range' start count
  | _ => []

/-- The state of an encoder or decoder that fills in a `τ`. -/
@[ext]
structure WireState (τ : Type) where
  position : UInt8
  target : τ
  trace : List Access

variable {τ α : Type}

namespace WireState

/-- `position += n;` -/
def advance (n : ℕ) (s : WireState τ) : WireState τ :=
  { s with position := s.position + UInt8.ofNat n }

/-- Change the target. -/
def assign (f : τ → τ) (s : WireState τ) : WireState τ := { s with target := f s.target }

/-- Note an access. -/
def log (a : Access) (s : WireState τ) : WireState τ := { s with trace := s.trace ++ [a] }

/-- The indices of the buffer that have been read. -/
def readIndices (s : WireState τ) : List ℕ := s.trace.flatMap Access.readIndices

@[simp] theorem advance_position (n : ℕ) (s : WireState τ) :
    (s.advance n).position = s.position + UInt8.ofNat n := rfl

@[simp] theorem advance_target (n : ℕ) (s : WireState τ) : (s.advance n).target = s.target := rfl

@[simp] theorem advance_readIndices (n : ℕ) (s : WireState τ) :
    (s.advance n).readIndices = s.readIndices := rfl

@[simp] theorem assign_position (f : τ → τ) (s : WireState τ) :
    (s.assign f).position = s.position := rfl

@[simp] theorem assign_target (f : τ → τ) (s : WireState τ) :
    (s.assign f).target = f s.target := rfl

@[simp] theorem assign_readIndices (f : τ → τ) (s : WireState τ) :
    (s.assign f).readIndices = s.readIndices := rfl

@[simp] theorem log_position (a : Access) (s : WireState τ) : (s.log a).position = s.position := rfl

@[simp] theorem log_target (a : Access) (s : WireState τ) : (s.log a).target = s.target := rfl

@[simp] theorem log_readIndices (a : Access) (s : WireState τ) :
    (s.log a).readIndices = s.readIndices ++ a.readIndices := by
  simp [readIndices, log]

end WireState

/-! ## Statements -/

/-- `position += n;` -/
def advance (n : ℕ) : Prog (WireState τ) Unit := step (WireState.advance n)

/-- The value of the position. -/
def position : Prog (WireState τ) UInt8 := ask WireState.position

/-- The value of a part of the target. -/
def current (g : τ → α) : Prog (WireState τ) α := ask fun s => g s.target

/-- An assignment to the target. -/
def assign (f : τ → τ) : Prog (WireState τ) Unit := step (WireState.assign f)

/-- Read `data[i]`. -/
def readByte (data : Memory) (i : ℕ) : Prog (WireState τ) UInt8 := do
  step (WireState.log (.read i 1))
  pure (data i)

/-- `memcpy` of `count` bytes from `&data[start]` into a field with room for `capacity` bytes, whose
new value `f` computes from the bytes. -/
def copyIn (data : Memory) (start count capacity : ℕ) (f : List UInt8 → τ → τ) :
    Prog (WireState τ) Unit :=
  step fun s => ((s.log (.read start count)).log (.fill count capacity)).assign
    (f (slice data start count))

/-- What an encoder fills in: the buffer, and `*out_size` once that is written. -/
structure OutBuffer where
  mem : Memory
  size : Option UInt8

/-- `memcpy` of bytes to `&out[i]`. -/
def OutBuffer.put (i : ℕ) (bytes : List UInt8) (b : OutBuffer) : OutBuffer :=
  { b with mem := store b.mem i bytes }

/-- `memset(out, 0, n);` -/
def clear (n : ℕ) : Prog (WireState OutBuffer) Unit :=
  step fun s => (s.log (.write 0 n)).assign fun b => { b with mem := Buffers.fill b.mem 0 n }

/-- The effect of writing bytes to the buffer. -/
def WireState.put (i : ℕ) (bytes : List UInt8) (s : WireState OutBuffer) : WireState OutBuffer :=
  (s.log (.write i bytes.length)).assign (OutBuffer.put i bytes)

/-- `memcpy` of the bytes of a scalar to `&out[i]`, or the assignment of a byte. -/
def put (i : ℕ) (bytes : List UInt8) : Prog (WireState OutBuffer) Unit :=
  step (WireState.put i bytes)

/-- `memcpy` of the first `count` bytes of an array to `&out[i]`. -/
def copyArray {n : ℕ} (i : ℕ) (v : Vector UInt8 n) (count : ℕ) :
    Prog (WireState OutBuffer) Unit := do
  step (WireState.log (.load count n))
  put i (slice (view v) 0 count)

/-- `*out_size = position;` -/
def finish : Prog (WireState OutBuffer) Unit :=
  step fun s => s.assign fun b => { b with size := some s.position }

/-! ## Running the statements -/

section Exec

variable (s : WireState τ)

@[simp] theorem exec_advance_bind (n : ℕ) (k : Unit → Prog (WireState τ) α) :
    exec (advance n >>= k) s = exec (k ()) (s.advance n) := exec_step_bind _ _ _

@[simp] theorem exec_assign (f : τ → τ) : exec (assign f) s = (some (), s.assign f) := rfl

@[simp] theorem exec_advance (n : ℕ) : exec (advance n) s = (some (), s.advance n) := rfl

@[simp] theorem exec_position_bind (k : UInt8 → Prog (WireState τ) α) :
    exec (position >>= k) s = exec (k s.position) s := exec_ask_bind _ _ _

@[simp] theorem exec_current_bind {β : Type} (g : τ → β) (k : β → Prog (WireState τ) α) :
    exec (current g >>= k) s = exec (k (g s.target)) s := exec_ask_bind _ _ _

@[simp] theorem exec_assign_bind (f : τ → τ) (k : Unit → Prog (WireState τ) α) :
    exec (assign f >>= k) s = exec (k ()) (s.assign f) := exec_step_bind _ _ _

@[simp] theorem exec_readByte_bind (data : Memory) (i : ℕ) (k : UInt8 → Prog (WireState τ) α) :
    exec (readByte data i >>= k) s = exec (k (data i)) (s.log (.read i 1)) := by
  rw [readByte, bind_assoc, exec_step_bind, pure_bind]

@[simp] theorem exec_copyIn_bind (data : Memory) (start count capacity : ℕ)
    (f : List UInt8 → τ → τ) (k : Unit → Prog (WireState τ) α) :
    exec (copyIn data start count capacity f >>= k) s =
      exec (k ()) (((s.log (.read start count)).log (.fill count capacity)).assign
        (f (slice data start count))) := exec_step_bind _ _ _

end Exec

section ExecEncoder

variable (s : WireState OutBuffer)

@[simp] theorem exec_clear_bind (n : ℕ) (k : Unit → Prog (WireState OutBuffer) α) :
    exec (clear n >>= k) s = exec (k ()) ((s.log (.write 0 n)).assign
      fun b => { b with mem := Buffers.fill b.mem 0 n }) := exec_step_bind _ _ _

@[simp] theorem exec_put_bind (i : ℕ) (bytes : List UInt8)
    (k : Unit → Prog (WireState OutBuffer) α) :
    exec (put i bytes >>= k) s = exec (k ()) (s.put i bytes) := exec_step_bind _ _ _

@[simp] theorem exec_copyArray_bind {n : ℕ} (i : ℕ) (v : Vector UInt8 n) (count : ℕ)
    (k : Unit → Prog (WireState OutBuffer) α) :
    exec (copyArray i v count >>= k) s =
      exec (k ()) ((s.log (.load count n)).put i (slice (view v) 0 count)) := by
  rw [copyArray, bind_assoc, exec_step_bind, exec_put_bind]

@[simp] theorem exec_finish : exec finish s
    = (some (), s.assign fun b => { b with size := some s.position }) := rfl

end ExecEncoder

/-! ## Functions -/

/-- What a call leaves behind: the return code, the target unless the pointer to it was null, and
the accesses. -/
structure Outcome (τ : Type) where
  code : ℤ
  target : Option τ
  trace : List Access

/-- The indices of the buffer that a call has read. -/
def Outcome.readIndices (o : Outcome τ) : List ℕ := o.trace.flatMap Access.readIndices

/-- A function with the given body, called with a pointer to its target. -/
def call (body : Prog (WireState τ) Unit) : Option τ → Outcome τ
  | none => ⟨-1, none, []⟩
  | some t =>
      let r := exec body ⟨0, t, []⟩
      ⟨if r.1 = none then -1 else 0, some r.2.target, r.2.trace⟩

/-- A body that comes to its end returns `0`. -/
theorem call_of_some {body : Prog (WireState τ) Unit} {t : τ} {s : WireState τ}
    (h : exec body ⟨0, t, []⟩ = (some (), s)) :
    call body (some t) = ⟨0, some s.target, s.trace⟩ := by
  simp only [call, h, reduceCtorEq, if_false]

/-- A body that returns early returns `-1`. -/
theorem call_of_none {body : Prog (WireState τ) Unit} {t : τ} {s : WireState τ}
    (h : exec body ⟨0, t, []⟩ = (none, s)) : call body (some t) = ⟨-1, some s.target, s.trace⟩ := by
  simp only [call, h, if_true]

/-! ## The encoder's invariant -/

/-- The first `cap` bytes of the buffer are the given ones and zeros behind them, and the position
is right behind the given ones. -/
structure Encodes (cap : ℕ) (bytes : List UInt8) (s : WireState OutBuffer) : Prop where
  holds : Holds s.target.mem cap bytes
  atEnd : s.position.toNat = bytes.length

namespace Encodes

variable {cap : ℕ} {bytes : List UInt8} {s : WireState OutBuffer}

/-- An access that is only noted changes nothing. -/
theorem log (h : Encodes cap bytes s) (a : Access) : Encodes cap bytes (s.log a) := ⟨h.1, h.2⟩

/-- **One field**: bytes put at the position, and the position moved behind them, are appended. -/
theorem append (h : Encodes cap bytes s) {src : List UInt8} {n : ℕ} (hn : src.length = n)
    (hlt : bytes.length + n < 256) :
    Encodes cap (bytes ++ src) ((s.put s.position.toNat src).advance n) := by
  constructor
  · show Holds (store s.target.mem s.position.toNat src) cap (bytes ++ src)
    rw [h.atEnd]
    exact h.holds.store src
  · show (s.position + UInt8.ofNat n).toNat = (bytes ++ src).length
    rw [UInt8.toNat_add, UInt8.toNat_ofNat', h.atEnd, List.length_append, hn]
    omega

/-- A position that moves without bytes being put leaves zeros behind. -/
theorem skip (h : Encodes cap bytes s) {n : ℕ} (hlt : bytes.length + n < 256) :
    Encodes cap (bytes ++ List.replicate n 0) ((s.put s.position.toNat []).advance n) := by
  constructor
  · show Holds (store s.target.mem s.position.toNat []) cap (bytes ++ List.replicate n 0)
    rw [h.atEnd]
    -- a store of no bytes, and zeros that were there from the start
    have hnil := h.holds.store []
    rw [List.append_nil] at hnil
    exact hnil.append_zeros n
  · show (s.position + UInt8.ofNat n).toNat = (bytes ++ List.replicate n 0).length
    rw [UInt8.toNat_add, UInt8.toNat_ofNat', h.atEnd, List.length_append, List.length_replicate]
    omega

/-- The code that encodes a scalar: put its bytes at the position, move the position. -/
theorem exec_put (h : Encodes cap bytes s) {src : List UInt8} {n : ℕ} (hn : src.length = n)
    (hlt : bytes.length + n < 256) :
    ∃ s', (∀ k : Unit → Prog (WireState OutBuffer) Unit,
        exec (position >>= fun p => put p.toNat src >>= fun _ => advance n >>= k) s
          = exec (k ()) s') ∧
      Encodes cap (bytes ++ src) s' ∧ s'.target.size = s.target.size := by
  refine ⟨(s.put s.position.toNat src).advance n, ?_, h.append hn hlt, rfl⟩
  intro k
  rw [exec_position_bind, exec_put_bind, exec_advance_bind]

/-- The same at the end of a block. -/
theorem exec_putLast (h : Encodes cap bytes s) {src : List UInt8} {n : ℕ} (hn : src.length = n)
    (hlt : bytes.length + n < 256) :
    ∃ s', exec (position >>= fun p => put p.toNat src >>= fun _ => advance n) s = (some (), s') ∧
      Encodes cap (bytes ++ src) s' := by
  obtain ⟨s', hrun, h', -⟩ := h.exec_put hn hlt
  have hlast := hrun pure
  simp only [bind_pure] at hlast
  exact ⟨s', hlast, h'⟩

/-- The code that encodes the first bytes of an array. -/
theorem exec_copyArray (h : Encodes cap bytes s) {m : ℕ} (v : Vector UInt8 m) {n : ℕ}
    (hlt : bytes.length + n < 256) :
    ∃ s', (∀ k : Unit → Prog (WireState OutBuffer) Unit,
        exec (position >>= fun p => copyArray p.toNat v n >>= fun _ => advance n >>= k) s
          = exec (k ()) s') ∧
      Encodes cap (bytes ++ slice (view v) 0 n) s' ∧ s'.target.size = s.target.size := by
  refine ⟨(((s.log (.load n m)).put s.position.toNat (slice (view v) 0 n)).advance n), ?_,
    (h.log _).append (length_slice ..) hlt, rfl⟩
  intro k
  rw [exec_position_bind, exec_copyArray_bind, exec_advance_bind]

/-- The same at the end of a block. -/
theorem exec_copyArrayLast (h : Encodes cap bytes s) {m : ℕ} (v : Vector UInt8 m) {n : ℕ}
    (hlt : bytes.length + n < 256) :
    ∃ s', exec (position >>= fun p => copyArray p.toNat v n >>= fun _ => advance n) s
        = (some (), s') ∧ Encodes cap (bytes ++ slice (view v) 0 n) s' := by
  obtain ⟨s', hrun, h', -⟩ := h.exec_copyArray v hlt
  have hlast := hrun pure
  simp only [bind_pure] at hlast
  exact ⟨s', hlast, h'⟩

/-- The code that reports the size. -/
theorem exec_finish (h : Encodes cap bytes s) :
    ∃ s', exec finish s = (some (), s') ∧ Encodes cap bytes s' ∧
      ∃ size : UInt8, s'.target.size = some size ∧ size.toNat = bytes.length :=
  ⟨_, Wire.exec_finish s, ⟨h.holds, h.atEnd⟩, s.position, rfl, h.atEnd⟩

end Encodes

/-- A cleared buffer encodes nothing yet. -/
theorem encodes_clear {s : WireState OutBuffer} (h : s.position = 0) (cap : ℕ) :
    Encodes cap [] ((s.log (.write 0 cap)).assign
      fun b => { b with mem := Buffers.fill b.mem 0 cap }) := by
  constructor
  · exact holds_fill s.target.mem cap
  · show s.position.toNat = 0
    rw [h]
    rfl

/-! ## Encoders and decoders as a whole -/

/-- The encoder succeeds: it returns `0`, leaves the bytes with zeros behind them in the first `cap`
bytes of the buffer, and reports their number. -/
def Writes (f : Option Memory → Outcome OutBuffer) (cap : ℕ) (bytes : List UInt8) : Prop :=
  ∀ mem, ∃ (out : Memory) (size : UInt8), (f (some mem)).code = 0 ∧
    (f (some mem)).target = some ⟨out, some size⟩ ∧ size.toNat = bytes.length ∧
    Holds out cap bytes

/-- The decoder returns `0` and leaves `t` in its target. -/
def Yields (f : Option τ → Outcome τ) (t : τ) : Prop :=
  ∀ old, (f (some old)).code = 0 ∧ (f (some old)).target = some t

/-- The function returns `-1`. -/
def Rejects (f : Option τ → Outcome τ) : Prop := ∀ old, (f (some old)).code = -1

/-- The code of a function that yields something or rejects is the code of that. -/
theorem code_eq_zero_iff_of_yields {f : Option τ → Outcome τ} {t : τ} {accepts : Prop}
    (hyields : accepts → Yields f t) (hrejects : ¬ accepts → Rejects f) (old : τ) :
    (f (some old)).code = 0 ↔ accepts := by
  constructor
  · intro hcode
    by_contra h
    rw [hrejects h old] at hcode
    exact absurd hcode (by decide)
  · intro h
    exact (hyields h old).1

/-- An encoder whose body comes to the report of the size writes what it has encoded. -/
theorem writes_of_exec {body : Prog (WireState OutBuffer) Unit} {cap : ℕ} {bytes : List UInt8}
    (h : ∀ mem, ∃ s, exec body ⟨0, ⟨mem, none⟩, []⟩ = exec finish s ∧ Encodes cap bytes s) :
    Writes (fun out => call body (out.map fun mem => ⟨mem, none⟩)) cap bytes := by
  intro mem
  obtain ⟨s, hrun, hencodes⟩ := h mem
  obtain ⟨s', hfinish, hencodes', size, hsize, hlength⟩ := hencodes.exec_finish
  have hcall : call body (some ⟨mem, none⟩) = ⟨0, some s'.target, s'.trace⟩ :=
    call_of_some (hrun.trans hfinish)
  refine ⟨s'.target.mem, size, ?_, ?_, hlength, hencodes'.holds⟩
  · show (call body (some ⟨mem, none⟩)).code = 0
    rw [hcall]
  · show (call body (some ⟨mem, none⟩)).target = _
    rw [hcall, ← hsize]

/-- What an encoder writes is the front of the buffer, if the buffer has room for it. -/
theorem Writes.front {f : Option Memory → Outcome OutBuffer} {cap : ℕ} {bytes : List UInt8}
    (h : Writes f cap bytes) (hcap : bytes.length ≤ cap) (mem : Memory) :
    ∃ (out : Memory) (size : UInt8), (f (some mem)).code = 0 ∧
      (f (some mem)).target = some ⟨out, some size⟩ ∧ size.toNat = bytes.length ∧
      slice out 0 size.toNat = bytes := by
  obtain ⟨out, size, hcode, htarget, hsize, hholds⟩ := h mem
  refine ⟨out, size, hcode, htarget, hsize, ?_⟩
  rw [hsize]
  exact hholds.slice_zero hcap

/-- A decoder whose body comes to its end yields the target it has then. -/
theorem yields_of_exec {body : Prog (WireState τ) Unit} {t : τ}
    (h : ∀ old, ∃ s, exec body ⟨0, old, []⟩ = (some (), s) ∧ s.target = t) :
    Yields (call body) t := by
  intro old
  obtain ⟨s, hrun, rfl⟩ := h old
  rw [call_of_some hrun]
  exact ⟨rfl, rfl⟩

/-- A function whose body returns early rejects. -/
theorem rejects_of_exec {body : Prog (WireState τ) Unit}
    (h : ∀ old, ∃ s, exec body ⟨0, old, []⟩ = (none, s)) : Rejects (call body) := by
  intro old
  obtain ⟨s, hrun⟩ := h old
  rw [call_of_none hrun]

/-! ## What a decoder depends on -/

section Determined

variable {decode : Option Memory → UInt8 → Option τ → Outcome τ} {size : UInt8}

/-- On payloads of this size, the answer of a decoder depends on nothing but the payload: not on the
memory behind it, and not on what the target held. -/
def Determined (decode : Option Memory → UInt8 → Option τ → Outcome τ) (size : UInt8) : Prop :=
  ∀ (data data' : Memory) (old old' : τ), slice data 0 size.toNat = slice data' 0 size.toNat →
    (decode (some data) size (some old)).code = (decode (some data') size (some old')).code ∧
    ((decode (some data) size (some old)).code = 0 →
      (decode (some data) size (some old)).target = (decode (some data') size (some old')).target)

/-- A decoder is determined if what it accepts, and what it yields then, is. -/
theorem determined_of_yields (accepts : Memory → Prop) {decoded : Memory → τ}
    (hyields : ∀ data, accepts data → Yields (decode (some data) size) (decoded data))
    (hrejects : ∀ data, ¬ accepts data → Rejects (decode (some data) size))
    (hsame : ∀ data data', slice data 0 size.toNat = slice data' 0 size.toNat → accepts data →
      accepts data' ∧ decoded data = decoded data') : Determined decode size := by
  intro data data' old old' hslice
  by_cases haccepts : accepts data
  · obtain ⟨haccepts', hdecoded⟩ := hsame data data' hslice haccepts
    obtain ⟨hcode, htarget⟩ := hyields data haccepts old
    obtain ⟨hcode', htarget'⟩ := hyields data' haccepts' old'
    refine ⟨hcode.trans hcode'.symm, ?_⟩
    intro _
    rw [htarget, htarget', hdecoded]
  · have haccepts' : ¬ accepts data' := fun h => haccepts (hsame data' data hslice.symm h).1
    have hcode := hrejects data haccepts old
    refine ⟨hcode.trans (hrejects data' haccepts' old').symm, ?_⟩
    intro hzero
    rw [hcode] at hzero
    exact absurd hzero (by decide)

/-- A decoder is not determined if a byte behind the payload makes a difference. -/
theorem not_determined_of_yields {k : ℕ} {x : UInt8} {data : Memory} {t t' : τ}
    (hk : size.toNat ≤ k) (hyields : Yields (decode (some data) size) t)
    (hyields' : Yields (decode (some (Function.update data k x)) size) t') (hne : t ≠ t') :
    ¬ Determined decode size := by
  intro hdetermined
  have hslice : slice data 0 size.toNat = slice (Function.update data k x) 0 size.toNat :=
    (slice_update_of_le data 0 size.toNat k x (by omega)).symm
  have hsame := (hdetermined data (Function.update data k x) t t hslice).2 (hyields t).1
  rw [(hyields t).2, (hyields' t).2] at hsame
  exact hne (Option.some.inj hsame)

end Determined

/-! ## Differences of bytes -/

/-- An `int` converted to a 64-bit `size_t`. -/
def toSizeT (i : ℤ) : ℕ := (i % 2 ^ 64).toNat

/-- **The check that `n` bytes are left fails**, on the inside of the buffer. A position behind its
end passes the check, since the negative difference is converted to a huge number. -/
theorem toSizeT_sub_lt_iff {size position : UInt8} {n : ℕ} (hn : n ≤ 2 ^ 63) :
    toSizeT (size.toNat - position.toNat) < n ↔
      position.toNat ≤ size.toNat ∧ size.toNat < position.toNat + n := by
  have hsize := size.toNat_lt
  have hposition := position.toNat_lt
  rw [toSizeT]
  omega

end Wire
