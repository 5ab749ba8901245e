import MeshcoreC.Mesh.Packet

/-! # The request codec

`payload/request.c`: two hashes, the MAC and the ciphertext of a request. Neither function of the
codec looks at the lower end of the size: a payload that is shorter than its header is rejected
because the 8-bit length of its ciphertext wraps above the capacity.

* **`writes_request`**, **`yields_request`** — what the two functions compute where they succeed.
* **`request_bijection`** — the requests the encoder accepts and the payloads the decoder accepts
  are in bijection. -/

namespace MeshcoreC.Mesh

open Buffers EarlyReturn Wire

/-- The size of `ciphertext`. -/
def ciphertextCapacity : ℕ := maxPayloadSize - cipherMacSize - 1 * 2

/-- `meshcore_request_t`. -/
@[ext]
structure Request where
  destinationHash : UInt8
  sourceHash : UInt8
  ciphherMac : Vector UInt8 cipherMacSize
  ciphertextLength : UInt8
  ciphertext : Vector UInt8 ciphertextCapacity
  deriving DecidableEq, Repr

/-- A request cleared by `memset`. -/
def Request.zero : Request where
  destinationHash := 0
  sourceHash := 0
  ciphherMac := Vector.replicate cipherMacSize 0
  ciphertextLength := 0
  ciphertext := Vector.replicate ciphertextCapacity 0

/-- `meshcore_request_serialize`, behind its null check. -/
def requestSerializeBody (request : Request) : Prog (WireState OutBuffer) Unit := do
  clear maxPayloadSize
  let p ← position
  put p.toNat [request.destinationHash]
  advance 1
  let p ← position
  put p.toNat [request.sourceHash]
  advance 1
  let p ← position
  copyArray p.toNat request.ciphherMac cipherMacSize
  advance cipherMacSize
  -- the length is checked after the header has been written
  rejectIf (ciphertextCapacity < request.ciphertextLength.toNat)
  let p ← position
  copyArray p.toNat request.ciphertext request.ciphertextLength.toNat
  advance request.ciphertextLength.toNat
  finish

/-- `meshcore_request_serialize`. -/
def meshcoreRequestSerialize (request : Request) (outPayload : Option Memory) : Outcome OutBuffer :=
  call (requestSerializeBody request) (outPayload.map fun mem => ⟨mem, none⟩)

/-- `meshcore_request_deserialize`, behind its null checks. -/
def requestDeserializeBody (data : Memory) (size : UInt8) : Prog (WireState Request) Unit := do
  assign fun _ => Request.zero
  let p ← position
  let destinationHash ← readByte data p.toNat
  assign fun r => { r with destinationHash := destinationHash }
  advance 1
  let p ← position
  let sourceHash ← readByte data p.toNat
  assign fun r => { r with sourceHash := sourceHash }
  advance 1
  let p ← position
  copyIn data p.toNat cipherMacSize cipherMacSize fun bytes r =>
    { r with ciphherMac := blit r.ciphherMac bytes }
  advance cipherMacSize
  let p ← position
  -- an 8-bit subtraction
  assign fun r => { r with ciphertextLength := size - p }
  let ciphertextLength ← current Request.ciphertextLength
  rejectIf (ciphertextCapacity < ciphertextLength.toNat)
  copyIn data p.toNat ciphertextLength.toNat ciphertextCapacity fun bytes r =>
    { r with ciphertext := blit r.ciphertext bytes }
  advance ciphertextLength.toNat

/-- `meshcore_request_deserialize`. -/
def meshcoreRequestDeserialize (data : Option Memory) (size : UInt8) (outRequest : Option Request) :
    Outcome Request :=
  match data with
  | none => ⟨-1, outRequest, []⟩
  | some data => call (requestDeserializeBody data size) outRequest

/-! ## The encoder -/

/-- The bytes of a request. -/
def Request.wire (r : Request) : List UInt8 :=
  [r.destinationHash, r.sourceHash] ++ slice (view r.ciphherMac) 0 cipherMacSize ++
    slice (view r.ciphertext) 0 r.ciphertextLength.toNat

/-- Four bytes in front of the ciphertext. -/
theorem Request.length_wire (r : Request) : r.wire.length = r.ciphertextLength.toNat + 4 := by
  simp only [wire, List.length_append, length_slice, List.length_cons, List.length_nil,
    cipherMacSize]
  omega

/-- A ciphertext that fits the array fits the payload. -/
theorem Request.length_wire_le {r : Request} (h : r.ciphertextLength.toNat ≤ 180) :
    r.wire.length ≤ maxPayloadSize := by
  rw [length_wire]
  unfold maxPayloadSize
  omega

/-- Both outcomes of the encoder have the header in common. -/
theorem exec_requestHeader (r : Request) (mem : Memory) :
    ∃ s, Encodes maxPayloadSize
        ([r.destinationHash, r.sourceHash] ++ slice (view r.ciphherMac) 0 cipherMacSize) s ∧
      exec (requestSerializeBody r) ⟨0, ⟨mem, none⟩, []⟩ =
        exec (do
          rejectIf (ciphertextCapacity < r.ciphertextLength.toNat)
          let p ← position
          copyArray p.toNat r.ciphertext r.ciphertextLength.toNat
          advance r.ciphertextLength.toNat
          finish) s := by
  have h₀ := encodes_clear (s := ⟨0, ⟨mem, none⟩, []⟩) rfl maxPayloadSize
  obtain ⟨s₁, hrun₁, h₁, -⟩ := h₀.exec_put (show [r.destinationHash].length = 1 from rfl)
    (by decide)
  obtain ⟨s₂, hrun₂, h₂, -⟩ := h₁.exec_put (show [r.sourceHash].length = 1 from rfl) (by simp)
  obtain ⟨s₃, hrun₃, h₃, -⟩ := h₂.exec_copyArray r.ciphherMac (n := cipherMacSize)
    (by simp [cipherMacSize])
  refine ⟨s₃, h₃, ?_⟩
  rw [requestSerializeBody, exec_clear_bind, hrun₁, hrun₂, hrun₃]

/-- **What the encoder writes**, for every request whose ciphertext fits. -/
theorem writes_request {r : Request} (h : r.ciphertextLength.toNat ≤ 180) :
    Writes (meshcoreRequestSerialize r) maxPayloadSize r.wire := by
  apply writes_of_exec
  intro mem
  have haccept : ¬ ciphertextCapacity < r.ciphertextLength.toNat := not_lt.mpr h
  obtain ⟨s₁, h₁, hrun₁⟩ := exec_requestHeader r mem
  obtain ⟨s₂, hrun₂, h₂, -⟩ := h₁.exec_copyArray r.ciphertext (n := r.ciphertextLength.toNat)
    (by simp [cipherMacSize]; omega)
  refine ⟨s₂, ?_, h₂⟩
  rw [hrun₁, exec_rejectIf_bind_of_neg haccept, hrun₂]

/-- A ciphertext that does not fit is rejected. -/
theorem rejects_request {r : Request} (h : ¬ r.ciphertextLength.toNat ≤ 180) (mem : Memory) :
    (meshcoreRequestSerialize r (some mem)).code = -1 := by
  have hreject : ciphertextCapacity < r.ciphertextLength.toNat := not_le.mp h
  obtain ⟨s, -, hrun⟩ := exec_requestHeader r mem
  rw [exec_rejectIf_bind_of_pos hreject] at hrun
  show (call (requestSerializeBody r) (some ⟨mem, none⟩)).code = -1
  rw [call_of_none hrun]

/-- The encoder accepts a request exactly when its ciphertext fits. -/
theorem request_code_eq_zero_iff (r : Request) (mem : Memory) :
    (meshcoreRequestSerialize r (some mem)).code = 0 ↔ r.ciphertextLength.toNat ≤ 180 := by
  constructor
  · intro hcode
    by_contra hlong
    rw [rejects_request hlong] at hcode
    exact absurd hcode (by decide)
  · intro hle
    obtain ⟨out, size, hcode, -⟩ := writes_request hle mem
    exact hcode

/-! ## The decoder -/

/-- The request an accepted payload stands for. -/
def decodedRequest (data : Memory) (size : UInt8) : Request where
  destinationHash := data 0
  sourceHash := data 1
  ciphherMac := blit (Vector.replicate cipherMacSize 0) (slice data 2 cipherMacSize)
  ciphertextLength := size - 4
  ciphertext := blit (Vector.replicate ciphertextCapacity 0) (slice data 4 (size - 4).toNat)

/-- The 8-bit length of the ciphertext fits exactly when the payload has a header and is not too
long. -/
theorem toNat_sub_four_le_iff (size : UInt8) :
    (size - 4).toNat ≤ 180 ↔ 4 ≤ size.toNat ∧ size.toNat ≤ 184 := by
  have hlt := size.toNat_lt
  simp only [UInt8.toNat_sub, UInt8.reduceToNat]
  omega

/-- Both outcomes of the decoder have the header and the length in common. -/
theorem exec_requestPrefix (data : Memory) (size : UInt8) (old : Request) :
    ∃ s, s.target = { decodedRequest data size with
        ciphertext := Vector.replicate ciphertextCapacity 0 } ∧
      exec (requestDeserializeBody data size) ⟨0, old, []⟩ =
        exec (do
          rejectIf (ciphertextCapacity < (size - 4).toNat)
          copyIn data 4 (size - 4).toNat ciphertextCapacity fun bytes r =>
            { r with ciphertext := blit r.ciphertext bytes }
          advance (size - 4).toNat) s := by
  apply Exists.intro
  constructor
  rotate_left
  · rw [requestDeserializeBody]
    simp only [exec_assign_bind, exec_position_bind, exec_readByte_bind, exec_advance_bind,
      exec_copyIn_bind, exec_current_bind]
    rfl
  · rfl

/-- **What the decoder yields**, for every payload of an acceptable size. -/
theorem yields_request (data : Memory) {size : UInt8}
    (h : 4 ≤ size.toNat ∧ size.toNat ≤ 184) :
    Yields (meshcoreRequestDeserialize (some data) size) (decodedRequest data size) := by
  apply yields_of_exec
  intro old
  have haccept : ¬ ciphertextCapacity < (size - 4).toNat :=
    not_lt.mpr ((toNat_sub_four_le_iff size).mpr h)
  obtain ⟨s, htarget, hrun⟩ := exec_requestPrefix data size old
  rw [exec_rejectIf_bind_of_neg haccept, exec_copyIn_bind, exec_advance] at hrun
  refine ⟨_, hrun, ?_⟩
  simp only [WireState.advance_target, WireState.assign_target, WireState.log_target, htarget]
  rfl

/-- Every other payload is rejected. -/
theorem rejects_requestPayload (data : Memory) {size : UInt8}
    (h : ¬ (4 ≤ size.toNat ∧ size.toNat ≤ 184)) :
    Rejects (meshcoreRequestDeserialize (some data) size) := by
  apply rejects_of_exec
  intro old
  have hreject : ciphertextCapacity < (size - 4).toNat :=
    not_le.mp fun hle => h ((toNat_sub_four_le_iff size).mp hle)
  obtain ⟨s, -, hrun⟩ := exec_requestPrefix data size old
  rw [exec_rejectIf_bind_of_pos hreject] at hrun
  exact ⟨s, hrun⟩

/-- The decoder accepts a payload exactly when its size is from 4 to 184. -/
theorem requestPayload_code_eq_zero_iff (data : Memory) (size : UInt8) (old : Request) :
    (meshcoreRequestDeserialize (some data) size (some old)).code = 0 ↔
      4 ≤ size.toNat ∧ size.toNat ≤ 184 :=
  code_eq_zero_iff_of_yields (yields_request data) (rejects_requestPayload data) old

/-! ## The bijection -/

/-- The decoded request has the fields of the original one, and the used part of its ciphertext. -/
structure SameRequest (request decoded : Request) : Prop where
  destinationHash : decoded.destinationHash = request.destinationHash
  sourceHash : decoded.sourceHash = request.sourceHash
  ciphherMac : decoded.ciphherMac = request.ciphherMac
  ciphertextLength : decoded.ciphertextLength = request.ciphertextLength
  ciphertext : ∀ i < request.ciphertextLength.toNat,
    view decoded.ciphertext i = view request.ciphertext i

/-- **Decoding undoes encoding.** -/
theorem sameRequest_decoded {r : Request} (hlength : r.ciphertextLength.toNat ≤ 180)
    {data : Memory} {size : UInt8} (h : slice data 0 size.toNat = r.wire) :
    SameRequest r (decodedRequest data size) := by
  have hsize : size.toNat = r.ciphertextLength.toNat + 4 := by
    rw [← r.length_wire, ← h, length_slice]
  have hciphertextLength : size - 4 = r.ciphertextLength := by
    apply UInt8.toNat_inj.mp
    simp only [UInt8.toNat_sub, UInt8.reduceToNat]
    omega
  rw [Request.wire, slice_eq_append_iff (by simp [cipherMacSize]; omega),
    slice_eq_append_iff List.length_append] at h
  simp only [length_slice, List.length_append, List.length_cons, List.length_nil, cipherMacSize,
    Nat.zero_add, Nat.reduceAdd] at h
  obtain ⟨⟨hhashes, hmac⟩, hciphertext⟩ := h
  obtain ⟨hdestination, hrest⟩ := List.cons.inj hhashes
  obtain ⟨hsource, -⟩ := List.cons.inj hrest
  refine ⟨hdestination, hsource, ?_, hciphertextLength, ?_⟩
  · show blit (Vector.replicate cipherMacSize 0) (slice data 2 2) = r.ciphherMac
    rw [hmac]
    exact blit_slice_view _ _
  · intro i hi
    show view (blit (Vector.replicate ciphertextCapacity 0) (slice data 4 (size - 4).toNat)) i = _
    have hfit : r.ciphertextLength.toNat ≤ ciphertextCapacity := hlength
    rw [hciphertextLength, hciphertext, view_blit_slice _ hfit, if_pos hi, Nat.zero_add]

/-- **Encoding undoes decoding.** -/
theorem wire_decodedRequest (data : Memory) {size : UInt8}
    (h : 4 ≤ size.toNat ∧ size.toNat ≤ 184) :
    (decodedRequest data size).wire = slice data 0 size.toNat := by
  have hlength : (size - 4).toNat ≤ 180 := (toNat_sub_four_le_iff size).mpr h
  have hsplit : size.toNat = 2 + 2 + (size - 4).toNat := by
    have hlt := size.toNat_lt
    simp only [UInt8.toNat_sub, UInt8.reduceToNat]
    omega
  have hmac := slice_view_blit (Vector.replicate cipherMacSize 0) (length_slice data 2 2).le
  have hciphertext := slice_view_blit (Vector.replicate ciphertextCapacity 0)
    ((length_slice data 4 (size - 4).toNat).le.trans hlength)
  rw [length_slice] at hmac hciphertext
  rw [hsplit, slice_add, slice_add, Request.wire]
  show [data 0, data 1] ++ slice (view (blit _ (slice data 2 2))) 0 2 ++
    slice (view (blit _ (slice data 4 (size - 4).toNat))) 0 (size - 4).toNat = _
  rw [hmac, hciphertext]
  rfl

/-- **The request codec is a bijection.** The encoder accepts a request exactly when its ciphertext
fits, reports its size without wrapping, and is undone by the decoder; the decoder accepts a payload
exactly when its size is from 4 to 184, and is undone by the encoder. -/
theorem request_bijection :
    (∀ (request : Request) (mem : Memory),
      ((meshcoreRequestSerialize request (some mem)).code = 0 ↔
        request.ciphertextLength.toNat ≤ 180) ∧
      ((meshcoreRequestSerialize request (some mem)).code = 0 →
        ∃ (out : Memory) (size : UInt8),
          (meshcoreRequestSerialize request (some mem)).target = some ⟨out, some size⟩ ∧
          size.toNat = request.ciphertextLength.toNat + 4 ∧
          ∀ (data : Memory) (old : Request), slice data 0 size.toNat = slice out 0 size.toNat →
            (meshcoreRequestDeserialize (some data) size (some old)).code = 0 ∧
            ∃ decoded, (meshcoreRequestDeserialize (some data) size (some old)).target
              = some decoded ∧ SameRequest request decoded)) ∧
    ∀ (data : Memory) (size : UInt8) (old : Request),
      ((meshcoreRequestDeserialize (some data) size (some old)).code = 0 ↔
        4 ≤ size.toNat ∧ size.toNat ≤ 184) ∧
      ((meshcoreRequestDeserialize (some data) size (some old)).code = 0 →
        ∃ request, (meshcoreRequestDeserialize (some data) size (some old)).target
            = some request ∧
          ∀ mem : Memory, ∃ out : Memory,
            (meshcoreRequestSerialize request (some mem)).code = 0 ∧
            (meshcoreRequestSerialize request (some mem)).target = some ⟨out, some size⟩ ∧
            slice out 0 size.toNat = slice data 0 size.toNat) := by
  constructor
  · intro request mem
    refine ⟨request_code_eq_zero_iff request mem, ?_⟩
    intro hcode
    have hle := (request_code_eq_zero_iff request mem).mp hcode
    obtain ⟨out, size, -, htarget, hsize, hfront⟩ :=
      (writes_request hle).front (Request.length_wire_le hle) mem
    have hlength := request.length_wire
    refine ⟨out, size, htarget, hsize.trans hlength, ?_⟩
    intro data old hdata
    have hwire := hdata.trans hfront
    have hbounds : 4 ≤ size.toNat ∧ size.toNat ≤ 184 := by omega
    obtain ⟨hcode', htarget'⟩ := yields_request data hbounds old
    exact ⟨hcode', _, htarget', sameRequest_decoded hle hwire⟩
  · intro data size old
    refine ⟨requestPayload_code_eq_zero_iff data size old, ?_⟩
    intro hcode
    have hbounds := (requestPayload_code_eq_zero_iff data size old).mp hcode
    refine ⟨_, (yields_request data hbounds old).2, ?_⟩
    intro mem
    have hfit : (decodedRequest data size).ciphertextLength.toNat ≤ 180 :=
      (toNat_sub_four_le_iff size).mpr hbounds
    obtain ⟨out, size', hcode', htarget, hsize, hfront⟩ :=
      (writes_request hfit).front (Request.length_wire_le hfit) mem
    rw [wire_decodedRequest data hbounds] at hsize hfront
    rw [length_slice] at hsize
    obtain rfl : size' = size := UInt8.toNat_inj.mp hsize
    exact ⟨out, hcode', htarget, hfront⟩

end MeshcoreC.Mesh
