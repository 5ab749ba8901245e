import MeshcoreC.Mesh.Packet

/-! # The group text codec

`payload/grp_txt.c`: a channel hash, the MAC and the encrypted data of a group text. The decoder
takes all that is left of the payload as data, by an 8-bit subtraction and without a check.

* **`writes_groupText`**, **`yields_groupText`** — what the two functions compute.
* **`encodesWhatFits_iff`** — the encoder does not look at the length of the data, so that it meets
  its contract exactly where that fits the array.
* **`acceptsWhatFits_iff`** — the decoder accepts every size, so that it meets its contract exactly
  on the sizes that fit the structure. -/

namespace MeshcoreC.Mesh

open Buffers EarlyReturn Wire

/-- The size of `data`. -/
def groupDataCapacity : ℕ := maxPayloadSize - 1 - cipherMacSize

/-- The bytes of a `meshcore_grp_txt_t` behind `data`: seven bytes up to the alignment of a pointer,
and the 200 bytes of `decrypted`. -/
def sizeofBehindData : ℕ := 7 + 200

/-- `meshcore_grp_txt_t`. The codec knows `decrypted` only as the memory behind `data`. -/
@[ext]
structure GroupText where
  channelHash : UInt8
  mac : Vector UInt8 cipherMacSize
  dataLength : UInt8
  data : Vector UInt8 groupDataCapacity
  behindData : Vector UInt8 sizeofBehindData
  deriving DecidableEq, Repr

/-- A group text cleared by `memset`. -/
def GroupText.zero : GroupText where
  channelHash := 0
  mac := Vector.replicate cipherMacSize 0
  dataLength := 0
  data := Vector.replicate groupDataCapacity 0
  behindData := Vector.replicate sizeofBehindData 0

/-- The memory from `data` on. -/
def GroupText.dataMemory (g : GroupText) : Memory := view (g.data ++ g.behindData)

/-- `memcpy` of some bytes to `data`, and on over what is behind it. -/
def GroupText.copyToData (bytes : List UInt8) (g : GroupText) : GroupText :=
  { g with
    data := blit g.data bytes
    behindData := blit g.behindData (bytes.drop groupDataCapacity) }

/-- `meshcore_grp_txt_serialize`, behind its null check. -/
def groupTextSerializeBody (g : GroupText) : Prog (WireState OutBuffer) Unit := do
  clear maxPayloadSize
  let p ← position
  put p.toNat [g.channelHash]
  advance 1
  let p ← position
  copyArray p.toNat g.mac cipherMacSize
  advance cipherMacSize
  -- `data_length` bytes from `data` on, however many these are
  step (WireState.log (.load g.dataLength.toNat groupDataCapacity))
  let p ← position
  put p.toNat (slice g.dataMemory 0 g.dataLength.toNat)
  advance g.dataLength.toNat
  finish

/-- `meshcore_grp_txt_serialize`. -/
def meshcoreGrpTxtSerialize (g : GroupText) (outPayload : Option Memory) : Outcome OutBuffer :=
  call (groupTextSerializeBody g) (outPayload.map fun mem => ⟨mem, none⟩)

/-- `meshcore_grp_txt_deserialize`, behind its null checks. -/
def groupTextDeserializeBody (data : Memory) (size : UInt8) : Prog (WireState GroupText) Unit := do
  assign fun _ => GroupText.zero
  let p ← position
  copyIn data p.toNat 1 1 fun bytes g => { g with channelHash := bytes.headD 0 }
  advance 1
  let p ← position
  copyIn data p.toNat cipherMacSize cipherMacSize fun bytes g => { g with mac := blit g.mac bytes }
  advance cipherMacSize
  let p ← position
  assign fun g => { g with dataLength := size - p }
  let dataLength ← current GroupText.dataLength
  copyIn data p.toNat dataLength.toNat groupDataCapacity GroupText.copyToData
  advance dataLength.toNat

/-- `meshcore_grp_txt_deserialize`. -/
def meshcoreGrpTxtDeserialize (data : Option Memory) (size : UInt8) (outGrpTxt : Option GroupText) :
    Outcome GroupText :=
  match data with
  | none => ⟨-1, outGrpTxt, []⟩
  | some data => call (groupTextDeserializeBody data size) outGrpTxt

/-! ## The encoder -/

/-- The bytes of a group text whose data fits. -/
def GroupText.wire (g : GroupText) : List UInt8 :=
  [g.channelHash] ++ slice (view g.mac) 0 cipherMacSize ++ slice (view g.data) 0 g.dataLength.toNat

/-- Three bytes in front of the data. -/
theorem GroupText.length_wire (g : GroupText) : g.wire.length = g.dataLength.toNat + 3 := by
  simp only [wire, List.length_append, length_slice, List.length_singleton, cipherMacSize]
  omega

/-- Data that fits the array fits the payload. -/
theorem GroupText.length_wire_le (g : GroupText) (h : g.dataLength.toNat ≤ 181) :
    g.wire.length ≤ maxPayloadSize := by
  rw [length_wire]
  unfold maxPayloadSize
  omega

/-- Data that fits is read from inside the array. -/
theorem GroupText.slice_dataMemory (g : GroupText) (h : g.dataLength.toNat ≤ 181) :
    slice g.dataMemory 0 g.dataLength.toNat = slice (view g.data) 0 g.dataLength.toNat :=
  slice_view_append g.data g.behindData h

/-- **What the encoder writes**, for every group text whose data fits. -/
theorem writes_groupText {g : GroupText} (h : g.dataLength.toNat ≤ 181) :
    Writes (meshcoreGrpTxtSerialize g) maxPayloadSize g.wire := by
  apply writes_of_exec
  intro mem
  have h₀ := encodes_clear (s := ⟨0, ⟨mem, none⟩, []⟩) rfl maxPayloadSize
  obtain ⟨s₁, hrun₁, h₁, -⟩ := h₀.exec_put (show [g.channelHash].length = 1 from rfl) (by decide)
  obtain ⟨s₂, hrun₂, h₂, -⟩ := h₁.exec_copyArray g.mac (n := cipherMacSize)
    (by simp [cipherMacSize])
  have h₃ := h₂.log (.load g.dataLength.toNat groupDataCapacity)
  obtain ⟨s₄, hrun₄, h₄, -⟩ := h₃.exec_put (length_slice g.dataMemory 0 g.dataLength.toNat)
    (by simp [cipherMacSize]; omega)
  refine ⟨s₄, ?_, ?_⟩
  · rw [groupTextSerializeBody, exec_clear_bind, hrun₁, hrun₂, exec_step_bind, hrun₄]
  · rwa [g.slice_dataMemory h] at h₄

/-- **The encoder never refuses**, and copies and reports whatever length the data has. -/
theorem exec_groupTextSerializeBody (g : GroupText) (mem : Memory) :
    ∃ s, exec (groupTextSerializeBody g) ⟨0, ⟨mem, none⟩, []⟩ = (some (), s) ∧
      s.target.size = some (3 + g.dataLength) ∧
      s.trace = [.write 0 184, .write 0 1, .load 2 2, .write 1 2, .load g.dataLength.toNat 181,
        .write 3 g.dataLength.toNat] := by
  apply Exists.intro
  constructor
  · rw [groupTextSerializeBody]
    simp only [exec_clear_bind, exec_position_bind, exec_put_bind, exec_advance_bind,
      exec_copyArray_bind, exec_step_bind, exec_finish]
    rfl
  · constructor
    · show some (3 + UInt8.ofNat g.dataLength.toNat) = _
      rw [UInt8.ofNat_toNat]
    · have hlength := length_slice g.dataMemory 0 g.dataLength.toNat
      show [_, _, _, _, _, Access.write 3 (slice g.dataMemory 0 g.dataLength.toNat).length] = _
      rw [hlength]
      rfl

/-- The contract of the encoder on one group text: it refuses data that does not fit the array, and
only that; otherwise it reports the size without wrapping, reads inside the arrays of the structure
and writes inside the payload. -/
def EncodesWhatFits (g : GroupText) (mem : Memory) : Prop :=
  ((meshcoreGrpTxtSerialize g (some mem)).code = -1 ∨
    (meshcoreGrpTxtSerialize g (some mem)).code = 0 ∧
    (∃ out size, (meshcoreGrpTxtSerialize g (some mem)).target = some ⟨out, some size⟩ ∧
      size.toNat = g.dataLength.toNat + 3 ∧ size.toNat ≤ 184) ∧
    (∀ count capacity, .load count capacity ∈ (meshcoreGrpTxtSerialize g (some mem)).trace →
      count ≤ capacity) ∧
    ∀ start count, .write start count ∈ (meshcoreGrpTxtSerialize g (some mem)).trace →
      start + count ≤ 184) ∧
  ((meshcoreGrpTxtSerialize g (some mem)).code = -1 ↔ 181 < g.dataLength.toNat)

/-- **The contract is met exactly by the data that fits**: the rest is not refused. -/
theorem encodesWhatFits_iff (g : GroupText) (mem : Memory) :
    EncodesWhatFits g mem ↔ g.dataLength.toNat ≤ 181 := by
  obtain ⟨s, hrun, hsize, htrace⟩ := exec_groupTextSerializeBody g mem
  have hcall : meshcoreGrpTxtSerialize g (some mem) = ⟨0, some s.target, s.trace⟩ :=
    call_of_some hrun
  have hcode : (0 : ℤ) ≠ -1 := by decide
  rw [EncodesWhatFits, hcall]
  constructor
  · rintro ⟨-, hrefuses⟩
    by_contra hlong
    exact hcode (hrefuses.mpr (not_le.mp hlong))
  · intro hfit
    have htoNat : (3 + g.dataLength).toNat = g.dataLength.toNat + 3 := by
      have hthree : (3 : UInt8).toNat = 3 := rfl
      rw [UInt8.toNat_add, hthree]
      omega
    refine ⟨.inr ⟨rfl, ?_, ?_, ?_⟩, iff_of_false hcode (not_lt.mpr hfit)⟩
    · refine ⟨s.target.mem, 3 + g.dataLength, ?_, htoNat, by omega⟩
      rw [← hsize]
    · intro count capacity hmem
      rw [htrace] at hmem
      simp only [List.mem_cons, Access.load.injEq, reduceCtorEq, List.not_mem_nil, or_false,
        false_or] at hmem
      omega
    · intro start count hmem
      rw [htrace] at hmem
      simp only [List.mem_cons, Access.write.injEq, reduceCtorEq, List.not_mem_nil, or_false,
        false_or] at hmem
      omega

/-- Data of 255 bytes is encoded as well, into a payload of 2 bytes. -/
theorem not_encodesWhatFits_long : ¬ ∀ (g : GroupText) (mem : Memory), EncodesWhatFits g mem := by
  intro h
  obtain ⟨-, hrefuses⟩ := h { GroupText.zero with dataLength := 255 } fun _ => 0
  have hcode : (meshcoreGrpTxtSerialize { GroupText.zero with dataLength := 255 }
      (some fun _ => 0)).code = 0 := rfl
  rw [hcode] at hrefuses
  exact absurd (hrefuses.mpr (by decide)) (by decide)

/-! ## The decoder -/

/-- What a payload is decoded to. -/
def decodedGroupText (data : Memory) (size : UInt8) : GroupText :=
  GroupText.copyToData (slice data 3 (size - 3).toNat)
    { GroupText.zero with
      channelHash := data 0
      mac := blit (Vector.replicate cipherMacSize 0) (slice data 1 cipherMacSize)
      dataLength := size - 3 }

/-- **The decoder never fails**, and copies as many bytes as the 8-bit subtraction gives. -/
theorem exec_groupTextDeserializeBody (data : Memory) (size : UInt8) (old : GroupText) :
    ∃ s, exec (groupTextDeserializeBody data size) ⟨0, old, []⟩ = (some (), s) ∧
      s.target = decodedGroupText data size ∧
      s.trace = [.read 0 1, .fill 1 1, .read 1 2, .fill 2 2, .read 3 (size - 3).toNat,
        .fill (size - 3).toNat 181] := by
  apply Exists.intro
  constructor
  · rw [groupTextDeserializeBody]
    simp only [exec_assign_bind, exec_position_bind, exec_advance_bind, exec_copyIn_bind,
      exec_current_bind, exec_advance]
    rfl
  · exact ⟨rfl, rfl⟩

/-- **What the decoder yields**, for every payload. -/
theorem yields_groupText (data : Memory) (size : UInt8) :
    Yields (meshcoreGrpTxtDeserialize (some data) size) (decodedGroupText data size) := by
  apply yields_of_exec
  intro old
  obtain ⟨s, hrun, htarget, -⟩ := exec_groupTextDeserializeBody data size old
  exact ⟨s, hrun, htarget⟩

/-! ## Data that fits -/

/-- The 8-bit length of the data is the rest of the payload, when that has a header. -/
theorem toNat_sub_three {size : UInt8} (h : 3 ≤ size.toNat) :
    (size - 3).toNat = size.toNat - 3 := by
  have hle : (3 : UInt8) ≤ size := UInt8.le_iff_toNat_le.mpr h
  rw [UInt8.toNat_sub_of_le _ _ hle]
  rfl

/-- The contract of the decoder on one payload: it accepts the sizes that fit the structure, and
then the length of the data is the rest of the payload and nothing is written behind an array; it
rejects the others. -/
def AcceptsWhatFits (data : Memory) (size : UInt8) (old : GroupText) : Prop :=
  ((meshcoreGrpTxtDeserialize (some data) size (some old)).code = 0 ↔
    3 ≤ size.toNat ∧ size.toNat ≤ 184) ∧
  ((meshcoreGrpTxtDeserialize (some data) size (some old)).code = 0 →
    (∃ g, (meshcoreGrpTxtDeserialize (some data) size (some old)).target = some g ∧
      g.dataLength.toNat + 3 = size.toNat ∧ g.dataLength.toNat ≤ 181) ∧
    ∀ count capacity, .fill count capacity ∈
      (meshcoreGrpTxtDeserialize (some data) size (some old)).trace → count ≤ capacity) ∧
  ((meshcoreGrpTxtDeserialize (some data) size (some old)).code ≠ 0 →
    (meshcoreGrpTxtDeserialize (some data) size (some old)).code = -1)

/-- **The contract is met exactly on the sizes that fit**: the others are accepted as well. -/
theorem acceptsWhatFits_iff (data : Memory) (size : UInt8) (old : GroupText) :
    AcceptsWhatFits data size old ↔ 3 ≤ size.toNat ∧ size.toNat ≤ 184 := by
  obtain ⟨s, hrun, htarget, htrace⟩ := exec_groupTextDeserializeBody data size old
  have hcall : meshcoreGrpTxtDeserialize (some data) size (some old)
      = ⟨0, some s.target, s.trace⟩ := call_of_some hrun
  rw [AcceptsWhatFits, hcall]
  constructor
  · rintro ⟨haccepts, -, -⟩
    exact haccepts.mp rfl
  · intro hsize
    have hlength := toNat_sub_three hsize.1
    refine ⟨iff_of_true rfl hsize, ?_, fun hcode => absurd rfl hcode⟩
    intro _
    refine ⟨⟨s.target, rfl, ?_⟩, ?_⟩
    · rw [htarget]
      show (size - 3).toNat + 3 = size.toNat ∧ (size - 3).toNat ≤ 181
      omega
    · intro count capacity hmem
      rw [htrace] at hmem
      simp only [List.mem_cons, Access.fill.injEq, reduceCtorEq, List.not_mem_nil, or_false,
        false_or] at hmem
      omega

/-- A payload of two bytes is accepted, with 255 bytes of data. -/
theorem not_acceptsWhatFits_short :
    ¬ ∀ (data : Memory) (size : UInt8) (old : GroupText), AcceptsWhatFits data size old := by
  intro h
  obtain ⟨haccepts, -, -⟩ := h (fun _ => 0) 2 GroupText.zero
  have hcode := (yields_groupText (fun _ => 0) 2 GroupText.zero).1
  exact absurd (haccepts.mp hcode) (by decide)

/-! ## Round trips -/

/-- The decoded group text has the fields of the original one, and the used part of its data. -/
structure SameGroupText (g decoded : GroupText) : Prop where
  channelHash : decoded.channelHash = g.channelHash
  mac : decoded.mac = g.mac
  dataLength : decoded.dataLength = g.dataLength
  data : ∀ i < g.dataLength.toNat, view decoded.data i = view g.data i

/-- **Decoding undoes encoding.** -/
theorem sameGroupText_decoded {g : GroupText} (hlength : g.dataLength.toNat ≤ 181) {data : Memory}
    {size : UInt8} (h : slice data 0 size.toNat = g.wire) :
    SameGroupText g (decodedGroupText data size) := by
  have hsize : size.toNat = g.dataLength.toNat + 3 := by
    rw [← g.length_wire, ← h, length_slice]
  have hdataLength : size - 3 = g.dataLength := by
    apply UInt8.toNat_inj.mp
    rw [toNat_sub_three (by omega)]
    omega
  rw [GroupText.wire, slice_eq_append_iff (by simp [cipherMacSize]; omega),
    slice_eq_append_iff List.length_append] at h
  simp only [length_slice, List.length_append, List.length_singleton, cipherMacSize, Nat.zero_add,
    Nat.reduceAdd] at h
  obtain ⟨⟨hhash, hmac⟩, hdata⟩ := h
  refine ⟨List.singleton_injective hhash, ?_, hdataLength, ?_⟩
  · show blit (Vector.replicate cipherMacSize 0) (slice data 1 2) = g.mac
    rw [hmac]
    exact blit_slice_view _ _
  · intro i hi
    show view (blit (Vector.replicate groupDataCapacity 0) (slice data 3 (size - 3).toNat)) i = _
    have hfit : g.dataLength.toNat ≤ groupDataCapacity := hlength
    rw [hdataLength, hdata, view_blit_slice _ hfit, if_pos hi, Nat.zero_add]

/-- **Encoding undoes decoding**, on the sizes that fit. -/
theorem wire_decodedGroupText (data : Memory) {size : UInt8}
    (h : 3 ≤ size.toNat ∧ size.toNat ≤ 184) :
    (decodedGroupText data size).wire = slice data 0 size.toNat := by
  have hlength := toNat_sub_three h.1
  have hfit : (size - 3).toNat ≤ groupDataCapacity := by
    unfold groupDataCapacity maxPayloadSize cipherMacSize
    omega
  have hsplit : size.toNat = 1 + 2 + (size - 3).toNat := by omega
  have hmac := slice_view_blit (Vector.replicate cipherMacSize 0) (length_slice data 1 2).le
  have hdata := slice_view_blit (Vector.replicate groupDataCapacity 0)
    ((length_slice data 3 (size - 3).toNat).le.trans hfit)
  rw [length_slice] at hmac hdata
  rw [hsplit, slice_add, slice_add, GroupText.wire]
  show [data 0] ++ slice (view (blit _ (slice data 1 2))) 0 2 ++
    slice (view (blit (Vector.replicate groupDataCapacity 0) (slice data 3 (size - 3).toNat))) 0
      (size - 3).toNat = _
  rw [hmac, hdata]
  rfl

end MeshcoreC.Mesh
