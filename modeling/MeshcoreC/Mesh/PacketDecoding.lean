import MeshcoreC.Mesh.Packet

/-! # What the packet decoder computes

Each part of `meshcore_deserialize` has one lemma for every way it can end, and five lemmas put
them together: a packet is too short for its header (`exec_short`), its path is too long
(`exec_longPath`) or not all there (`exec_truncatedPath`), its payload is too long
(`exec_longPayload`), or it is accepted (`exec_accepted`). They also say which bytes are read. -/

namespace MeshcoreC.Mesh

open Buffers EarlyReturn Wire

/-! ## Bit fields of the header byte -/

/-- The route is bits 0 and 1 of the header byte. -/
theorem toNat_route (b : UInt8) :
    ((b.toUInt32 >>> headerRouteShift) &&& headerRouteMask).toNat = b.toNat % 4 := by
  rw [UInt32.toNat_and, UInt32.toNat_shiftRight, UInt8.toNat_toUInt32]
  exact Nat.and_two_pow_sub_one_eq_mod b.toNat 2

/-- The type is bits 2 to 5 of the header byte. -/
theorem toNat_type (b : UInt8) :
    ((b.toUInt32 >>> headerTypeShift) &&& headerTypeMask).toNat = b.toNat / 4 % 16 := by
  rw [UInt32.toNat_and, UInt32.toNat_shiftRight, UInt8.toNat_toUInt32]
  exact shiftRight_and_mask b.toNat 2 4

/-- The version is bits 6 and 7 of the header byte. -/
theorem toNat_version (b : UInt8) :
    ((b.toUInt32 >>> headerVerShift) &&& headerVerMask).toUInt8.toNat = b.toNat / 64 := by
  have hlt := b.toNat_lt
  rw [UInt32.toNat_toUInt8, UInt32.toNat_and, UInt32.toNat_shiftRight, UInt8.toNat_toUInt32]
  show (b.toNat >>> 6 &&& 2 ^ 2 - 1) % 2 ^ 8 = _
  rw [shiftRight_and_mask]
  omega

/-- The number of bytes before the path length: the header byte, and the transport codes on the two
routes that have them. -/
def headerLength (header : UInt8) : ℕ :=
  if header.toNat % 4 = 0 ∨ header.toNat % 4 = 3 then 3 else 1

/-- There are transport codes in the header, or not. -/
theorem headerLength_eq (header : UInt8) : headerLength header = 1 ∨ headerLength header = 3 := by
  unfold headerLength
  split_ifs
  · exact .inr rfl
  · exact .inl rfl

/-- What the three header fields make of a cleared message. -/
def headerMessage (header : UInt8) : Message :=
  { Message.zero with
    route := (header.toUInt32 >>> headerRouteShift) &&& headerRouteMask
    type := (header.toUInt32 >>> headerTypeShift) &&& headerTypeMask
    version := ((header.toUInt32 >>> headerVerShift) &&& headerVerMask).toUInt8 }

/-- The route has transport codes exactly when the header is three bytes long. -/
theorem hasTransportCodes_iff (header : UInt8) :
    HasTransportCodes (headerMessage header).route ↔ headerLength header = 3 := by
  rw [HasTransportCodes, ← UInt32.toNat_inj, ← UInt32.toNat_inj]
  show ((header.toUInt32 >>> headerRouteShift) &&& headerRouteMask).toNat = 0 ∨
    ((header.toUInt32 >>> headerRouteShift) &&& headerRouteMask).toNat = 3 ↔ _
  rw [toNat_route, headerLength]
  split_ifs with h
  · simp [h]
  · simp [h]

/-! ## The parts of the decoder -/

variable (data : Memory) (size : UInt8)

/-- The header fields of a packet that is not empty. -/
theorem exec_header (h : 1 ≤ size.toNat) (t : Message) :
    ∃ s : WireState Message,
      exec (deserializeBody data size) ⟨0, t, []⟩ =
        exec (readTransportCodes data size 0 >>= fun _ => readPath data size >>= fun _ =>
          readPayload data size) s ∧
      s.position = 1 ∧ s.target = headerMessage (data 0) ∧ s.readIndices = [0, 0, 0] := by
  have hlt := size.toNat_lt
  have hsize : ¬ (size.toNat < sizeofLineHeader ∨ maxTransUnit < size.toNat) := by
    unfold sizeofLineHeader maxTransUnit
    omega
  apply Exists.intro
  constructor
  · rw [deserializeBody, exec_assign_bind, exec_rejectIf_bind_of_neg hsize, exec_position_bind,
      exec_advance_bind, readLineHeader]
    simp only [bind_assoc, exec_readByte_bind, exec_assign_bind]
    rfl
  · exact ⟨rfl, rfl, rfl⟩

/-- The transport codes are missing. -/
theorem exec_readTransportCodes_short {s : WireState Message} (hpos : s.position = 1)
    (hheader : s.target = headerMessage (data 0)) (h1 : 1 ≤ size.toNat)
    (hshort : size.toNat < headerLength (data 0)) :
    exec (readTransportCodes data size 0) s = (none, s) := by
  have h3 : headerLength (data 0) = 3 := by
    rcases headerLength_eq (data 0) with h | h
    · omega
    · exact h
  have hroute : HasTransportCodes s.target.route := by
    rw [hheader, hasTransportCodes_iff, h3]
  have hreject : toSizeT (size.toNat - s.position.toNat) < 2 := by
    rw [toSizeT_sub_lt_iff (by decide), hpos, UInt8.toNat_one]
    omega
  rw [readTransportCodes, exec_current_bind, exec_whenever, if_pos hroute, exec_position_bind,
    exec_rejectIf_bind_of_pos hreject]

/-- The transport codes a packet leaves in the message: the first one from the packet, where it has
one, and never the second. -/
def decodedCodes : Vector UInt16 2 :=
  #v[UInt16.ofNat (ofLeBytes (slice data 1 (headerLength (data 0) - 1))), 0]

/-- The transport codes are there, or there are none to read. -/
theorem exec_readTransportCodes {s : WireState Message} (hpos : s.position = 1)
    (hheader : s.target = headerMessage (data 0)) (hreads : s.readIndices = [0, 0, 0])
    (hlong : headerLength (data 0) ≤ size.toNat) :
    ∃ s', exec (readTransportCodes data size 0) s = (some (), s') ∧
      s'.position.toNat = headerLength (data 0) ∧
      s'.target = { headerMessage (data 0) with transportCodes := decodedCodes data } ∧
      ∀ i, i ∈ s'.readIndices ↔ i < headerLength (data 0) := by
  rw [readTransportCodes, exec_current_bind, exec_whenever]
  -- the test on the decoded route is one on the header byte
  have hroute := hasTransportCodes_iff (data 0)
  rw [← hheader] at hroute
  by_cases h3 : headerLength (data 0) = 3
  · have hreject : ¬ toSizeT (size.toNat - s.position.toNat) < 2 := by
      rw [toSizeT_sub_lt_iff (by decide), hpos, UInt8.toNat_one]
      omega
    rw [if_pos (hroute.mpr h3), exec_position_bind, exec_rejectIf_bind_of_neg hreject,
      exec_copyIn_bind, exec_advance, decodedCodes, h3]
    refine ⟨_, rfl, ?_, ?_, ?_⟩
    · simp [hpos]
    · simp only [WireState.advance_target, WireState.assign_target, WireState.log_target, hheader]
      rfl
    · intro i
      simp [Access.readIndices, hreads, sizeofLineHeader]
      omega
  · have h1 : headerLength (data 0) = 1 := (headerLength_eq (data 0)).resolve_right h3
    rw [if_neg (mt hroute.mp h3), decodedCodes, h1]
    refine ⟨s, rfl, ?_, ?_, ?_⟩
    · rw [hpos, UInt8.toNat_one]
    · rw [hheader]
      rfl
    · intro i
      simp [hreads]

section Path

variable {s : WireState Message} {q : ℕ} (hpos : s.position.toNat = q)

include hpos

/-- The packet ends before the path length. -/
theorem exec_readPath_missing (hend : size.toNat = q) :
    exec (readPath data size) s = (none, s) := by
  have hreject : toSizeT (size.toNat - s.position.toNat) < 1 := by
    rw [toSizeT_sub_lt_iff (by decide)]
    omega
  rw [readPath, exec_position_bind, exec_rejectIf_bind_of_pos hreject]

/-- The check for the path length passes when there is one more byte. -/
theorem not_reject_pathLength (hmore : q < size.toNat) :
    ¬ toSizeT (size.toNat - s.position.toNat) < 1 := by
  rw [toSizeT_sub_lt_iff (by decide)]
  omega

/-- The path is too long for a message. -/
theorem exec_readPath_long (hmore : q < size.toNat) (hlong : 64 < (data q).toNat) :
    ∃ s', exec (readPath data size) s = (none, s') ∧ s'.readIndices = s.readIndices ++ [q] := by
  rw [readPath, exec_position_bind,
    exec_rejectIf_bind_of_neg (not_reject_pathLength size hpos hmore)]
  simp only [exec_readByte_bind, exec_assign_bind, exec_advance_bind, exec_position_bind,
    exec_current_bind, hpos]
  exact ⟨_, exec_rejectIf_bind_of_pos hlong _ _, by simp [Access.readIndices]⟩

/-- The path is copied, whether or not all of it is in the packet. -/
theorem exec_readPath (hq : q ≤ 3) (hmore : q < size.toNat) (hle : (data q).toNat ≤ 64) :
    ∃ s', exec (readPath data size) s = (some (), s') ∧
      s'.position.toNat = q + 1 + (data q).toNat ∧
      s'.target = { s.target with
        pathLength := data q, path := blit s.target.path (slice data (q + 1) (data q).toNat) } ∧
      s'.readIndices = s.readIndices ++ [q] ++ List.range' (q + 1) (data q).toNat := by
  -- the position is far from wrapping around
  have hnext : (s.position + UInt8.ofNat 1).toNat = q + 1 := by
    rw [UInt8.toNat_add, hpos, UInt8.toNat_ofNat']
    omega
  rw [readPath, exec_position_bind,
    exec_rejectIf_bind_of_neg (not_reject_pathLength size hpos hmore)]
  simp only [exec_readByte_bind, exec_assign_bind, exec_advance_bind, exec_position_bind,
    exec_current_bind, hpos]
  refine ⟨_, exec_rejectIf_bind_of_neg (not_lt.mpr hle) _ _, ?_, ?_, ?_⟩
  · show (s.position + UInt8.ofNat 1 + UInt8.ofNat (data q).toNat).toNat = _
    rw [UInt8.toNat_add, hnext, UInt8.toNat_ofNat']
    omega
  · show { s.target with
        pathLength := data q
        path := blit s.target.path
          (slice data (s.position + UInt8.ofNat 1).toNat (data q).toNat) } = _
    rw [hnext]
  · simp only [WireState.log_readIndices, WireState.advance_readIndices,
      WireState.assign_readIndices, WireState.advance_position, WireState.assign_position,
      WireState.log_position, Access.readIndices, hnext]
    simp

/-- A path that is not all there makes the 8-bit payload length wrap around, beyond the capacity of
a message. -/
theorem exec_readPayload_truncated (hq : q ≤ 68) (hshort : size.toNat < q) :
    ∃ s', exec (readPayload data size) s = (none, s') ∧ s'.readIndices = s.readIndices := by
  -- the position is at most 68, so the difference wraps to 188 or more
  have hreject : maxPayloadSize < (size - s.position).toNat := by
    have hsize := size.toNat_lt
    rw [UInt8.toNat_sub, hpos]
    unfold maxPayloadSize
    omega
  rw [readPayload, exec_position_bind, exec_assign_bind, exec_current_bind]
  exact ⟨_, exec_rejectIf_bind_of_pos hreject _ _, by simp⟩

/-- The length of a payload that is all there. -/
theorem toNat_payloadLength (hle : q ≤ size.toNat) :
    (size - s.position).toNat = size.toNat - q := by
  rw [UInt8.toNat_sub_of_le, hpos]
  rw [UInt8.le_iff_toNat_le]
  omega

/-- The payload is too long for a message. -/
theorem exec_readPayload_long (hle : q ≤ size.toNat) (hlong : 184 < size.toNat - q) :
    ∃ s', exec (readPayload data size) s = (none, s') ∧ s'.readIndices = s.readIndices := by
  have hreject : maxPayloadSize < (size - s.position).toNat := by
    rw [toNat_payloadLength size hpos hle]
    exact hlong
  rw [readPayload, exec_position_bind, exec_assign_bind, exec_current_bind]
  exact ⟨_, exec_rejectIf_bind_of_pos hreject _ _, by simp⟩

/-- The payload is copied. -/
theorem exec_readPayload (hle : q ≤ size.toNat) (hfits : size.toNat - q ≤ 184) :
    ∃ s', exec (readPayload data size) s = (some (), s') ∧
      s'.target = { s.target with
        payloadLength := size - s.position
        payload := blit s.target.payload (slice data q (size.toNat - q)) } ∧
      s'.readIndices = s.readIndices ++ List.range' q (size.toNat - q) := by
  have hlength := toNat_payloadLength size hpos hle
  have hreject : ¬ maxPayloadSize < (size - s.position).toNat := by
    rw [hlength]
    exact not_lt.mpr hfits
  rw [readPayload, exec_position_bind, exec_assign_bind, exec_current_bind]
  refine ⟨_, exec_rejectIf_bind_of_neg hreject _ _, ?_, ?_⟩
  · show { s.target with
        payloadLength := size - s.position
        payload := blit s.target.payload
          (slice data s.position.toNat (size - s.position).toNat) } = _
    rw [hlength, hpos]
  · simp only [WireState.log_readIndices, WireState.assign_readIndices, Access.readIndices,
      WireState.assign_target, hlength, hpos]
    simp

end Path

/-! ## The whole decoder -/

/-- The number of bytes before the payload. -/
def payloadStart : ℕ := headerLength (data 0) + 1 + (data (headerLength (data 0))).toNat

/-- The message an accepted packet stands for. -/
def decodedMessage : Message :=
  { headerMessage (data 0) with
    transportCodes := decodedCodes data
    pathLength := data (headerLength (data 0))
    path := blit (Vector.replicate maxPathSize 0)
      (slice data (headerLength (data 0) + 1) (data (headerLength (data 0))).toNat)
    payloadLength := UInt8.ofNat (size.toNat - payloadStart data)
    payload := blit (Vector.replicate maxPayloadSize 0)
      (slice data (payloadStart data) (size.toNat - payloadStart data)) }

variable (t : Message)

/-- The header of a packet that has one. -/
theorem exec_wholeHeader (h : headerLength (data 0) ≤ size.toNat) :
    ∃ s : WireState Message,
      exec (deserializeBody data size) ⟨0, t, []⟩ =
        exec (readPath data size >>= fun _ => readPayload data size) s ∧
      s.position.toNat = headerLength (data 0) ∧
      s.target = { headerMessage (data 0) with transportCodes := decodedCodes data } ∧
      ∀ i, i ∈ s.readIndices ↔ i < headerLength (data 0) := by
  have h1 : 1 ≤ size.toNat := by
    rcases headerLength_eq (data 0) with heq | heq
    · omega
    · omega
  obtain ⟨s, hrun, hpos, htarget, hreads⟩ := exec_header data size h1 t
  obtain ⟨s', hcodes, hpos', htarget', hreads'⟩ :=
    exec_readTransportCodes data size hpos htarget hreads h
  exact ⟨s', hrun.trans (exec_bind_of_some hcodes _), hpos', htarget', hreads'⟩

/-- **Too short for a header and a path length.** -/
theorem exec_short (hshort : size.toNat < headerLength (data 0) + 1) :
    ∃ s, exec (deserializeBody data size) ⟨0, t, []⟩ = (none, s) ∧
      ∀ i ∈ s.readIndices, i < size.toNat := by
  by_cases h0 : size.toNat = 0
  · -- nothing is read of an empty packet
    have hreject : size.toNat < sizeofLineHeader ∨ maxTransUnit < size.toNat := by
      left
      rw [h0]
      exact Nat.one_pos
    rw [deserializeBody, exec_assign_bind, exec_rejectIf_bind_of_pos hreject]
    exact ⟨_, rfl, by simp [WireState.readIndices, WireState.assign]⟩
  by_cases hcodes : size.toNat < headerLength (data 0)
  · -- the transport codes are missing
    obtain ⟨s, hrun, hpos, htarget, hreads⟩ := exec_header data size (by omega) t
    have hnone := exec_readTransportCodes_short data size hpos htarget (by omega) hcodes
    refine ⟨s, hrun.trans (exec_bind_of_none hnone _), ?_⟩
    rw [hreads]
    intro i hi
    simp only [List.mem_cons, List.not_mem_nil, or_false, or_self] at hi
    omega
  · -- the path length is missing
    obtain ⟨s, hrun, hpos, -, hreads⟩ := exec_wholeHeader data size t (not_lt.mp hcodes)
    have hnone := exec_readPath_missing data size hpos (by omega)
    refine ⟨s, hrun.trans (exec_bind_of_none hnone _), ?_⟩
    intro i hi
    have hlt := (hreads i).mp hi
    omega

section HasPathLength

variable (hheader : headerLength (data 0) + 1 ≤ size.toNat)

include hheader

/-- **A path longer than a message holds.** -/
theorem exec_longPath (hlong : 64 < (data (headerLength (data 0))).toNat) :
    ∃ s, exec (deserializeBody data size) ⟨0, t, []⟩ = (none, s) ∧
      ∀ i ∈ s.readIndices, i < size.toNat := by
  obtain ⟨s, hrun, hpos, -, hreads⟩ := exec_wholeHeader data size t (by omega)
  obtain ⟨s', hnone, hreads'⟩ := exec_readPath_long data size hpos (by omega) hlong
  refine ⟨s', hrun.trans (exec_bind_of_none hnone _), ?_⟩
  intro i hi
  rw [hreads', List.mem_append, hreads, List.mem_singleton] at hi
  omega

/-- The decoder up to the payload, when the path length is acceptable. -/
theorem exec_wholePath (hpath : (data (headerLength (data 0))).toNat ≤ 64) :
    ∃ s : WireState Message,
      exec (deserializeBody data size) ⟨0, t, []⟩ = exec (readPayload data size) s ∧
      s.position.toNat = payloadStart data ∧
      s.target = { headerMessage (data 0) with
        transportCodes := decodedCodes data
        pathLength := data (headerLength (data 0))
        path := blit (Vector.replicate maxPathSize 0)
          (slice data (headerLength (data 0) + 1) (data (headerLength (data 0))).toNat) } ∧
      ∀ i, i ∈ s.readIndices ↔ i < payloadStart data := by
  have hle : headerLength (data 0) ≤ 3 := by
    rcases headerLength_eq (data 0) with heq | heq
    · omega
    · omega
  obtain ⟨s, hrun, hpos, htarget, hreads⟩ := exec_wholeHeader data size t (by omega)
  obtain ⟨s', hsome, hpos', htarget', hreads'⟩ := exec_readPath data size hpos hle (by omega) hpath
  refine ⟨s', hrun.trans (exec_bind_of_some hsome _), hpos', ?_, ?_⟩
  · rw [htarget', htarget]
    rfl
  · intro i
    rw [hreads', List.mem_append, List.mem_append, hreads, List.mem_singleton,
      List.mem_range'_1, payloadStart]
    omega

/-- **A path that is not all there**: the decoder reads past the end of the packet, and rejects it
then. -/
theorem exec_truncatedPath (hpath : (data (headerLength (data 0))).toNat ≤ 64)
    (hshort : size.toNat < payloadStart data) :
    ∃ s, exec (deserializeBody data size) ⟨0, t, []⟩ = (none, s) ∧ size.toNat ∈ s.readIndices := by
  have hle : payloadStart data ≤ 68 := by
    unfold payloadStart
    rcases headerLength_eq (data 0) with heq | heq
    · omega
    · omega
  obtain ⟨s, hrun, hpos, -, hreads⟩ := exec_wholePath data size t hheader hpath
  obtain ⟨s', hnone, hreads'⟩ := exec_readPayload_truncated data size hpos hle hshort
  refine ⟨s', hrun.trans hnone, ?_⟩
  rw [hreads', hreads]
  exact hshort

/-- **A payload longer than a message holds.** -/
theorem exec_longPayload (hpath : (data (headerLength (data 0))).toNat ≤ 64)
    (hfits : payloadStart data ≤ size.toNat) (hlong : 184 < size.toNat - payloadStart data) :
    ∃ s, exec (deserializeBody data size) ⟨0, t, []⟩ = (none, s) ∧
      ∀ i ∈ s.readIndices, i < size.toNat := by
  obtain ⟨s, hrun, hpos, -, hreads⟩ := exec_wholePath data size t hheader hpath
  obtain ⟨s', hnone, hreads'⟩ := exec_readPayload_long data size hpos hfits hlong
  refine ⟨s', hrun.trans hnone, ?_⟩
  intro i hi
  rw [hreads', hreads] at hi
  omega

/-- **An accepted packet.** -/
theorem exec_accepted (hpath : (data (headerLength (data 0))).toNat ≤ 64)
    (hfits : payloadStart data ≤ size.toNat) (hle : size.toNat - payloadStart data ≤ 184) :
    ∃ s, exec (deserializeBody data size) ⟨0, t, []⟩ = (some (), s) ∧
      s.target = decodedMessage data size ∧ ∀ i ∈ s.readIndices, i < size.toNat := by
  obtain ⟨s, hrun, hpos, htarget, hreads⟩ := exec_wholePath data size t hheader hpath
  obtain ⟨s', hsome, htarget', hreads'⟩ := exec_readPayload data size hpos hfits hle
  have hlength : size - s.position = UInt8.ofNat (size.toNat - payloadStart data) := by
    rw [← UInt8.toNat_inj, toNat_payloadLength size hpos hfits, UInt8.toNat_ofNat']
    omega
  refine ⟨s', hrun.trans hsome, ?_, ?_⟩
  · rw [htarget', htarget, hlength]
    rfl
  · intro i hi
    rw [hreads', List.mem_append, hreads, List.mem_range'_1] at hi
    omega

end HasPathLength

end MeshcoreC.Mesh
