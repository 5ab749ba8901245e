import MeshcoreC.Mesh.PacketDecoding

/-! # The packet grammar

A packet is a header byte, transport codes if the header asks for them, a path behind its length,
and a payload; the bounds on path and payload are part of the type `Packet`.

* **`meshcoreDeserialize_packet_iff`** — the decoder accepts exactly the wire forms of packets, and
  decodes each to its message.
* **`meshcoreDeserialize_accepts_iff`** — the same in terms of bytes and sizes.
* **`meshcoreDeserialize_reads_iff`** — the decoder stays inside the received bytes unless the path
  is not all there. -/

namespace MeshcoreC.Mesh

open Buffers EarlyReturn Wire

/-! ## Well-formed bytes -/

/-- What makes the first `size` bytes of memory a packet. -/
structure WellFormed (data : Memory) (size : ℕ) : Prop where
  header : headerLength (data 0) + 1 ≤ size
  path : (data (headerLength (data 0))).toNat ≤ 64
  fits : payloadStart data ≤ size
  payload : size - payloadStart data ≤ 184

variable {data : Memory} {size : UInt8} {old : Message}

/-- A well-formed packet is accepted. -/
theorem meshcoreDeserialize_of_wellFormed (h : WellFormed data size.toNat) (old : Message) :
    (meshcoreDeserialize (some data) size (some old)).code = 0 ∧
      (meshcoreDeserialize (some data) size (some old)).target
        = some (decodedMessage data size) := by
  obtain ⟨s, hrun, htarget, -⟩ :=
    exec_accepted data size old h.header h.path h.fits h.payload
  have hcall := call_of_some hrun
  rw [htarget] at hcall
  show (call (deserializeBody data size) (some old)).code = 0 ∧
    (call (deserializeBody data size) (some old)).target = some (decodedMessage data size)
  rw [hcall]
  exact ⟨rfl, rfl⟩

/-- Anything else is rejected. -/
theorem meshcoreDeserialize_of_not_wellFormed (h : ¬ WellFormed data size.toNat) (old : Message) :
    (meshcoreDeserialize (some data) size (some old)).code = -1 := by
  have hreject : ∃ s, exec (deserializeBody data size) ⟨0, old, []⟩ = (none, s) := by
    by_cases hheader : headerLength (data 0) + 1 ≤ size.toNat
    · by_cases hpath : (data (headerLength (data 0))).toNat ≤ 64
      · by_cases hfits : payloadStart data ≤ size.toNat
        · have hlong : 184 < size.toNat - payloadStart data :=
            not_le.mp fun hle => h ⟨hheader, hpath, hfits, hle⟩
          obtain ⟨s, hrun, -⟩ := exec_longPayload data size old hheader hpath hfits hlong
          exact ⟨s, hrun⟩
        · obtain ⟨s, hrun, -⟩ :=
            exec_truncatedPath data size old hheader hpath (not_le.mp hfits)
          exact ⟨s, hrun⟩
      · obtain ⟨s, hrun, -⟩ := exec_longPath data size old hheader (not_le.mp hpath)
        exact ⟨s, hrun⟩
    · obtain ⟨s, hrun, -⟩ := exec_short data size old (not_le.mp hheader)
      exact ⟨s, hrun⟩
  obtain ⟨s, hrun⟩ := hreject
  show (call (deserializeBody data size) (some old)).code = -1
  rw [call_of_none hrun]

/-- The decoder accepts exactly the well-formed packets. -/
theorem code_eq_zero_iff :
    (meshcoreDeserialize (some data) size (some old)).code = 0 ↔ WellFormed data size.toNat := by
  constructor
  · intro hcode
    by_contra h
    rw [meshcoreDeserialize_of_not_wellFormed h] at hcode
    exact absurd hcode (by decide)
  · intro h
    exact (meshcoreDeserialize_of_wellFormed h old).1

/-! ## The fields of the decoded message -/

/-- The first transport code, as a number. -/
theorem toNat_decodedCodes :
    (view (decodedCodes data) 0).toNat =
      if headerLength (data 0) = 3 then (data 1).toNat + 256 * (data 2).toNat else 0 := by
  show (UInt16.ofNat (ofLeBytes (slice data 1 (headerLength (data 0) - 1)))).toNat = _
  have hlo := (data 1).toNat_lt
  have hhi := (data 2).toNat_lt
  rw [UInt16.toNat_ofNat']
  rcases headerLength_eq (data 0) with h | h
  · rw [h]
    rfl
  · rw [h, if_pos rfl]
    show Nat.ofDigits 256 [(data 1).toNat, (data 2).toNat] % 65536 = _
    rw [Nat.ofDigits_cons, Nat.ofDigits_singleton]
    omega

/-- **The decoder accepts exactly the packet grammar.** With `h` the header length that the first
byte announces and `p` the path length at index `h`, a packet of any size is accepted if and only if
it has at least `h + 1` bytes, `p ≤ 64`, the path is all there, and at most 184 bytes follow; else
the code is `-1`. An accepted packet is decoded to its fields, and what it does not have is zero. -/
theorem meshcoreDeserialize_accepts_iff (data : Memory) (size : UInt8) (old : Message) :
    ((meshcoreDeserialize (some data) size (some old)).code = 0 ↔
      headerLength (data 0) + 1 ≤ size.toNat ∧ (data (headerLength (data 0))).toNat ≤ 64 ∧
        headerLength (data 0) + 1 + (data (headerLength (data 0))).toNat ≤ size.toNat ∧
        size.toNat - (headerLength (data 0) + 1 + (data (headerLength (data 0))).toNat) ≤ 184) ∧
    ((meshcoreDeserialize (some data) size (some old)).code ≠ 0 →
      (meshcoreDeserialize (some data) size (some old)).code = -1) ∧
    ((meshcoreDeserialize (some data) size (some old)).code = 0 → ∃ message,
      (meshcoreDeserialize (some data) size (some old)).target = some message ∧
      message.route.toNat = (data 0).toNat % 4 ∧ message.type.toNat = (data 0).toNat / 4 % 16 ∧
      message.version.toNat = (data 0).toNat / 64 ∧
      (view message.transportCodes 0).toNat =
        (if headerLength (data 0) = 3 then (data 1).toNat + 256 * (data 2).toNat else 0) ∧
      view message.transportCodes 1 = 0 ∧
      message.pathLength = data (headerLength (data 0)) ∧
      message.payloadLength.toNat =
        size.toNat - (headerLength (data 0) + 1 + (data (headerLength (data 0))).toNat) ∧
      (∀ i, view message.path i =
        if i < message.pathLength.toNat then data (headerLength (data 0) + 1 + i) else 0) ∧
      ∀ i, view message.payload i =
        if i < message.payloadLength.toNat then
          data (headerLength (data 0) + 1 + (data (headerLength (data 0))).toNat + i)
        else 0) := by
  refine ⟨?_, ?_, ?_⟩
  · rw [code_eq_zero_iff]
    exact ⟨fun h => ⟨h.header, h.path, h.fits, h.payload⟩, fun h => ⟨h.1, h.2.1, h.2.2.1, h.2.2.2⟩⟩
  · intro hcode
    exact meshcoreDeserialize_of_not_wellFormed (mt code_eq_zero_iff.mpr hcode) old
  · intro hcode
    have h := code_eq_zero_iff.mp hcode
    have hlength : (decodedMessage data size).payloadLength.toNat
        = size.toNat - payloadStart data := by
      have hle := h.payload
      show (UInt8.ofNat (size.toNat - payloadStart data)).toNat = _
      rw [UInt8.toNat_ofNat']
      omega
    refine ⟨decodedMessage data size, (meshcoreDeserialize_of_wellFormed h old).2,
      toNat_route _, toNat_type _, toNat_version _, toNat_decodedCodes, rfl, rfl, hlength, ?_, ?_⟩
    · exact view_blit_slice data h.path
    · rw [hlength]
      exact view_blit_slice data h.payload

/-! ## Packets -/

/-- A packet, with the bounds of the format. -/
structure Packet where
  header : UInt8
  codes : List UInt8
  path : List UInt8
  payload : List UInt8
  length_codes : headerLength header = 1 + codes.length
  length_path : path.length ≤ 64
  length_payload : payload.length ≤ 184

namespace Packet

/-- The wire form of a packet. -/
def wire (p : Packet) : List UInt8 :=
  [p.header] ++ (p.codes ++ ([UInt8.ofNat p.path.length] ++ (p.path ++ p.payload)))

/-- The message a packet is decoded to. -/
def message (p : Packet) : Message :=
  { headerMessage p.header with
    transportCodes := #v[UInt16.ofNat (ofLeBytes p.codes), 0]
    pathLength := UInt8.ofNat p.path.length
    path := blit (Vector.replicate maxPathSize 0) p.path
    payloadLength := UInt8.ofNat p.payload.length
    payload := blit (Vector.replicate maxPayloadSize 0) p.payload }

variable (p : Packet)

/-- The length of a packet, from its parts. -/
theorem length_wire :
    p.wire.length = headerLength p.header + 1 + p.path.length + p.payload.length := by
  have hcodes := p.length_codes
  simp only [wire, List.length_append, List.length_singleton]
  omega

/-- Every packet fits an 8-bit size. -/
theorem length_wire_le : p.wire.length ≤ 252 := by
  have hpath := p.length_path
  have hpayload := p.length_payload
  rw [length_wire]
  rcases headerLength_eq p.header with h | h
  · omega
  · omega

/-- The path length is not truncated. -/
theorem toNat_pathLength : (UInt8.ofNat p.path.length).toNat = p.path.length := by
  have hpath := p.length_path
  rw [UInt8.toNat_ofNat']
  omega

/-- The wire form in memory, field by field. -/
theorem slice_eq_wire_iff {n : ℕ} (hn : n = p.wire.length) :
    slice data 0 n = p.wire ↔ data 0 = p.header ∧ slice data 1 p.codes.length = p.codes ∧
      data (1 + p.codes.length) = UInt8.ofNat p.path.length ∧
      slice data (1 + p.codes.length + 1) p.path.length = p.path ∧
      slice data (1 + p.codes.length + 1 + p.path.length) p.payload.length = p.payload := by
  rw [hn, wire, slice_eq_append_iff List.length_append, slice_eq_append_iff List.length_append,
    slice_eq_append_iff List.length_append, slice_eq_append_iff List.length_append]
  simp only [List.length_singleton, slice_one, List.cons.injEq, and_true, Nat.zero_add]

/-- A wire form in memory is well formed, and decodes to the packet's message. -/
theorem wellFormed_of_slice_eq_wire (h : slice data 0 size.toNat = p.wire) :
    WellFormed data size.toNat ∧ decodedMessage data size = p.message := by
  have hn : size.toNat = p.wire.length := by
    rw [← h, length_slice]
  -- the header byte decides where the path length is, and that where the payload starts
  obtain ⟨hheader, hcodes, hlength, hpath, hpayload⟩ := (p.slice_eq_wire_iff hn).mp h
  have hh : headerLength (data 0) = 1 + p.codes.length := by rw [hheader, p.length_codes]
  have hp : (data (headerLength (data 0))).toNat = p.path.length := by
    rw [hh, hlength, p.toNat_pathLength]
  have hstart : payloadStart data = 1 + p.codes.length + 1 + p.path.length := by
    rw [payloadStart, hp, hh]
  have hsize : size.toNat = payloadStart data + p.payload.length := by
    rw [hn, p.length_wire, hstart, p.length_codes]
  have hrest : size.toNat - payloadStart data = p.payload.length := by omega
  constructor
  · have hlength_path := p.length_path
    have hlength_payload := p.length_payload
    refine ⟨?_, ?_, ?_, ?_⟩
    · omega
    · rw [hp]
      exact hlength_path
    · omega
    · omega
  · have hsub : 1 + p.codes.length - 1 = p.codes.length := by omega
    rw [decodedMessage, decodedCodes, message, hrest, hp, hstart, hh, hlength, hpath, hpayload,
      hheader, hsub, hcodes]

end Packet

/-- Well-formed bytes are the wire form of a packet. -/
theorem WellFormed.exists_packet (h : WellFormed data size.toNat) :
    ∃ p : Packet, slice data 0 size.toNat = p.wire := by
  have hh : headerLength (data 0) = 1 + (headerLength (data 0) - 1) := by
    rcases headerLength_eq (data 0) with heq | heq
    · rw [heq]
    · rw [heq]
  obtain ⟨hheader, hpath, hfits, hpayload⟩ := h
  let p : Packet :=
    { header := data 0
      codes := slice data 1 (headerLength (data 0) - 1)
      path := slice data (headerLength (data 0) + 1) (data (headerLength (data 0))).toNat
      payload := slice data (payloadStart data) (size.toNat - payloadStart data)
      length_codes := by rw [length_slice]; exact hh
      length_path := by rw [length_slice]; exact hpath
      length_payload := by rw [length_slice]; exact hpayload }
  have hn : size.toNat = p.wire.length := by
    rw [p.length_wire]
    show size.toNat = headerLength (data 0) + 1 + (slice data _ _).length + (slice data _ _).length
    rw [length_slice, length_slice]
    unfold payloadStart at *
    omega
  refine ⟨p, (p.slice_eq_wire_iff hn).mpr ?_⟩
  -- every part of the packet was cut out of the bytes at its own place
  have hcodes : 1 + p.codes.length = headerLength (data 0) := p.length_codes.symm
  have hlength : p.path.length = (data (headerLength (data 0))).toNat := length_slice ..
  refine ⟨rfl, ?_, ?_, ?_, ?_⟩
  · rw [length_slice]
  · rw [hcodes, hlength, UInt8.ofNat_toNat]
  · rw [hcodes, hlength]
  · rw [hcodes, hlength]
    show slice data (payloadStart data) (slice data _ _).length = _
    rw [length_slice]

/-- **The decoder recognises exactly the wire forms of packets**, and decodes each of them to its
message. -/
theorem meshcoreDeserialize_packet_iff (data : Memory) (size : UInt8) (old : Message) :
    ((meshcoreDeserialize (some data) size (some old)).code = 0 ↔
      ∃ p : Packet, slice data 0 size.toNat = p.wire) ∧
    ∀ p : Packet, slice data 0 size.toNat = p.wire →
      (meshcoreDeserialize (some data) size (some old)).target = some p.message := by
  constructor
  · rw [code_eq_zero_iff]
    constructor
    · exact WellFormed.exists_packet
    · rintro ⟨p, hp⟩
      exact (p.wellFormed_of_slice_eq_wire hp).1
  · intro p hp
    obtain ⟨hwf, hmessage⟩ := p.wellFormed_of_slice_eq_wire hp
    rw [(meshcoreDeserialize_of_wellFormed hwf old).2, hmessage]

/-! ## Memory accesses -/

/-- **The decoder stays inside the packet exactly when the path does.** Every byte read has an index
below the size if and only if the packet is too short to have a path length, the path length is more
than 64, or the path is all there. -/
theorem meshcoreDeserialize_reads_iff (data : Memory) (size : UInt8) (old : Message) :
    (∀ i ∈ (meshcoreDeserialize (some data) size (some old)).readIndices, i < size.toNat) ↔
      size.toNat < headerLength (data 0) + 1 ∨ 64 < (data (headerLength (data 0))).toNat ∨
        headerLength (data 0) + 1 + (data (headerLength (data 0))).toNat ≤ size.toNat := by
  have hnone : ∀ s, exec (deserializeBody data size) ⟨0, old, []⟩ = (none, s) →
      (meshcoreDeserialize (some data) size (some old)).readIndices = s.readIndices := by
    intro s hrun
    show (call (deserializeBody data size) (some old)).readIndices = _
    rw [call_of_none hrun]
    rfl
  by_cases hheader : headerLength (data 0) + 1 ≤ size.toNat
  · by_cases hpath : (data (headerLength (data 0))).toNat ≤ 64
    · by_cases hfits : payloadStart data ≤ size.toNat
      · have hright : size.toNat < headerLength (data 0) + 1 ∨
            64 < (data (headerLength (data 0))).toNat ∨ payloadStart data ≤ size.toNat :=
          .inr (.inr hfits)
        refine iff_of_true ?_ hright
        by_cases hpayload : size.toNat - payloadStart data ≤ 184
        · obtain ⟨s, hrun, -, hreads⟩ :=
            exec_accepted data size old hheader hpath hfits hpayload
          show ∀ i ∈ (call (deserializeBody data size) (some old)).readIndices, _
          rw [call_of_some hrun]
          exact hreads
        · obtain ⟨s, hrun, hreads⟩ :=
            exec_longPayload data size old hheader hpath hfits (not_le.mp hpayload)
          rw [hnone s hrun]
          exact hreads
      · -- the path is not all there: the byte right behind the packet is read
        obtain ⟨s, hrun, hmem⟩ :=
          exec_truncatedPath data size old hheader hpath (not_le.mp hfits)
        rw [hnone s hrun]
        refine iff_of_false (fun hall => absurd (hall _ hmem) (lt_irrefl _)) ?_
        unfold payloadStart at hfits
        omega
    · obtain ⟨s, hrun, hreads⟩ := exec_longPath data size old hheader (not_le.mp hpath)
      rw [hnone s hrun]
      exact iff_of_true hreads (.inr (.inl (not_le.mp hpath)))
  · obtain ⟨s, hrun, hreads⟩ := exec_short data size old (not_le.mp hheader)
    rw [hnone s hrun]
    exact iff_of_true hreads (.inl (not_le.mp hheader))

/-- A packet of two bytes that announces a path of 64: the decoder reads far behind it. -/
theorem not_meshcoreDeserialize_reads_truncated :
    ¬ ∀ (data : Memory) (size : UInt8) (old : Message),
      ∀ i ∈ (meshcoreDeserialize (some data) size (some old)).readIndices, i < size.toNat := by
  intro h
  have hmem :
      2 ∈ (meshcoreDeserialize (some (view #v[1, 64])) 2 (some Message.zero)).readIndices := by
    decide
  exact absurd (h (view #v[1, 64]) 2 Message.zero 2 hmem) (by decide)

end MeshcoreC.Mesh
