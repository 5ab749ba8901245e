import MeshcoreC.Companion.Layout
import MeshcoreC.Library.WireProgram

/-! # The response writer

`mc_companion_serial_interface.c`, sending side: `mc_companion_write_serial_response` frames a
response. It counts the type byte into the length of the packet, and uses that one length for the
header, for the copy of the arguments and for the position.

* **`response_wrote`** — what is written, and the length that is reported.
* **`response_not_inside`** — the copy takes one byte too many, so that a call always stores past
  the length it reports; the size of the output buffer plays no part. -/

namespace MeshcoreC

open Buffers Wire

/-! ## Response packets -/

/-- The structures in the union of a response packet. -/
inductive ResponseArgs
  | ok | err | contactsStart | contact | endOfContacts | selfInfo | sent | contactMsgRecv
  | channelMsgRecv | currentTime | exportContact | battAndStorage | deviceInfo | privateKey
  | channelInfo | signStart | signature | customVars | stats | pushAdvertisement | pushPathUpdate
  | pushAck | pushRawData | pushLoginSuccess | pushLoginFailed | pushLogData | pushTraceData
  deriving DecidableEq, Repr

/-- The structures with the sizes of their fields, in declaration order. -/
def responseArgs : List (ResponseArgs × List ℕ) :=
  [(.ok, [4]), (.err, [1]), (.contactsStart, [4]), (.contact, [contact.sizeof]),
    (.endOfContacts, [4]),
    (.selfInfo, [1, 1, 1, 32, 4, 4, 1, 1, 1, 1, 4, 4, 1, 1, maxPayloadSize - 32 - 25]),
    (.sent, [1, 4, 4]), (.contactMsgRecv, [6, 1, 1, 4, maxPayloadSize - 1 * 8 - 4]),
    (.channelMsgRecv, [1, 1, 1, 4, maxPayloadSize - 1 * 3 - 4]), (.currentTime, [4]),
    (.exportContact, [maxPayloadSize]), (.battAndStorage, [2, 4, 4]),
    (.deviceInfo, [1, 1, 1, 4, 12, 40, 20]), (.privateKey, [64]), (.channelInfo, [1, 32, 16]),
    (.signStart, [1, 4]), (.signature, [64]), (.customVars, [maxPayloadSize]),
    -- a type and the union of the three kinds of statistics
    (.stats, [1, max (2 + 4 + 2 + 1) (max (2 + 1 + 1 + 4 + 4) (4 + 4 + 4 + 4 + 4 + 4))]),
    (.pushAdvertisement, [32]), (.pushPathUpdate, [32]), (.pushAck, [4]), (.pushRawData, [4, 4, 4]),
    (.pushLoginSuccess, [1, 6]), (.pushLoginFailed, [1, 6]),
    -- the union of the raw data and its parts
    (.pushLogData, [max maxPayloadSize (1 + 1 + (maxPayloadSize - 2))]),
    (.pushTraceData, [1, 1, 4, 4, maxPayloadSize - 1 * 2 - 4 * 2])]

/-- The size of the argument union. -/
def responseArgsSize : ℕ := (responseArgs.map fun entry => entry.2.sum).foldr max 0

/-- The union is as large as a whole payload. -/
theorem responseArgsSize_eq : responseArgsSize = 169 := by decide

/-- `companion_response_packet_t`: the code, the bytes of the argument union, and the three bytes
that fill the structure up to a multiple of four. -/
structure ResponsePacket where
  response : UInt32
  args : Vector UInt8 responseArgsSize
  padding : Vector UInt8 3

/-- The memory from `packet->args` on. -/
def ResponsePacket.argsMemory (packet : ResponsePacket) : Memory :=
  view (packet.args ++ packet.padding)

/-! ## The writer -/

/-- The start byte of a response, `'>'`. -/
def responseStartByte : UInt8 := 62

/-- The writer under way: the output, `position`, and the indices stored to so far. -/
structure WriterState where
  outFramedData : Memory
  position : UInt16
  stores : List ℕ

namespace WriterState

/-- A store of some bytes to `out_framed_data[position]`. -/
def storeBytes (s : WriterState) (bytes : List UInt8) : WriterState :=
  { s with
    outFramedData := store s.outFramedData s.position.toNat bytes
    stores := s.stores ++ List.range' s.position.toNat bytes.length }

/-- `position += n;` -/
def advance (s : WriterState) (n : UInt16) : WriterState := { s with position := s.position + n }

/-- `out_framed_data[position] = b; position++;` -/
def putByte (s : WriterState) (b : UInt8) : WriterState := (s.storeBytes [b]).advance 1

end WriterState

/-- What a call of the writer leaves behind. -/
structure FramedResponse where
  outFramedData : Memory
  outFramedDataLength : ℕ
  stores : List ℕ

/-- `mc_companion_write_serial_response`. The size of the output buffer is not looked at. -/
def mcCompanionWriteSerialResponse (packet : ResponsePacket) (argsLength : UInt16)
    (_outputBufferSize : ℕ) (outFramedData : Memory) : FramedResponse :=
  let packetLength := argsLength + 1
  let packetType := packet.response.toUInt8
  let packetData := packet.argsMemory
  let s : WriterState := ⟨outFramedData, 0, []⟩
  let s := s.putByte responseStartByte
  let s := s.putByte ((packetLength >>> 0) &&& 0xFF).toUInt8
  let s := s.putByte ((packetLength >>> 8) &&& 0xFF).toUInt8
  let s := s.putByte packetType
  -- the type byte is counted, though it has been stored already
  let s := if 0 < packetLength then s.storeBytes (slice packetData 0 packetLength.toNat) else s
  let s := s.advance packetLength
  ⟨s.outFramedData, toSizeT (s.position.toNat - 1), s.stores⟩

/-! ## What is written -/

namespace WriterState

/-- The writer has written exactly the given bytes, and its position is behind them. -/
structure Wrote (s : WriterState) (bytes : List UInt8) : Prop where
  out : slice s.outFramedData 0 bytes.length = bytes
  atEnd : s.position.toNat = bytes.length
  stores : s.stores = List.range bytes.length

/-- Storing bytes at the position and moving it behind them appends them to what was written. -/
theorem Wrote.append {s : WriterState} {bytes src : List UInt8} (h : s.Wrote bytes) {n : UInt16}
    (hn : n.toNat = src.length) (hlt : bytes.length + src.length < 65536) :
    ((s.storeBytes src).advance n).Wrote (bytes ++ src) := by
  refine ⟨?_, ?_, ?_⟩
  · show slice (store s.outFramedData s.position.toNat src) 0 (bytes ++ src).length = bytes ++ src
    have happend := slice_store_append s.outFramedData 0 bytes.length src
    rwa [Nat.zero_add, h.out, ← List.length_append, ← h.atEnd] at happend
  · show (s.position + n).toNat = (bytes ++ src).length
    rw [UInt16.toNat_add, h.atEnd, hn, List.length_append, Nat.mod_eq_of_lt hlt]
  · show s.stores ++ List.range' s.position.toNat src.length = List.range (bytes ++ src).length
    have happend := List.range'_append_1 (s := 0) (m := bytes.length) (n := src.length)
    rw [Nat.zero_add] at happend
    rw [h.stores, h.atEnd, List.length_append, List.range_eq_range', List.range_eq_range', happend]

/-- Nothing has been written at the start. -/
theorem wrote_nil (out : Memory) : (⟨out, 0, []⟩ : WriterState).Wrote [] := ⟨rfl, rfl, rfl⟩

/-- Putting a byte appends it. -/
theorem Wrote.putByte {s : WriterState} {bytes : List UInt8} (h : s.Wrote bytes) (b : UInt8)
    (hlt : bytes.length + 1 < 65536) : (s.putByte b).Wrote (bytes ++ [b]) :=
  h.append rfl hlt

end WriterState

/-- What is written in front of the arguments: start byte, length, type. -/
def responseHeader (packet : ResponsePacket) (argsLength : UInt16) : List UInt8 :=
  [responseStartByte, (((argsLength + 1) >>> 0) &&& 0xFF).toUInt8,
    (((argsLength + 1) >>> 8) &&& 0xFF).toUInt8, packet.response.toUInt8]

/-- **What a call writes**: the header and one byte more than the arguments have. The length it
reports is that of the header and the arguments. -/
theorem response_wrote (packet : ResponsePacket) {argsLength : UInt16}
    (h : argsLength.toNat ≤ responseArgsSize) (outputBufferSize : ℕ) (out : Memory) :
    ∃ r, mcCompanionWriteSerialResponse packet argsLength outputBufferSize out = r ∧
      slice r.outFramedData 0 (argsLength.toNat + 5) =
        responseHeader packet argsLength ++ slice packet.argsMemory 0 (argsLength.toNat + 1) ∧
      r.outFramedDataLength = argsLength.toNat + 4 ∧
      r.stores = List.range (argsLength.toNat + 5) := by
  rw [responseArgsSize_eq] at h
  have hlength : (argsLength + 1).toNat = argsLength.toNat + 1 := by
    simp only [UInt16.toNat_add, UInt16.reduceToNat]
    omega
  have hpos : 0 < argsLength + 1 := by
    rw [UInt16.lt_iff_toNat_lt, hlength]
    exact Nat.succ_pos _
  have hstart := (WriterState.wrote_nil out).putByte responseStartByte (by decide)
  have hlow := hstart.putByte (((argsLength + 1) >>> 0) &&& 0xFF).toUInt8 (by decide)
  have hhigh := hlow.putByte (((argsLength + 1) >>> 8) &&& 0xFF).toUInt8 (by simp)
  have htype := hhigh.putByte packet.response.toUInt8 (by simp)
  -- the copy and the position both take the length that counts the type byte
  have hcopy : (argsLength + 1).toNat = (slice packet.argsMemory 0 (argsLength + 1).toNat).length :=
    (length_slice ..).symm
  have hframe := htype.append hcopy (by rw [← hcopy, hlength]; simp; omega)
  have hbytes : responseHeader packet argsLength ++ slice packet.argsMemory 0 (argsLength + 1).toNat
      = ((([] ++ [responseStartByte]) ++ [(((argsLength + 1) >>> 0) &&& 0xFF).toUInt8]) ++
        [(((argsLength + 1) >>> 8) &&& 0xFF).toUInt8] ++ [packet.response.toUInt8]) ++
        slice packet.argsMemory 0 (argsLength + 1).toNat := rfl
  rw [← hbytes, hlength] at hframe
  have hcount : (responseHeader packet argsLength ++
      slice packet.argsMemory 0 (argsLength.toNat + 1)).length = argsLength.toNat + 5 := by
    rw [List.length_append, length_slice]
    simp only [responseHeader, List.length_cons, List.length_nil]
    omega
  refine ⟨_, rfl, ?_⟩
  simp only [mcCompanionWriteSerialResponse, if_pos hpos, hlength]
  refine ⟨?_, ?_, ?_⟩
  · rw [← hcount]
    exact hframe.out
  · rw [hframe.atEnd, hcount, toSizeT]
    omega
  · rw [← hcount]
    exact hframe.stores

/-! ## Bounds -/

/-- Every store of a call is inside the output buffer, and inside the frame it reports. -/
def FramedResponse.StaysInside (r : FramedResponse) (outputBufferSize : ℕ) : Prop :=
  ∀ i ∈ r.stores, i < outputBufferSize ∧ i < r.outFramedDataLength

/-- **No call stays inside its frame.** Whatever the packet, the length of its arguments and the
output buffer are, the index right behind the reported frame is stored to, and is the only one from
there on. The output buffer is overrun exactly when it does not have that one byte more. -/
theorem response_not_inside (packet : ResponsePacket) {argsLength : UInt16}
    (h : argsLength.toNat ≤ responseArgsSize) (outputBufferSize : ℕ) (out : Memory) :
    ∃ r, mcCompanionWriteSerialResponse packet argsLength outputBufferSize out = r ∧
      ¬ r.StaysInside outputBufferSize ∧
      (∀ i, i ∈ r.stores ∧ r.outFramedDataLength ≤ i ↔ i = argsLength.toNat + 4) ∧
      ((∀ i ∈ r.stores, i < outputBufferSize) ↔ argsLength.toNat + 5 ≤ outputBufferSize) := by
  obtain ⟨r, hr, -, hreported, hstores⟩ := response_wrote packet h outputBufferSize out
  refine ⟨r, hr, ?_, ?_, ?_⟩
  · intro hinside
    have hlast : argsLength.toNat + 4 ∈ r.stores := by
      rw [hstores, List.mem_range]
      omega
    obtain ⟨-, hlt⟩ := hinside _ hlast
    omega
  · intro i
    rw [hstores, hreported, List.mem_range]
    omega
  · rw [hstores]
    constructor
    · intro hall
      exact hall (argsLength.toNat + 4) (List.mem_range.mpr (by omega))
    · intro hle i hi
      rw [List.mem_range] at hi
      omega

/-- A packet of zeros. -/
def ResponsePacket.zero : ResponsePacket :=
  ⟨0, Vector.replicate responseArgsSize 0, Vector.replicate 3 0⟩

/-- A frame that fills a buffer of 172 bytes. -/
theorem response_not_inside_fullFrame :
    ∃ r, mcCompanionWriteSerialResponse ResponsePacket.zero 168 172 0 = r ∧
      ¬ r.StaysInside 172 ∧
      (∀ i, i ∈ r.stores ∧ r.outFramedDataLength ≤ i ↔ i = (168 : UInt16).toNat + 4) ∧
      ((∀ i ∈ r.stores, i < 172) ↔ (168 : UInt16).toNat + 5 ≤ 172) :=
  response_not_inside ResponsePacket.zero (by decide) 172 0

/-- With 168 bytes of arguments the reported frame is as long as the buffer of 172 bytes, and index
172 is stored to. -/
theorem not_response_inside_fullFrame :
    ¬ ∀ packet argsLength, argsLength.toNat ≤ responseArgsSize → ∀ outputBufferSize out,
      (mcCompanionWriteSerialResponse packet argsLength outputBufferSize out).StaysInside
        outputBufferSize := by
  intro h
  have hlength : (168 : UInt16).toNat ≤ responseArgsSize := by decide
  have hinside := h ResponsePacket.zero 168 hlength 172 0
  obtain ⟨r, hr, -, -, hstores⟩ := response_wrote ResponsePacket.zero hlength 172 0
  rw [hr] at hinside
  obtain ⟨hlt, -⟩ := hinside 172 (by rw [hstores]; decide)
  omega

end MeshcoreC
