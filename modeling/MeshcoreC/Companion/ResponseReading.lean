import MeshcoreC.Companion.BufferDiscipline
import MeshcoreC.Companion.ResponseWriter

/-! # Responses and the reader

The responses that `mc_companion_write_serial_response` writes have the framing of commands, but for
the start byte. With that replaced, the reader takes them apart again.

* **`response_framed`** — a response is the frame of its code and its arguments, with another start
  byte.
* **`parsedBodies_of_readsChunks`** — between two idle states, what is handed to the parser are the
  bodies of the stream.
* **`response_read_back`** — the two together, for every way to cut the stream. -/

namespace MeshcoreC

open Buffers Streams Framing Wire

/-! ## The frame of a response -/

/-- The low byte of a length. -/
theorem lowByte_eq (n : UInt16) : ((n >>> 0) &&& 0xFF).toUInt8 = UInt8.ofNat n.toNat := by
  apply UInt8.toNat_inj.mp
  rw [UInt16.toNat_toUInt8, UInt16.toNat_and, UInt16.toNat_shiftRight, UInt8.toNat_ofNat']
  show (n.toNat >>> 0 &&& 2 ^ 8 - 1) % 2 ^ 8 = _
  rw [shiftRight_and_mask]
  omega

/-- The high byte of a length. -/
theorem highByte_eq (n : UInt16) :
    ((n >>> 8) &&& 0xFF).toUInt8 = UInt8.ofNat (n.toNat / 256) := by
  apply UInt8.toNat_inj.mp
  rw [UInt16.toNat_toUInt8, UInt16.toNat_and, UInt16.toNat_shiftRight, UInt8.toNat_ofNat']
  show (n.toNat >>> 8 &&& 2 ^ 8 - 1) % 2 ^ 8 = _
  rw [shiftRight_and_mask]
  omega

/-- What a response carries: its code and its arguments. -/
def ResponsePacket.content (packet : ResponsePacket) (argsLength : UInt16) : List UInt8 :=
  packet.response.toUInt8 :: slice (view packet.args) 0 argsLength.toNat

/-- The type byte and the arguments. -/
theorem ResponsePacket.length_content (packet : ResponsePacket) (argsLength : UInt16) :
    (packet.content argsLength).length = argsLength.toNat + 1 := by
  rw [content, List.length_cons, length_slice]

/-- **A response is framed like a command**: the bytes up to the reported length are the frame of
its code and its arguments, with the start byte of responses. -/
theorem response_framed (packet : ResponsePacket) {argsLength : UInt16}
    (h : argsLength.toNat ≤ responseArgsSize) (outputBufferSize : ℕ) (out : Memory) :
    ∃ r, mcCompanionWriteSerialResponse packet argsLength outputBufferSize out = r ∧
      slice r.outFramedData 0 r.outFramedDataLength
        = responseStartByte :: (commandFrame (packet.content argsLength)).tail := by
  obtain ⟨r, hr, hwritten, hreported, -⟩ := response_wrote packet h outputBufferSize out
  refine ⟨r, hr, ?_⟩
  have hlength : (argsLength + 1).toNat = argsLength.toNat + 1 := by
    rw [responseArgsSize_eq] at h
    simp only [UInt16.toNat_add, UInt16.reduceToNat]
    omega
  -- one byte more is written than is reported, on both sides the last one
  have hfive : argsLength.toNat + 5 = r.outFramedDataLength + 1 := by omega
  rw [hfive, slice_add, slice_add _ _ argsLength.toNat 1, ← List.append_assoc] at hwritten
  obtain ⟨hfront, -⟩ := List.append_inj' hwritten rfl
  have hargs : slice packet.argsMemory 0 argsLength.toNat
      = slice (view packet.args) 0 argsLength.toNat :=
    slice_view_append packet.args packet.padding h
  rw [hfront, hargs, responseHeader, lowByte_eq, highByte_eq, hlength, commandFrame,
    packet.length_content]
  rfl

/-! ## Reading it back -/

/-- **Between two idle states, the parser is handed the bodies of the stream.** -/
theorem parsedBodies_of_readsChunks {s s' : ReaderState} (hidle : s.rxPosition = 0)
    (hidle' : s'.rxPosition = 0) {chunks : List (List UInt8)} {events : List ReaderEvent}
    (h : ReadsChunks s chunks s' events) {segs : List (Segment UInt8)}
    (hsegs : ∀ g ∈ segs, g.Valid companionFormat)
    (hchunks : chunks.flatten = segmentBytes companionFormat segs) :
    parsedBodies events = segmentBodies segs := by
  obtain ⟨-, hdisciplined⟩ :=
    disciplined_readsChunks h (ReaderState.wellFormed_of_idle hidle) (disciplined_of_idle hidle)
  have hreading := hdisciplined.reading
  rw [s'.heldBytes_of_idle hidle'] at hreading
  refine hreading.unique ⟨segs, hsegs, rfl, ?_⟩
  rw [List.nil_append, List.append_nil, hchunks]

/-- **What is written is read back.** For every response whose code fits a byte and every number of
arguments from 0 to 168, the bytes of the response begin with the start byte of responses. With that
of commands in its place, and in whatever chunks they are fed to an idle receiver, they dispatch one
frame, whose body is the code and the arguments, and leave the receiver idle. -/
theorem response_read_back (packet : ResponsePacket) (hcode : packet.response.toNat < 256)
    {argsLength : UInt16} (h : argsLength.toNat ≤ 168) (outputBufferSize : ℕ) (out : Memory) :
    ∃ r rest code, mcCompanionWriteSerialResponse packet argsLength outputBufferSize out = r ∧
      slice r.outFramedData 0 r.outFramedDataLength = responseStartByte :: rest ∧
      code.toNat = packet.response.toNat ∧
      ∀ s : ReaderState, s.rxPosition = 0 → ∀ chunks, chunks.flatten = startByte :: rest →
        ∃ s' events, ReadsChunks s chunks s' events ∧ s'.rxPosition = 0 ∧
          parsedBodies events = [code :: slice (view packet.args) 0 argsLength.toNat] ∧
          (callbacks events).length = 1 := by
  have hfits : argsLength.toNat ≤ responseArgsSize := by
    rw [responseArgsSize_eq]
    omega
  obtain ⟨r, hr, hframe⟩ := response_framed packet hfits outputBufferSize out
  refine ⟨r, _, packet.response.toUInt8, hr, hframe, ?_, ?_⟩
  · rw [UInt32.toNat_toUInt8, Nat.mod_eq_of_lt hcode]
  · intro s hidle chunks hchunks
    have hlength := packet.length_content argsLength
    have hne : packet.content argsLength ≠ [] := List.cons_ne_nil _ _
    obtain ⟨segs, s', events, hsegs, hbytes, hbodies, hread, hidle', hcallbacks⟩ :=
      reads_commandFrame hidle hne (by omega)
    have hflatten : chunks.flatten = commandFrame (packet.content argsLength) := hchunks
    have hreads : ReadsChunks s chunks s' events := by
      rw [readsChunks_iff_runChunks, Transducer.runChunks_eq_run_flatten, hflatten]
      exact reads_iff_run.mp hread
    refine ⟨s', events, hreads, hidle', ?_, ?_⟩
    · rw [parsedBodies_of_readsChunks hidle hidle' hreads hsegs (hflatten.trans hbytes.symm),
        hbodies]
      rfl
    · rw [hcallbacks]
      rfl

/-- The response with the largest number of arguments, which fills the frame. -/
theorem response_read_back_fullFrame :
    ∃ r rest code, mcCompanionWriteSerialResponse ResponsePacket.zero 168 172 0 = r ∧
      slice r.outFramedData 0 r.outFramedDataLength = responseStartByte :: rest ∧
      code.toNat = ResponsePacket.zero.response.toNat ∧
      ∀ s : ReaderState, s.rxPosition = 0 → ∀ chunks, chunks.flatten = startByte :: rest →
        ∃ s' events, ReadsChunks s chunks s' events ∧ s'.rxPosition = 0 ∧
          parsedBodies events
            = [code :: slice (view ResponsePacket.zero.args) 0 (168 : UInt16).toNat] ∧
          (callbacks events).length = 1 :=
  response_read_back ResponsePacket.zero (by decide) (by decide) 172 0

end MeshcoreC
