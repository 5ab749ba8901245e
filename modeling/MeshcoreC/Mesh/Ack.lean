import MeshcoreC.Mesh.Packet

/-! # The acknowledgement codec

`payload/ack.c`: an acknowledgement is a checksum. The decoder reads its four bytes from payloads of
every size (`yields_ack`); `ack_roundTrips` says that these four bytes are all there is to it. -/

namespace MeshcoreC.Mesh

open Buffers EarlyReturn Wire

/-- `meshcore_ack_t`. -/
@[ext]
structure Ack where
  crc : UInt32
  deriving DecidableEq, Repr

/-- An acknowledgement cleared by `memset`. -/
def Ack.zero : Ack := ⟨0⟩

/-- `meshcore_ack_serialize`, behind its null check. -/
def ackSerializeBody (ack : Ack) : Prog (WireState OutBuffer) Unit := do
  clear maxPayloadSize
  let p ← position
  put p.toNat (leBytes 4 ack.crc.toNat)
  advance 4
  finish

/-- `meshcore_ack_serialize`. -/
def meshcoreAckSerialize (ack : Ack) (outPayload : Option Memory) : Outcome OutBuffer :=
  call (ackSerializeBody ack) (outPayload.map fun mem => ⟨mem, none⟩)

/-- `meshcore_ack_deserialize`, behind its null checks. -/
def ackDeserializeBody (data : Memory) : Prog (WireState Ack) Unit := do
  assign fun _ => Ack.zero
  let p ← position
  copyIn data p.toNat 4 4 fun bytes a => { a with crc := UInt32.ofNat (ofLeBytes bytes) }
  advance 4

/-- `meshcore_ack_deserialize`. The size is not looked at. -/
def meshcoreAckDeserialize (data : Option Memory) (_size : UInt8) (outAck : Option Ack) :
    Outcome Ack :=
  match data with
  | none => ⟨-1, outAck, []⟩
  | some data => call (ackDeserializeBody data) outAck

/-- The acknowledgement in the first four bytes of a payload. -/
def decodedAck (data : Memory) : Ack := ⟨UInt32.ofNat (ofLeBytes (slice data 0 4))⟩

/-- **What the encoder writes.** -/
theorem writes_ack (ack : Ack) :
    Writes (meshcoreAckSerialize ack) maxPayloadSize (leBytes 4 ack.crc.toNat) := by
  apply writes_of_exec
  intro mem
  have h₀ := encodes_clear (s := ⟨0, ⟨mem, none⟩, []⟩) rfl maxPayloadSize
  obtain ⟨s, hrun, h, -⟩ := h₀.exec_put (length_leBytes 4 ack.crc.toNat) (by decide)
  refine ⟨s, ?_, h⟩
  rw [ackSerializeBody, exec_clear_bind, hrun]

/-- **What the decoder yields**, for every payload of every size. -/
theorem yields_ack (data : Memory) (size : UInt8) :
    Yields (meshcoreAckDeserialize (some data) size) (decodedAck data) := by
  apply yields_of_exec
  intro old
  rw [ackDeserializeBody]
  simp only [exec_assign_bind, exec_position_bind, exec_copyIn_bind, exec_advance]
  exact ⟨_, rfl, rfl⟩

/-- **Acknowledgements survive**: the four bytes the encoder reports are decoded, by whatever size,
to the same checksum. -/
theorem ack_roundTrips (ack : Ack) (mem : Memory) :
    ∃ (out : Memory) (size : UInt8), (meshcoreAckSerialize ack (some mem)).code = 0 ∧
      (meshcoreAckSerialize ack (some mem)).target = some ⟨out, some size⟩ ∧ size = 4 ∧
      ∀ (data : Memory) (size' : UInt8), slice data 0 4 = slice out 0 4 →
        Yields (meshcoreAckDeserialize (some data) size') ack := by
  have hfits : (leBytes 4 ack.crc.toNat).length ≤ maxPayloadSize := by
    rw [length_leBytes]
    decide
  obtain ⟨out, size, hcode, htarget, hsize, hfront⟩ := (writes_ack ack).front hfits mem
  rw [length_leBytes] at hsize
  rw [hsize] at hfront
  refine ⟨out, size, hcode, htarget, UInt8.toNat_inj.mp hsize, ?_⟩
  intro data size' hdata
  have hack : decodedAck data = ack := by
    rw [decodedAck, hdata, hfront, ofLeBytes_leBytes_of_lt ack.crc.toNat_lt, UInt32.ofNat_toNat]
  rw [← hack]
  exact yields_ack data size'

end MeshcoreC.Mesh
