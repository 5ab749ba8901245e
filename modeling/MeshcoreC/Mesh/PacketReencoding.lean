import MeshcoreC.Mesh.PacketRoundTrip

/-! # Encoding what was decoded

The header byte of a decoded packet is put together again from its three fields, and path and
payload have the lengths they came with.

* **`Packet.wire_message`** — the message of a packet without transport codes is encoded to the wire
  form of that packet.
* **`packet_reencodes`** — what the two functions make of a buffer, one after the other. -/

namespace MeshcoreC.Mesh

open Buffers Wire

/-- The route has no transport codes. -/
def WithoutCodes (route : UInt32) : Prop :=
  route = RouteType.flood.value ∨ route = RouteType.direct.value

/-- Neither of the two routes has transport codes. -/
theorem WithoutCodes.not_hasTransportCodes {route : UInt32} (h : WithoutCodes route) :
    ¬ HasTransportCodes route := by
  rcases h with rfl | rfl
  · decide
  · decide

namespace Packet

variable (p : Packet)

/-- The payload length is not truncated. -/
theorem toNat_payloadLength : (UInt8.ofNat p.payload.length).toNat = p.payload.length := by
  have hpayload := p.length_payload
  rw [UInt8.toNat_ofNat']
  omega

/-- The message of a packet is a valid one. -/
theorem valid_message : p.message.Valid := by
  have hlt := p.header.toNat_lt
  have hroute : p.message.route.toNat = p.header.toNat % 4 := toNat_route p.header
  have htype : p.message.type.toNat = p.header.toNat / 4 % 16 := toNat_type p.header
  have hversion : p.message.version.toNat = p.header.toNat / 64 := toNat_version p.header
  have hpath : p.message.pathLength.toNat = p.path.length := p.toNat_pathLength
  have hpayload : p.message.payloadLength.toNat = p.payload.length := p.toNat_payloadLength
  refine ⟨?_, by omega, by omega, hpath.trans_le p.length_path, hpayload.trans_le p.length_payload⟩
  have hcases : p.message.route.toNat = 0 ∨ p.message.route.toNat = 1 ∨
      p.message.route.toNat = 2 ∨ p.message.route.toNat = 3 := by omega
  rcases hcases with h | h | h | h
  · exact ⟨.transportFlood, UInt32.toNat_inj.mp h⟩
  · exact ⟨.flood, UInt32.toNat_inj.mp h⟩
  · exact ⟨.direct, UInt32.toNat_inj.mp h⟩
  · exact ⟨.transportDirect, UInt32.toNat_inj.mp h⟩

/-- **The header byte is put together again.** -/
theorem headerByte_message : p.message.headerByte = p.header := by
  have hlt := p.header.toNat_lt
  have hroute : p.message.route.toNat = p.header.toNat % 4 := toNat_route p.header
  have htype : p.message.type.toNat = p.header.toNat / 4 % 16 := toNat_type p.header
  have hversion : p.message.version.toNat = p.header.toNat / 64 := toNat_version p.header
  apply UInt8.toNat_inj.mp
  rw [p.valid_message.toNat_headerByte, hroute, htype, hversion]
  omega

/-- **Encoding undoes decoding**, where there are no transport codes. -/
theorem wire_message (h : ¬ HasTransportCodes p.message.route) : p.message.wire = p.wire := by
  have hheader : headerLength p.header = 1 :=
    (headerLength_eq p.header).resolve_right (mt (hasTransportCodes_iff p.header).mpr h)
  have hcodes : p.codes = [] := by
    have hlength := p.length_codes
    exact List.eq_nil_of_length_eq_zero (by omega)
  have hpath := slice_view_blit (Vector.replicate maxPathSize 0) p.length_path
  have hpayload := slice_view_blit (Vector.replicate maxPayloadSize 0) p.length_payload
  have hpathLength : p.message.pathLength.toNat = p.path.length := p.toNat_pathLength
  have hpayloadLength : p.message.payloadLength.toNat = p.payload.length := p.toNat_payloadLength
  rw [Message.wire, if_neg h, p.headerByte_message, hpathLength, hpayloadLength, wire, hcodes]
  show [p.header] ++ [] ++ [UInt8.ofNat p.path.length] ++
    slice (view (blit (Vector.replicate maxPathSize 0) p.path)) 0 p.path.length ++
    slice (view (blit (Vector.replicate maxPayloadSize 0) p.payload)) 0 p.payload.length = _
  rw [hpath, hpayload]
  simp

end Packet

/-- **Re-encoding a decoded packet gives it back.** For every buffer that the decoder accepts and
whose header has a route without transport codes, the encoder accepts the decoded message, reports
the same size and writes the same bytes, and leaves zeros behind them. -/
theorem packet_reencodes {data : Memory} {size : UInt8} {old : Message}
    (hcode : (meshcoreDeserialize (some data) size (some old)).code = 0)
    (hroute : WithoutCodes (((data 0).toUInt32 >>> headerRouteShift) &&& headerRouteMask)) :
    ∃ m, (meshcoreDeserialize (some data) size (some old)).target = some m ∧
      ∀ mem, ∃ out, (meshcoreSerialize m (some mem)).code = 0 ∧
        (meshcoreSerialize m (some mem)).target = some ⟨out, some size⟩ ∧
        (∀ i < size.toNat, out i = data i) ∧ ∀ i, size.toNat ≤ i → i ≤ 254 → out i = 0 := by
  obtain ⟨hiff, hmessage⟩ := meshcoreDeserialize_packet_iff data size old
  obtain ⟨p, hp⟩ := hiff.mp hcode
  have hlength : size.toNat = p.wire.length := by rw [← hp, length_slice]
  have hheader : data 0 = p.header := ((p.slice_eq_wire_iff hlength).mp hp).1
  rw [hheader] at hroute
  have hvalid := p.valid_message
  have hwrites := writes_message hvalid.pathLength hvalid.payloadLength
  rw [p.wire_message hroute.not_hasTransportCodes, ← hp] at hwrites
  refine ⟨p.message, hmessage p hp, ?_⟩
  intro mem
  obtain ⟨out, size', hcode', htarget, hsize, hholds⟩ := hwrites mem
  rw [length_slice] at hsize
  obtain rfl := UInt8.toNat_inj.mp hsize
  refine ⟨out, hcode', htarget, ?_, ?_⟩
  · intro i hi
    have hle : size'.toNat ≤ maxTransUnit := Nat.le_of_lt_succ size'.toNat_lt
    rw [hholds i (hi.trans_le hle), getElem?_slice, if_pos hi, Nat.zero_add]
    rfl
  · intro i hi hi'
    rw [hholds i (Nat.lt_succ_of_le hi'), getElem?_slice, if_neg (not_lt.mpr hi)]
    rfl

/-- A flooded group text over one hop, of version 1. -/
theorem packet_reencodes_flood :
    ∃ m, (meshcoreDeserialize (some (view #v[0x55, 1, 9, 7, 8])) 5 (some Message.zero)).target
        = some m ∧
      ∀ mem, ∃ out, (meshcoreSerialize m (some mem)).code = 0 ∧
        (meshcoreSerialize m (some mem)).target = some ⟨out, some 5⟩ ∧
        (∀ i < (5 : UInt8).toNat, out i = view #v[0x55, 1, 9, 7, 8] i) ∧
        ∀ i, (5 : UInt8).toNat ≤ i → i ≤ 254 → out i = 0 :=
  packet_reencodes (by decide) (.inl (by decide))

end MeshcoreC.Mesh
