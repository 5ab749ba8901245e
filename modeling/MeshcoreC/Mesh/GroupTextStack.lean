import MeshcoreC.Mesh.GroupText
import MeshcoreC.Mesh.PacketReencoding

/-! # A group text through both codecs

A group text is the payload of a packet: it is encoded into a payload, which is placed in a message,
which is encoded into a packet. The inner codec has no check of its own, and needs none here: what
the outer one hands over fits.

* **`Message.withPayload`** — the placing.
* **`groupText_survives_stack`** — both directions, over routes without transport codes. -/

namespace MeshcoreC.Mesh

open Buffers Wire

/-- `MESHCORE_PAYLOAD_TYPE_GRP_TXT`. -/
def payloadTypeGrpTxt : UInt32 := 5

/-- A payload written over `message->payload`, with its size in `message->payload_length`. -/
def Message.withPayload (m : Message) (payload : Memory) (length : UInt8) : Message :=
  { m with
    payload := Vector.ofFn fun i => payload i
    payloadLength := length }

/-- The group text is encoded, placed in the message and encoded again, whatever the buffers held
before, and the packet has the given bytes. -/
def Sends (g : GroupText) (m : Message) (packet : List UInt8) : Prop :=
  ∀ mem, ∃ (payload : Memory) (length : UInt8), (meshcoreGrpTxtSerialize g (some mem)).code = 0 ∧
    (meshcoreGrpTxtSerialize g (some mem)).target = some ⟨payload, some length⟩ ∧
    Writes (meshcoreSerialize (m.withPayload payload length)) maxTransUnit packet

/-- What a placed payload adds to the packet. -/
theorem wire_withPayload {m : Message} {payload : Memory} {length : UInt8}
    (h : length.toNat ≤ 184) :
    (m.withPayload payload length).wire =
      [m.headerByte] ++ (if HasTransportCodes m.route then [0, 0] else []) ++ [m.pathLength] ++
        slice (view m.path) 0 m.pathLength.toNat ++ slice payload 0 length.toNat := by
  have hplaced : slice (view (m.withPayload payload length).payload) 0 length.toNat
      = slice payload 0 length.toNat := slice_view_ofFn payload h
  rw [Message.wire]
  show _ ++ slice (view (m.withPayload payload length).payload) 0 length.toNat = _
  rw [hplaced]
  rfl

/-- Sending a group text puts its bytes behind the header and the path of the message. -/
theorem sends_of_le {g : GroupText} {m : Message} (hdata : g.dataLength.toNat ≤ 181)
    (hpath : m.pathLength.toNat ≤ 64) :
    Sends g m ([m.headerByte] ++ (if HasTransportCodes m.route then [0, 0] else []) ++
      [m.pathLength] ++ slice (view m.path) 0 m.pathLength.toNat ++ g.wire) := by
  intro mem
  obtain ⟨payload, length, hcode, htarget, hlength, hfront⟩ :=
    (writes_groupText hdata).front (g.length_wire_le hdata) mem
  refine ⟨payload, length, hcode, htarget, ?_⟩
  have hle : length.toNat ≤ 184 := hlength.trans_le (g.length_wire_le hdata)
  rw [← hfront, ← wire_withPayload hle]
  exact writes_message hpath hle

/-- What was sent is received: the packet yields a message with the same header and path, and its
payload yields the same group text. -/
theorem receives_sent {g : GroupText} {m : Message} (hdata : g.dataLength.toNat ≤ 181)
    (htype : m.type = payloadTypeGrpTxt) (hroute : WithoutCodes m.route)
    (hversion : m.version.toNat < 4) (hpath : m.pathLength.toNat ≤ 64) {data : Memory}
    {size : UInt8} (h : slice data 0 size.toNat = [m.headerByte] ++
      (if HasTransportCodes m.route then [0, 0] else []) ++ [m.pathLength] ++
      slice (view m.path) 0 m.pathLength.toNat ++ g.wire) :
    ∃ m' g', Yields (meshcoreDeserialize (some data) size) m' ∧
      Yields (meshcoreGrpTxtDeserialize (some (view m'.payload)) m'.payloadLength) g' ∧
      m'.type = m.type ∧ m'.route = m.route ∧ m'.version = m.version ∧
      m'.pathLength = m.pathLength ∧
      (∀ i < m.pathLength.toNat, view m'.path i = view m.path i) ∧ SameGroupText g g' := by
  -- a message whose payload is the group text, and the packet it is encoded to
  obtain ⟨payload, length, -, -, hlength, hfront⟩ :=
    (writes_groupText hdata).front (g.length_wire_le hdata) fun _ => 0
  have hle : length.toNat ≤ 184 := hlength.trans_le (g.length_wire_le hdata)
  have hvalid : (m.withPayload payload length).Valid := by
    refine ⟨?_, ?_, hversion, hpath, hle⟩
    · exact hroute.elim (fun hr => ⟨.flood, hr⟩) (fun hr => ⟨.direct, hr⟩)
    · show m.type.toNat < 16
      rw [htype]
      decide
  rw [← hfront, ← wire_withPayload hle, hvalid.wire_eq] at h
  have hsame : SameMessage (m.withPayload payload length)
      ((m.withPayload payload length).packet hvalid).message :=
    hvalid.sameMessage_packet_iff.mpr fun hcodes => absurd hcodes hroute.not_hasTransportCodes
  have hpayload : slice (view ((m.withPayload payload length).packet hvalid).message.payload) 0
      length.toNat = g.wire := by
    rw [← hfront, ← slice_view_ofFn payload hle]
    apply slice_congr
    intro i _ hi
    exact hsame.payload i (by rwa [Nat.zero_add] at hi)
  refine ⟨_, _, ?_, yields_groupText _ _, hsame.type, hsame.route, hsame.version,
    hsame.pathLength, hsame.path, ?_⟩
  · intro old
    obtain ⟨hiff, hmessage⟩ := meshcoreDeserialize_packet_iff data size old
    exact ⟨hiff.mpr ⟨_, h⟩, hmessage _ h⟩
  · refine sameGroupText_decoded hdata ?_
    rw [hsame.payloadLength]
    exact hpayload

/-- What was received is sent: the payload of the packet yields a group text, and sending that with
the decoded message gives the packet back. -/
theorem sends_received {data : Memory} {size : UInt8} {old m : Message}
    (hcode : (meshcoreDeserialize (some data) size (some old)).code = 0)
    (htarget : (meshcoreDeserialize (some data) size (some old)).target = some m)
    (hroute : WithoutCodes m.route) (hlength : 3 ≤ m.payloadLength.toNat) :
    ∃ g, Yields (meshcoreGrpTxtDeserialize (some (view m.payload)) m.payloadLength) g ∧
      Sends g m (slice data 0 size.toNat) := by
  obtain ⟨hiff, hmessage⟩ := meshcoreDeserialize_packet_iff data size old
  obtain ⟨p, hp⟩ := hiff.mp hcode
  obtain rfl := Option.some.inj ((hmessage p hp).symm.trans htarget)
  have hvalid := p.valid_message
  have hbounds : 3 ≤ p.message.payloadLength.toNat ∧ p.message.payloadLength.toNat ≤ 184 :=
    ⟨hlength, hvalid.payloadLength⟩
  refine ⟨_, yields_groupText _ _, ?_⟩
  have hdata : (decodedGroupText (view p.message.payload) p.message.payloadLength).dataLength.toNat
      ≤ 181 := by
    show (p.message.payloadLength - 3).toNat ≤ 181
    rw [toNat_sub_three hbounds.1]
    omega
  have hsends := sends_of_le hdata hvalid.pathLength
  rwa [wire_decodedGroupText _ hbounds, ← Message.wire,
    p.wire_message hroute.not_hasTransportCodes, ← hp] at hsends

/-- **A group text survives the whole stack.** Every group text with at most 181 bytes of data, sent
with every route without transport codes, every version below 4 and every path of at most 64 bytes,
is received unchanged; and every packet with such a route and at least 3 bytes of payload that is
received as a group text is sent again byte for byte. -/
theorem groupText_survives_stack :
    (∀ (g : GroupText) (m : Message), g.dataLength.toNat ≤ 181 → m.type = payloadTypeGrpTxt →
      WithoutCodes m.route → m.version.toNat < 4 → m.pathLength.toNat ≤ 64 →
      ∃ packet, Sends g m packet ∧
        ∀ (data : Memory) (size : UInt8), slice data 0 size.toNat = packet →
          ∃ m' g', Yields (meshcoreDeserialize (some data) size) m' ∧
            Yields (meshcoreGrpTxtDeserialize (some (view m'.payload)) m'.payloadLength) g' ∧
            m'.type = m.type ∧ m'.route = m.route ∧ m'.version = m.version ∧
            m'.pathLength = m.pathLength ∧
            (∀ i < m.pathLength.toNat, view m'.path i = view m.path i) ∧ SameGroupText g g') ∧
    ∀ (data : Memory) (size : UInt8) (old m : Message),
      (meshcoreDeserialize (some data) size (some old)).code = 0 →
      (meshcoreDeserialize (some data) size (some old)).target = some m →
      m.type = payloadTypeGrpTxt → WithoutCodes m.route → 3 ≤ m.payloadLength.toNat →
      ∃ g, Yields (meshcoreGrpTxtDeserialize (some (view m.payload)) m.payloadLength) g ∧
        Sends g m (slice data 0 size.toNat) := by
  constructor
  · intro g m hdata htype hroute hversion hpath
    refine ⟨_, sends_of_le hdata hpath, ?_⟩
    intro data size hpacket
    exact receives_sent hdata htype hroute hversion hpath hpacket
  · intro data size old m hcode htarget _ hroute hlength
    exact sends_received hcode htarget hroute hlength

/-- A flooded packet with a group text, after one hop. -/
def hopPacket : Packet where
  header := 0x15
  codes := []
  path := [9]
  payload := [0x11, 0xAB, 0xCD, 7]
  length_codes := rfl
  length_path := by decide
  length_payload := by decide

/-- The group text in it. -/
def hopGroupText : GroupText :=
  { GroupText.zero with
    channelHash := 0x11
    mac := #v[0xAB, 0xCD]
    dataLength := 1
    data := blit (Vector.replicate groupDataCapacity 0) [7] }

/-- Both directions, for that packet. -/
theorem groupText_survives_stack_hop :
    (∃ packet, Sends hopGroupText hopPacket.message packet ∧
      ∀ (data : Memory) (size : UInt8), slice data 0 size.toNat = packet →
        ∃ m' g', Yields (meshcoreDeserialize (some data) size) m' ∧
          Yields (meshcoreGrpTxtDeserialize (some (view m'.payload)) m'.payloadLength) g' ∧
          m'.type = payloadTypeGrpTxt ∧ m'.pathLength = 1 ∧ view m'.path 0 = 9 ∧
          SameGroupText hopGroupText g') ∧
    ∃ g, Yields (meshcoreGrpTxtDeserialize (some (view hopPacket.message.payload)) 4) g ∧
      Sends g hopPacket.message [0x15, 1, 9, 0x11, 0xAB, 0xCD, 7] := by
  obtain ⟨hsend, hreceive⟩ := groupText_survives_stack
  have htype : hopPacket.message.type = payloadTypeGrpTxt := by decide
  have hroute : WithoutCodes hopPacket.message.route := .inl (by decide)
  constructor
  · obtain ⟨packet, hsends, hreceived⟩ := hsend hopGroupText hopPacket.message (by decide) htype
      hroute (by decide) (by decide)
    refine ⟨packet, hsends, ?_⟩
    intro data size hpacket
    obtain ⟨m', g', hm', hg', htype', -, -, hlength, hpath, hsame⟩ := hreceived data size hpacket
    exact ⟨m', g', hm', hg', htype'.trans htype, hlength, hpath 0 (by decide), hsame⟩
  · have hwire : slice (view #v[0x15, 1, 9, 0x11, 0xAB, 0xCD, 7]) 0 (7 : UInt8).toNat
        = hopPacket.wire := rfl
    obtain ⟨hiff, hmessage⟩ := meshcoreDeserialize_packet_iff
      (view #v[0x15, 1, 9, 0x11, 0xAB, 0xCD, 7]) 7 Message.zero
    exact hreceive _ 7 Message.zero hopPacket.message (hiff.mpr ⟨_, hwire⟩) (hmessage _ hwire) htype
      hroute (by decide)

end MeshcoreC.Mesh
