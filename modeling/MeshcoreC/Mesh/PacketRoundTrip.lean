import MeshcoreC.Mesh.PacketGrammar

/-! # Decoding what was encoded

* **`writes_message`** — what the encoder puts into the buffer, for every message whose lengths it
  accepts.
* **`Message.packet`** — the packet the encoder makes of a valid message. Its transport codes are
  zero: `member_size(meshcore_line_header_t, transport_codes)` is the size of an array without
  elements, so none of their bytes are copied.
* **`roundTrips_iff`** — decoding gives a valid message back exactly when it has no transport codes
  to lose. -/

namespace MeshcoreC.Mesh

open Buffers EarlyReturn Wire

/-! ## The header byte -/

/-- The header byte of a message. -/
def Message.headerByte (m : Message) : UInt8 :=
  ((m.route &&& headerRouteMask) <<< headerRouteShift).toUInt8 +
    ((m.type &&& headerTypeMask) <<< headerTypeShift).toUInt8 +
    ((m.version.toUInt32 &&& headerVerMask) <<< headerVerShift).toUInt8

/-- The messages the format is for: the fields fit their bits, the lengths their arrays. -/
structure Message.Valid (m : Message) : Prop where
  route : ∃ r : RouteType, m.route = r.value
  type : m.type.toNat < 16
  version : m.version.toNat < 4
  pathLength : m.pathLength.toNat ≤ 64
  payloadLength : m.payloadLength.toNat ≤ 184

variable {m : Message}

/-- The route of a valid message fits two bits. -/
theorem Message.Valid.route_lt (h : m.Valid) : m.route.toNat < 4 := by
  obtain ⟨r, hr⟩ := h.route
  rw [hr]
  cases r with
  | transportFlood => decide
  | flood => decide
  | direct => decide
  | transportDirect => decide

/-- A bit field put into the header byte: masked, shifted, cut off at eight bits. -/
theorem toNat_headerField {x mask shift : UInt32} {k w : ℕ} (hmask : mask.toNat = 2 ^ w - 1)
    (hshift : shift.toNat = k) (hx : x.toNat < 2 ^ w) (hkw : k + w ≤ 8) :
    ((x &&& mask) <<< shift).toUInt8.toNat = x.toNat * 2 ^ k := by
  -- the shifted field still fits eight bits, so that nothing is cut off
  have hpow : x.toNat * 2 ^ k < 2 ^ 8 := by
    calc x.toNat * 2 ^ k < 2 ^ w * 2 ^ k := Nat.mul_lt_mul_of_pos_right hx (Nat.two_pow_pos k)
      _ = 2 ^ (k + w) := by rw [← pow_add, Nat.add_comm]
      _ ≤ 2 ^ 8 := Nat.pow_le_pow_right (by decide) hkw
  have hk : k % 32 = k := Nat.mod_eq_of_lt (by omega)
  rw [UInt32.toNat_toUInt8, UInt32.toNat_shiftLeft, UInt32.toNat_and, hmask, hshift, hk,
    Nat.and_two_pow_sub_one_eq_mod, Nat.mod_eq_of_lt hx, Nat.shiftLeft_eq]
  omega

/-- **The additions do not carry**: the header byte is the three fields side by side. -/
theorem Message.Valid.toNat_headerByte (h : m.Valid) :
    m.headerByte.toNat = m.route.toNat + 4 * m.type.toNat + 64 * m.version.toNat := by
  have hroute := h.route_lt
  have htype := h.type
  have hversion := h.version
  have hversion₃₂ : m.version.toUInt32.toNat < 2 ^ 2 := by
    rw [UInt8.toNat_toUInt32]
    exact hversion
  have hfield₀ := toNat_headerField (show headerRouteMask.toNat = 2 ^ 2 - 1 from rfl)
    (show headerRouteShift.toNat = 0 from rfl) hroute (by decide)
  have hfield₁ := toNat_headerField (show headerTypeMask.toNat = 2 ^ 4 - 1 from rfl)
    (show headerTypeShift.toNat = 2 from rfl) htype (by decide)
  have hfield₂ := toNat_headerField (show headerVerMask.toNat = 2 ^ 2 - 1 from rfl)
    (show headerVerShift.toNat = 6 from rfl) hversion₃₂ (by decide)
  rw [UInt8.toNat_toUInt32] at hfield₂
  rw [headerByte, UInt8.toNat_add, UInt8.toNat_add, hfield₀, hfield₁, hfield₂]
  omega

/-- The three fields are read back from the header byte. -/
theorem Message.Valid.headerMessage_headerByte (h : m.Valid) :
    (headerMessage m.headerByte).route = m.route ∧ (headerMessage m.headerByte).type = m.type ∧
      (headerMessage m.headerByte).version = m.version := by
  have hroute := h.route_lt
  have htype := h.type
  have hversion := h.version
  have hbyte := h.toNat_headerByte
  refine ⟨?_, ?_, ?_⟩
  · apply UInt32.toNat_inj.mp
    refine (toNat_route m.headerByte).trans ?_
    omega
  · apply UInt32.toNat_inj.mp
    refine (toNat_type m.headerByte).trans ?_
    omega
  · apply UInt8.toNat_inj.mp
    refine (toNat_version m.headerByte).trans ?_
    omega

/-! ## The encoder -/

/-- The bytes the encoder writes. -/
def Message.wire (m : Message) : List UInt8 :=
  [m.headerByte] ++ (if HasTransportCodes m.route then [0, 0] else []) ++ [m.pathLength] ++
    slice (view m.path) 0 m.pathLength.toNat ++ slice (view m.payload) 0 m.payloadLength.toNat

/-- The header byte is put together in place, from the three fields. -/
theorem encodes_putLineHeader (m : Message) {s : WireState OutBuffer} {cap : ℕ}
    (h : Encodes cap [] s) :
    ∃ s', (∀ k : Unit → Prog (WireState OutBuffer) Unit,
        exec (advance sizeofLineHeader >>= fun _ =>
          putLineHeader m s.position.toNat >>= k) s = exec (k ()) s') ∧
      Encodes cap [m.headerByte] s' ∧ s'.target.size = s.target.size := by
  have happend : Encodes cap ([] ++ [m.headerByte])
      ((s.put s.position.toNat [m.headerByte]).advance 1) := h.append rfl (by simp)
  apply Exists.intro
  constructor
  · intro k
    rw [exec_advance_bind, putLineHeader]
    simp only [bind_assoc, exec_put_bind, exec_current_bind]
    rfl
  · refine ⟨⟨?_, happend.atEnd⟩, rfl⟩
    have hmem := happend.holds
    -- three stores to one byte, each of which reads the one before
    show Holds (store (store (store s.target.mem s.position.toNat _) s.position.toNat _)
      s.position.toNat _) cap [m.headerByte]
    rw [store_store _ _ (le_refl 1), store_store _ _ (le_refl 1)]
    show Holds (store s.target.mem s.position.toNat
      [store (store s.target.mem s.position.toNat _) s.position.toNat
        [store s.target.mem s.position.toNat _ s.position.toNat + _] s.position.toNat + _]) cap _
    rw [store_singleton_self, store_singleton_self]
    exact hmem

/-- The block for the transport codes moves the position by two bytes, but copies none. -/
theorem encodes_transportCodes (m : Message) {s : WireState OutBuffer} {cap : ℕ}
    {bytes : List UInt8} (h : Encodes cap bytes s) (hlt : bytes.length + 2 < 256) :
    ∃ s', exec (whenever (HasTransportCodes m.route) do
        let p ← position
        put p.toNat (m.transportCodesBytes.take memberSizeTransportCodes)
        advance 2) s = (some (), s') ∧
      Encodes cap (bytes ++ if HasTransportCodes m.route then [0, 0] else []) s' ∧
      s'.target.size = s.target.size := by
  rw [exec_whenever]
  by_cases hroute : HasTransportCodes m.route
  · rw [if_pos hroute, if_pos hroute, exec_position_bind, exec_put_bind, exec_advance]
    exact ⟨_, rfl, h.skip hlt, rfl⟩
  · rw [if_neg hroute, if_neg hroute, List.append_nil]
    exact ⟨s, rfl, h, rfl⟩

/-- **What the encoder writes**, for every message whose lengths it accepts. -/
theorem writes_message (hpath : m.pathLength.toNat ≤ 64)
    (hpayload : m.payloadLength.toNat ≤ 184) :
    Writes (meshcoreSerialize m) maxTransUnit m.wire := by
  apply writes_of_exec
  intro mem
  have haccept : ¬ (maxPathSize < m.pathLength.toNat ∨ maxPayloadSize < m.payloadLength.toNat) := by
    unfold maxPathSize maxPayloadSize
    omega
  have hcodes : (if HasTransportCodes m.route then [(0 : UInt8), 0] else []).length ≤ 2 := by
    split_ifs
    · exact le_rfl
    · exact Nat.zero_le 2
  rw [serializeBody, exec_clear_bind, exec_rejectIf_bind_of_neg haccept, exec_position_bind]
  have h₀ := encodes_clear (s := ⟨0, ⟨mem, none⟩, []⟩) rfl maxTransUnit
  obtain ⟨s₁, hrun₁, h₁, -⟩ := encodes_putLineHeader m h₀
  obtain ⟨s₂, hrun₂, h₂, -⟩ := encodes_transportCodes m h₁ (by simp)
  obtain ⟨s₃, hrun₃, h₃, -⟩ := h₂.exec_put (show [m.pathLength].length = 1 from rfl)
    (by simp; omega)
  obtain ⟨s₄, hrun₄, h₄, -⟩ := h₃.exec_copyArray m.path (n := m.pathLength.toNat) (by simp; omega)
  obtain ⟨s₅, hrun₅, h₅, -⟩ :=
    h₄.exec_copyArray m.payload (n := m.payloadLength.toNat) (by simp; omega)
  refine ⟨s₅, ?_, h₅⟩
  rw [hrun₁, exec_bind_of_some hrun₂, hrun₃, hrun₄, hrun₅]

/-! ## The packet of a message -/

/-- The header of a valid message has room for transport codes exactly on the routes with codes. -/
theorem Message.Valid.headerLength_headerByte (h : m.Valid) :
    headerLength m.headerByte
      = 1 + (if HasTransportCodes m.route then [(0 : UInt8), 0] else []).length := by
  have hiff := hasTransportCodes_iff m.headerByte
  rw [h.headerMessage_headerByte.1] at hiff
  by_cases hroute : HasTransportCodes m.route
  · rw [if_pos hroute, hiff.mp hroute]
    rfl
  · rw [if_neg hroute, (headerLength_eq _).resolve_right (mt hiff.mpr hroute)]
    rfl

/-- The packet the encoder makes of a valid message. -/
def Message.packet (m : Message) (h : m.Valid) : Packet where
  header := m.headerByte
  codes := if HasTransportCodes m.route then [0, 0] else []
  path := slice (view m.path) 0 m.pathLength.toNat
  payload := slice (view m.payload) 0 m.payloadLength.toNat
  length_codes := h.headerLength_headerByte
  length_path := by rw [length_slice]; exact h.pathLength
  length_payload := by rw [length_slice]; exact h.payloadLength

/-- The encoder writes the wire form of that packet. -/
theorem Message.Valid.wire_eq (h : m.Valid) : m.wire = (m.packet h).wire := by
  have hlength : UInt8.ofNat (slice (view m.path) 0 m.pathLength.toNat).length = m.pathLength := by
    rw [length_slice, UInt8.ofNat_toNat]
  rw [Packet.wire]
  show _ = [m.headerByte] ++ (_ ++ ([UInt8.ofNat (slice (view m.path) 0 _).length] ++ _))
  rw [hlength, Message.wire]
  simp only [List.append_assoc]
  rfl

/-- The transport codes of that packet are zero. -/
theorem Message.Valid.transportCodes_packet (h : m.Valid) :
    (m.packet h).message.transportCodes = #v[0, 0] := by
  show #v[UInt16.ofNat (ofLeBytes (if HasTransportCodes m.route then [0, 0] else [])), 0] = _
  split_ifs
  · rfl
  · rfl

/-! ## The round trip -/

/-- The decoded message has the fields of the original one: the used parts of path and payload, and
the transport codes if the route has them. -/
structure SameMessage (m decoded : Message) : Prop where
  type : decoded.type = m.type
  route : decoded.route = m.route
  version : decoded.version = m.version
  pathLength : decoded.pathLength = m.pathLength
  payloadLength : decoded.payloadLength = m.payloadLength
  path : ∀ i < m.pathLength.toNat, view decoded.path i = view m.path i
  payload : ∀ i < m.payloadLength.toNat, view decoded.payload i = view m.payload i
  transportCodes : HasTransportCodes m.route → decoded.transportCodes = m.transportCodes

/-- Encoding succeeds, and decoding just the bytes it reports succeeds and gives the same
message. -/
def RoundTrips (m : Message) : Prop :=
  ∀ mem : Memory, ∃ (out : Memory) (size : UInt8), (meshcoreSerialize m (some mem)).code = 0 ∧
    (meshcoreSerialize m (some mem)).target = some ⟨out, some size⟩ ∧
    ∀ (data : Memory) (old : Message), slice data 0 size.toNat = slice out 0 size.toNat →
      (meshcoreDeserialize (some data) size (some old)).code = 0 ∧
      ∃ decoded, (meshcoreDeserialize (some data) size (some old)).target = some decoded ∧
        SameMessage m decoded

/-- The message of the packet is the original one, up to transport codes. -/
theorem Message.Valid.sameMessage_packet_iff (h : m.Valid) :
    SameMessage m (m.packet h).message ↔
      (HasTransportCodes m.route → m.transportCodes = #v[0, 0]) := by
  obtain ⟨hroute, htype, hversion⟩ := h.headerMessage_headerByte
  have hcodes := h.transportCodes_packet
  have hview : ∀ {n len : ℕ} (v : Vector UInt8 n), len ≤ n → ∀ i < len,
      view (blit (Vector.replicate n 0) (slice (view v) 0 len)) i = view v i := by
    intro n len v hle i hi
    rw [view_blit_slice _ hle, if_pos hi, Nat.zero_add]
  constructor
  · intro hsame htransport
    rw [← hsame.transportCodes htransport, hcodes]
  · intro hzero
    refine ⟨htype, hroute, hversion, ?_, ?_, hview m.path h.pathLength,
      hview m.payload h.payloadLength, ?_⟩
    · show UInt8.ofNat (slice (view m.path) 0 m.pathLength.toNat).length = m.pathLength
      rw [length_slice, UInt8.ofNat_toNat]
    · show UInt8.ofNat (slice (view m.payload) 0 m.payloadLength.toNat).length = m.payloadLength
      rw [length_slice, UInt8.ofNat_toNat]
    · intro htransport
      rw [hcodes, hzero htransport]

/-- A valid message is encoded, and what is decoded again is the message of its packet. -/
theorem Message.Valid.deserialize_serialize (h : m.Valid) (mem : Memory) :
    ∃ (out : Memory) (size : UInt8), (meshcoreSerialize m (some mem)).code = 0 ∧
      (meshcoreSerialize m (some mem)).target = some ⟨out, some size⟩ ∧
      ∀ (data : Memory) (old : Message), slice data 0 size.toNat = slice out 0 size.toNat →
        (meshcoreDeserialize (some data) size (some old)).code = 0 ∧
        (meshcoreDeserialize (some data) size (some old)).target
          = some (m.packet h).message := by
  have hlength : m.wire.length ≤ maxTransUnit := by
    rw [h.wire_eq]
    exact (m.packet h).length_wire_le.trans (by decide)
  obtain ⟨out, size, hcode, htarget, -, hfront⟩ :=
    (writes_message h.pathLength h.payloadLength).front hlength mem
  refine ⟨out, size, hcode, htarget, ?_⟩
  intro data old hdata
  have hwire : slice data 0 size.toNat = (m.packet h).wire := by
    rw [hdata, hfront, h.wire_eq]
  obtain ⟨hiff, hmessage⟩ := meshcoreDeserialize_packet_iff data size old
  exact ⟨hiff.mpr ⟨_, hwire⟩, hmessage _ hwire⟩

/-- The round trip is decided by the packet of the message. -/
theorem Message.Valid.roundTrips_iff_sameMessage (h : m.Valid) :
    RoundTrips m ↔ SameMessage m (m.packet h).message := by
  constructor
  · -- both descriptions are of one run of the encoder
    intro htrips
    obtain ⟨out, size, -, htarget, hdecode⟩ := htrips fun _ => 0
    obtain ⟨out', size', -, htarget', hdecode'⟩ := h.deserialize_serialize fun _ => 0
    have heq : (⟨out, some size⟩ : OutBuffer) = ⟨out', some size'⟩ :=
      Option.some.inj (htarget.symm.trans htarget')
    obtain ⟨rfl, hsize⟩ := OutBuffer.mk.inj heq
    obtain rfl := Option.some.inj hsize
    obtain ⟨-, decoded, hdecoded, hsame⟩ := hdecode out Message.zero rfl
    have hmessage := (hdecode' out Message.zero rfl).2
    rw [← Option.some.inj (hdecoded.symm.trans hmessage)]
    exact hsame
  · intro hsame mem
    obtain ⟨out, size, hcode, htarget, hdecode⟩ := h.deserialize_serialize mem
    refine ⟨out, size, hcode, htarget, ?_⟩
    intro data old hdata
    obtain ⟨hcode', hmessage⟩ := hdecode data old hdata
    exact ⟨hcode', _, hmessage, hsame⟩

/-- **Decoding undoes encoding, but for the transport codes.** A valid message survives encoding and
decoding exactly when its route has no transport codes or both of them are zero. -/
theorem roundTrips_iff (h : m.Valid) :
    RoundTrips m ↔ m.route = RouteType.flood.value ∨ m.route = RouteType.direct.value ∨
      m.transportCodes = #v[0, 0] := by
  rw [h.roundTrips_iff_sameMessage, h.sameMessage_packet_iff]
  obtain ⟨r, hr⟩ := h.route
  rw [hr]
  cases r with
  | transportFlood => simp [HasTransportCodes, RouteType.value]
  | flood => simp [HasTransportCodes, RouteType.value]
  | direct => simp [HasTransportCodes, RouteType.value]
  | transportDirect => simp [HasTransportCodes, RouteType.value]

/-- A flooded group text with a payload of two bytes. -/
theorem roundTrips_iff_flood :
    RoundTrips { Message.zero with
      type := 5
      route := RouteType.flood.value
      payloadLength := 2
      payload := blit (Vector.replicate maxPayloadSize 0) [7, 8] } := by
  refine (roundTrips_iff ?_).mpr (.inl rfl)
  exact ⟨⟨.flood, rfl⟩, by decide, by decide, by decide, by decide⟩

/-- The transport codes `0x1234` and `0x5678` do not survive. -/
theorem not_roundTrips_transportFlood : ¬ ∀ m : Message, m.Valid → RoundTrips m := by
  intro h
  have hvalid : ({ Message.zero with transportCodes := #v[0x1234, 0x5678] } : Message).Valid :=
    ⟨⟨.transportFlood, rfl⟩, by decide, by decide, by decide, by decide⟩
  have hsame := hvalid.roundTrips_iff_sameMessage.mp (h _ hvalid)
  exact absurd (hvalid.sameMessage_packet_iff.mp hsame (.inl rfl)) (by decide)

end MeshcoreC.Mesh
