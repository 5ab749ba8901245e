import MeshcoreC.Mesh.AdvertReencoding
import MeshcoreC.Mesh.GroupTextStack

/-! # The check of the test program

`meshcore-test/main.c` decodes a received packet, and its payload if that is an advertisement or a
group text; then it encodes both again, the payload in place, and compares the result with what was
received. The packet is built into the program; here it is any packet. What is printed is left out.

* **`testMain`** — the program, with its local variables and what the decryption of a group text
  leaves in them.
* **`wire_withPayload_eq_iff`** — when a decoded message with another payload is encoded to the
  packet it was decoded from.
* **`testMain_eq_zero_iff`** — the packets on which the program succeeds. -/

namespace MeshcoreC.Mesh

open Buffers EarlyReturn Wire

/-! ## The program -/

/-- `MESHCORE_PAYLOAD_TYPE_ADVERT`. -/
def payloadTypeAdvert : UInt32 := 4

/-- A payload is decoded, and what it was decoded to is encoded over it. -/
def reencodePayload {τ : Type} (decode : Option Memory → UInt8 → Option τ → Outcome τ)
    (between : τ → τ) (encode : τ → Option Memory → Outcome OutBuffer) (old : τ) (m : Message) :
    Option Message :=
  let decoded := decode (some (view m.payload)) m.payloadLength (some old)
  if decoded.code < 0 then none
  else decoded.target.bind fun t =>
    let encoded := encode (between t) (some (view m.payload))
    if encoded.code < 0 then none
    else encoded.target.map fun out => m.withPayload out.mem (out.size.getD m.payloadLength)

/-- The local variables before they are assigned, and what the check of the MAC and the decryption
leave in `decrypted`. -/
structure MainLocals where
  message : Message
  advert : Advert
  groupText : GroupText
  decrypted : GroupText → Vector UInt8 sizeofBehindData

/-- The check of the MAC and the decryption, as far as they change the structure. -/
def MainLocals.decrypt (locals : MainLocals) (g : GroupText) : GroupText :=
  { g with behindData := locals.decrypted g }

/-- The payload is encoded again, if its type is one of the two. -/
def reencodeMessage (locals : MainLocals) (m : Message) : Option Message :=
  if m.type = payloadTypeAdvert then
    reencodePayload meshcoreAdvertDeserialize id meshcoreAdvertSerialize locals.advert m
  else if m.type = payloadTypeGrpTxt then
    reencodePayload meshcoreGrpTxtDeserialize locals.decrypt meshcoreGrpTxtSerialize
      locals.groupText m
  else some m

/-- `main`, on a packet instead of `test_message_rx_bin`: its exit code. -/
def testMain (locals : MainLocals) (encodedPacket data : Memory) (size : UInt8) : ℤ :=
  let decoded := meshcoreDeserialize (some data) size (some locals.message)
  if decoded.code < 0 then -1
  else
    match decoded.target.bind (reencodeMessage locals) with
    | none => -1
    | some m =>
        let encoded := meshcoreSerialize m (some encodedPacket)
        if encoded.code < 0 then -1
        else
          match encoded.target with
          | none => -1
          | some out =>
              if out.size ≠ some size ∨ slice out.mem 0 size.toNat ≠ slice data 0 size.toNat then -1
              else 0

/-! ## The packet that is encoded -/

namespace Packet

variable (p : Packet)

/-- The path of the message, up to its length. -/
theorem slice_path_message : slice (view p.message.path) 0 p.message.pathLength.toNat = p.path := by
  have hpath := slice_view_blit (Vector.replicate maxPathSize 0) p.length_path
  have hlength : p.message.pathLength.toNat = p.path.length := p.toNat_pathLength
  rw [hlength]
  exact hpath

/-- The transport codes that are encoded are as many as there were. -/
theorem zeroCodes_eq : (if HasTransportCodes p.message.route then [(0 : UInt8), 0] else [])
    = List.replicate p.codes.length 0 := by
  have hlength := p.length_codes
  by_cases hroute : HasTransportCodes p.message.route
  · have hthree : headerLength p.header = 3 := (hasTransportCodes_iff p.header).mp hroute
    have htwo : p.codes.length = 2 := by omega
    rw [if_pos hroute, htwo]
    rfl
  · have hone : headerLength p.header = 1 :=
      (headerLength_eq p.header).resolve_right (mt (hasTransportCodes_iff p.header).mpr hroute)
    have hzero : p.codes.length = 0 := by omega
    rw [if_neg hroute, hzero]
    rfl

/-- **With another payload, a decoded message is encoded to the packet it was decoded from** exactly
when that had no transport codes but zeros, and the payload is the same. -/
theorem wire_withPayload_eq_iff {payload : Memory} {length : UInt8} (h : length.toNat ≤ 184) :
    (p.message.withPayload payload length).wire = p.wire ↔
      (∀ b ∈ p.codes, b = 0) ∧ slice payload 0 length.toNat = p.payload := by
  have hcodes : List.replicate p.codes.length 0 = p.codes ↔ ∀ b ∈ p.codes, b = 0 := by
    rw [eq_comm, List.eq_replicate_iff, and_iff_right rfl]
  rw [wire_withPayload h, p.headerByte_message, p.slice_path_message, p.zeroCodes_eq, wire]
  show [p.header] ++ _ ++ [UInt8.ofNat p.path.length] ++ _ ++ _ = _ ↔ _
  simp only [List.append_assoc, List.append_cancel_left_eq]
  constructor
  · intro heq
    obtain ⟨hzero, hrest⟩ := List.append_inj heq List.length_replicate
    exact ⟨hcodes.mp hzero, List.append_cancel_left (List.append_cancel_left hrest)⟩
  · rintro ⟨hzero, hpayload⟩
    rw [hcodes.mpr hzero, hpayload]

end Packet

/-! ## The payload that is encoded -/

section Payload

variable {τ : Type} {decode : Option Memory → UInt8 → Option τ → Outcome τ} {between : τ → τ}
  {encode : τ → Option Memory → Outcome OutBuffer} {old t : τ} {m : Message}

/-- A payload that is rejected ends the program. -/
theorem reencodePayload_of_rejected
    (h : (decode (some (view m.payload)) m.payloadLength (some old)).code = -1) :
    reencodePayload decode between encode old m = none := by
  rw [reencodePayload, h]
  rfl

/-- A payload that is decoded is replaced by what the decoded value is encoded to. -/
theorem reencodePayload_of_yields
    (hyields : Yields (decode (some (view m.payload)) m.payloadLength) t) {bytes : List UInt8}
    (hwrites : Writes (encode (between t)) maxPayloadSize bytes)
    (hle : bytes.length ≤ maxPayloadSize) :
    ∃ payload length, reencodePayload decode between encode old m
        = some (m.withPayload payload length) ∧
      length.toNat ≤ 184 ∧ slice payload 0 length.toNat = bytes := by
  obtain ⟨hcode, htarget⟩ := hyields old
  obtain ⟨out, size, hcode', htarget', hsize, hfront⟩ := hwrites.front hle (view m.payload)
  refine ⟨out, size, ?_, hsize.trans_le hle, hfront⟩
  simp only [reencodePayload, hcode, htarget, Option.bind_some, hcode', htarget']
  rfl

end Payload

/-- The payload comes back: that of an advertisement if it follows the grammar and is canonical,
any other in any case. -/
def Packet.PayloadReturns (p : Packet) : Prop :=
  p.message.type = payloadTypeAdvert →
    AdvertGrammar (view p.message.payload) p.payload.length ∧
      Canonical (view p.message.payload) p.payload.length

variable {locals : MainLocals} {p : Packet}

/-- The bytes of the payload, in the message. -/
theorem Packet.slice_payload_message :
    slice (view p.message.payload) 0 p.message.payloadLength.toNat = p.payload := by
  have hpayload := slice_view_blit (Vector.replicate maxPayloadSize 0) p.length_payload
  have hlength : p.message.payloadLength.toNat = p.payload.length := p.toNat_payloadLength
  rw [hlength]
  exact hpayload

/-- A payload is put in place, and is the one that was received if that returns. -/
def Replaces (locals : MainLocals) (p : Packet) : Prop :=
  ∃ (payload : Memory) (length : UInt8),
    reencodeMessage locals p.message = some (p.message.withPayload payload length) ∧
      length.toNat ≤ 184 ∧ (slice payload 0 length.toNat = p.payload ↔ p.PayloadReturns)

/-- An advertisement, decoded and encoded again. -/
theorem replaces_advert (htype : p.message.type = payloadTypeAdvert)
    {a : Advert} (hyields : Yields (meshcoreAdvertDeserialize (some (view p.message.payload))
      p.message.payloadLength) a) (hwire : a.wire = p.payload ↔ p.PayloadReturns) :
    Replaces locals p := by
  have hwrites : Writes (meshcoreAdvertSerialize (id a)) maxPayloadSize a.wire := writes_advert a
  obtain ⟨payload, length, hsome, hle, hbytes⟩ :=
    reencodePayload_of_yields hyields hwrites (a.length_wire_le.trans (by decide))
  refine ⟨payload, length, ?_, hle, ?_⟩
  · rw [reencodeMessage, if_pos htype]
    exact hsome
  · rw [hbytes]
    exact hwire

/-- What becomes of an advertisement: it is rejected, or encoded again. -/
theorem reencodeMessage_advert (htype : p.message.type = payloadTypeAdvert) :
    reencodeMessage locals p.message = none ∧ ¬ p.PayloadReturns ∨ Replaces locals p := by
  have hlength : p.message.payloadLength.toNat = p.payload.length := p.toNat_payloadLength
  have hreturns : p.PayloadReturns ↔
      AdvertGrammar (view p.message.payload) p.message.payloadLength.toNat ∧
        Canonical (view p.message.payload) p.message.payloadLength.toNat := by
    rw [Packet.PayloadReturns, hlength]
    exact ⟨fun h => h htype, fun h _ => h⟩
  by_cases h100 : p.message.payloadLength.toNat = 100
  · -- the flags byte that is added makes the payload longer
    have hlong : ¬ p.PayloadReturns := by
      rw [hreturns]
      rintro ⟨-, h101, -⟩
      omega
    refine .inr (replaces_advert htype (yields_advertFixedPart h100) (iff_of_false ?_ hlong))
    intro heq
    have hlen := congrArg List.length heq
    rw [Advert.length_wire] at hlen
    omega
  · by_cases hpass : Passes (view p.message.payload) p.message.payloadLength
    · refine .inr (replaces_advert htype (yields_advert h100 hpass) ?_)
      rw [hreturns]
      by_cases hsize : 101 ≤ p.message.payloadLength.toNat
      · have hgrammar : AdvertGrammar (view p.message.payload) p.message.payloadLength.toNat :=
          (advertGrammar_iff_of_le (by omega)).mpr (.inr hpass)
        rw [and_iff_right hgrammar, ← wire_decodedAdvert_iff hsize hpass, p.slice_payload_message]
      · -- a short payload that is accepted for its zeros becomes longer, too
        refine iff_of_false ?_ fun h => hsize h.2.1
        intro heq
        have hlen := congrArg List.length heq
        rw [Advert.length_wire] at hlen
        omega
    · refine .inl ⟨?_, ?_⟩
      · rw [reencodeMessage, if_pos htype]
        exact reencodePayload_of_rejected (rejects_advert h100 hpass locals.advert)
      · rw [hreturns]
        rintro ⟨hgrammar, h101, -⟩
        exact ((advertGrammar_iff_of_le (by omega)).mp hgrammar).elim h100 hpass

/-- A group text comes back, whatever its decryption left in the structure. -/
theorem replaces_groupText (htype : p.message.type = payloadTypeGrpTxt)
    (hlong : 3 ≤ p.payload.length) : Replaces locals p := by
  have hlength : p.message.payloadLength.toNat = p.payload.length := p.toNat_payloadLength
  have hbounds : 3 ≤ p.message.payloadLength.toNat ∧ p.message.payloadLength.toNat ≤ 184 := by
    rw [hlength]
    exact ⟨hlong, p.length_payload⟩
  have hne : p.message.type ≠ payloadTypeAdvert := by
    rw [htype]
    decide
  have hdata : (decodedGroupText (view p.message.payload) p.message.payloadLength).dataLength.toNat
      ≤ 181 := by
    show (p.message.payloadLength - 3).toNat ≤ 181
    rw [toNat_sub_three hbounds.1]
    omega
  -- the encoder does not look at what the decryption left
  have hwrites (g : GroupText) (h : g.dataLength.toNat ≤ 181) :
      Writes (meshcoreGrpTxtSerialize (locals.decrypt g)) maxPayloadSize g.wire :=
    writes_groupText (g := locals.decrypt g) h
  obtain ⟨payload, length, hsome, hle, hbytes⟩ :=
    reencodePayload_of_yields (yields_groupText _ _) (hwrites _ hdata)
      (GroupText.length_wire_le _ hdata)
  refine ⟨payload, length, ?_, hle, ?_⟩
  · rw [reencodeMessage, if_neg hne, if_pos htype]
    exact hsome
  · rw [hbytes, wire_decodedGroupText _ hbounds, p.slice_payload_message]
    exact iff_of_true rfl fun h => absurd h hne

/-- Any other payload stays in the message. -/
theorem replaces_other (hadvert : p.message.type ≠ payloadTypeAdvert)
    (hgroup : p.message.type ≠ payloadTypeGrpTxt) : Replaces locals p := by
  have hkeep : p.message.withPayload (view p.message.payload) p.message.payloadLength
      = p.message := by
    have hpayload : Vector.ofFn (fun i : Fin maxPayloadSize => view p.message.payload i)
        = p.message.payload := by
      apply Vector.ext
      intro i hi
      rw [Vector.getElem_ofFn, view_of_lt _ hi]
    rw [Message.withPayload, hpayload]
  refine ⟨view p.message.payload, p.message.payloadLength, ?_, p.valid_message.payloadLength, ?_⟩
  · rw [reencodeMessage, if_neg hadvert, if_neg hgroup, hkeep]
  · exact iff_of_true p.slice_payload_message fun h => absurd h hadvert

/-- **What becomes of a payload.** Either it is rejected, which happens to no payload that could
come back; or it is encoded again. -/
theorem reencodeMessage_cases (locals : MainLocals) (p : Packet)
    (hgroup : p.message.type = payloadTypeGrpTxt → 3 ≤ p.payload.length) :
    reencodeMessage locals p.message = none ∧ ¬ p.PayloadReturns ∨ Replaces locals p := by
  by_cases hadvert : p.message.type = payloadTypeAdvert
  · exact reencodeMessage_advert hadvert
  · by_cases hgrpTxt : p.message.type = payloadTypeGrpTxt
    · exact .inr (replaces_groupText hgrpTxt (hgroup hgrpTxt))
    · exact .inr (replaces_other hadvert hgrpTxt)

/-! ## The exit code -/

section Exit

variable {data : Memory} {size : UInt8} (encodedPacket : Memory)

/-- A packet that is rejected. -/
theorem testMain_of_rejected (h : ¬ ∃ p : Packet, slice data 0 size.toNat = p.wire) :
    testMain locals encodedPacket data size = -1 := by
  have hcode : (meshcoreDeserialize (some data) size (some locals.message)).code = -1 := by
    apply meshcoreDeserialize_of_not_wellFormed
    exact fun hwf => h hwf.exists_packet
  rw [testMain, hcode]
  rfl

/-- A packet that is decoded and whose payload is rejected. -/
theorem testMain_of_none (hp : slice data 0 size.toNat = p.wire)
    (h : reencodeMessage locals p.message = none) :
    testMain locals encodedPacket data size = -1 := by
  obtain ⟨hiff, hmessage⟩ := meshcoreDeserialize_packet_iff data size locals.message
  rw [testMain, hiff.mpr ⟨p, hp⟩, hmessage p hp, Option.bind_some, h]
  rfl

/-- **The comparison**, once the payload is in place. -/
theorem testMain_of_some (hp : slice data 0 size.toNat = p.wire) {payload : Memory} {length : UInt8}
    (hle : length.toNat ≤ 184)
    (h : reencodeMessage locals p.message = some (p.message.withPayload payload length)) :
    testMain locals encodedPacket data size = 0 ↔
      (∀ b ∈ p.codes, b = 0) ∧ slice payload 0 length.toNat = p.payload := by
  obtain ⟨hiff, hmessage⟩ := meshcoreDeserialize_packet_iff data size locals.message
  have hpath : (p.message.withPayload payload length).pathLength.toNat ≤ 64 :=
    p.valid_message.pathLength
  have hwire : (p.message.withPayload payload length).wire.length ≤ maxTransUnit := by
    have hcodes : (if HasTransportCodes p.message.route then [(0 : UInt8), 0] else []).length
        ≤ 2 := by
      rw [p.zeroCodes_eq, List.length_replicate]
      have hlength := p.length_codes
      rcases headerLength_eq p.header with h | h
      · omega
      · omega
    rw [wire_withPayload hle]
    simp only [List.length_append, List.length_singleton, length_slice]
    have hle' : p.message.pathLength.toNat ≤ 64 := hpath
    unfold maxTransUnit
    omega
  obtain ⟨out, size', hcode, htarget, hsize, hfront⟩ :=
    (writes_message hpath hle).front hwire encodedPacket
  rw [← p.wire_withPayload_eq_iff hle, testMain, hiff.mpr ⟨p, hp⟩, hmessage p hp, Option.bind_some,
    h]
  -- bytes that agree are equally many, so the first comparison adds nothing to the second
  have hsame (heq : slice out 0 size'.toNat = slice data 0 size.toNat) : size' = size := by
    have hlen := congrArg List.length heq
    rw [length_slice, length_slice] at hlen
    exact UInt8.toNat_inj.mp hlen
  simp only [hcode, htarget, lt_irrefl, if_false]
  rw [← hfront, ← hp, ite_eq_right_iff]
  constructor
  · intro hzero
    have hequal : ¬ (some size' ≠ some size ∨
        slice out 0 size.toNat ≠ slice data 0 size.toNat) :=
      fun hdiff => absurd (hzero hdiff) (by decide)
    obtain ⟨hsize', hbytes⟩ := not_or.mp hequal
    rw [Option.some.inj (not_not.mp hsize')]
    exact not_not.mp hbytes
  · rintro heq (hdiff | hdiff)
    · exact absurd (congrArg some (hsame heq)) hdiff
    · rw [hsame heq] at heq
      exact absurd heq hdiff

end Exit

/-- **What the program succeeds on.** The exit code is `0` exactly for the packets without transport
codes or with zeros there whose payload, if it is an advertisement, follows the grammar and is
canonical. The local variables and the decryption make no difference. -/
theorem testMain_eq_zero_iff (locals : MainLocals) (encodedPacket data : Memory) (size : UInt8)
    (hgroup : ∀ p : Packet, slice data 0 size.toNat = p.wire →
      p.message.type = payloadTypeGrpTxt → 3 ≤ p.payload.length) :
    testMain locals encodedPacket data size = 0 ↔ ∃ p : Packet, slice data 0 size.toNat = p.wire ∧
      (∀ b ∈ p.codes, b = 0) ∧ (p.message.type = payloadTypeAdvert →
        AdvertGrammar (view p.message.payload) p.payload.length ∧
          Canonical (view p.message.payload) p.payload.length) := by
  have heach (p : Packet) (hp : slice data 0 size.toNat = p.wire) :
      testMain locals encodedPacket data size = 0 ↔ (∀ b ∈ p.codes, b = 0) ∧ p.PayloadReturns := by
    obtain ⟨hnone, hnot⟩ | ⟨payload, length, hsome, hle, hiff⟩ :=
      reencodeMessage_cases locals p (hgroup p hp)
    · rw [testMain_of_none encodedPacket hp hnone]
      exact iff_of_false (by decide) fun h => hnot h.2
    · rw [testMain_of_some encodedPacket hp hle hsome, hiff]
  constructor
  · intro hzero
    by_cases hpacket : ∃ p : Packet, slice data 0 size.toNat = p.wire
    · obtain ⟨p, hp⟩ := hpacket
      exact ⟨p, hp, (heach p hp).mp hzero⟩
    · rw [testMain_of_rejected encodedPacket hpacket] at hzero
      exact absurd hzero (by decide)
  · rintro ⟨p, hp, hreturns⟩
    exact (heach p hp).mpr hreturns

/-- `test_message_rx_bin`. -/
def testMessageRxBin : Vector UInt8 37 :=
  #v[0x15, 0x00, 0x11, 0x61, 0x72, 0xfb, 0x24, 0x6c, 0x57, 0x9e, 0x01, 0x0a, 0x18, 0x18, 0x6f, 0xfb,
    0x79, 0x3a, 0x18, 0x81, 0xec, 0x7c, 0x2d, 0x64, 0xda, 0x78, 0xbb, 0xaf, 0x0c, 0x05, 0x71, 0xae,
    0x29, 0xa1, 0x2d, 0xf5, 0xc4]

/-- It is a flooded group text over no hop. -/
theorem testMessageRxBin_packet {p : Packet} (hp : slice (view testMessageRxBin) 0 37 = p.wire) :
    p.codes = [] ∧ p.message.type = payloadTypeGrpTxt ∧ p.payload.length = 35 := by
  have hlength : 37 = p.wire.length := by rw [← hp, length_slice]
  obtain ⟨hheader, -, hpath, -⟩ := (p.slice_eq_wire_iff hlength).mp hp
  have hheader : p.header = 0x15 := hheader.symm
  have hone : headerLength p.header = 1 := by rw [hheader]; rfl
  have hcodes : p.codes = [] := by
    have hlength := p.length_codes
    exact List.eq_nil_of_length_eq_zero (by omega)
  rw [hcodes] at hpath
  have hzero : p.path.length = 0 := by
    have hle := p.length_path
    have hbyte := congrArg UInt8.toNat hpath
    rw [UInt8.toNat_ofNat'] at hbyte
    have hnil : (view testMessageRxBin (1 + ([] : List UInt8).length)).toNat = 0 := rfl
    omega
  rw [p.length_wire] at hlength
  refine ⟨hcodes, ?_, by omega⟩
  show (p.header.toUInt32 >>> headerTypeShift) &&& headerTypeMask = payloadTypeGrpTxt
  rw [hheader]
  decide

/-- The program succeeds on the packet that is built into it. -/
theorem testMain_eq_zero_iff_testMessageRxBin :
    testMain ⟨Message.zero, Advert.zero, GroupText.zero, GroupText.behindData⟩ (fun _ => 0)
      (view testMessageRxBin) 37 = 0 := by
  refine (testMain_eq_zero_iff _ _ _ _ ?_).mpr ?_
  · intro p hp _
    rw [(testMessageRxBin_packet hp).2.2]
    decide
  · have hcode : (meshcoreDeserialize (some (view testMessageRxBin)) 37
        (some Message.zero)).code = 0 := by decide
    obtain ⟨p, hp⟩ := (meshcoreDeserialize_packet_iff _ _ _).1.mp hcode
    obtain ⟨hcodes, htype, -⟩ := testMessageRxBin_packet hp
    refine ⟨p, hp, ?_, ?_⟩
    · rw [hcodes]
      exact List.forall_mem_nil _
    · rw [htype]
      intro hadvert
      exact absurd hadvert (by decide)

end MeshcoreC.Mesh
