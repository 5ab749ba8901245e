import MeshcoreC.Companion.ByteMachine
import MeshcoreC.Library.Framing

/-! # The reader refines a deframer in front of the command parser

What the serial reader is for: cut the stream into frames and hand the body of each to the parser.

* **`companionFormat`** — the framing: `'<'`, a little-endian length, a body. Lengths up to 169 are
  accepted, larger ones skipped, and the three that wrap the 16-bit frame length around wedge.
* **`commandServer`** — the parser and its packet buffer as a transducer from frame bodies to
  callback invocations.
* **`framedReceiver`** — the first piped into the second.
* **`receiver_simulates`** — the byte machine, seen through its callbacks, is `framedReceiver`; the
  receive buffer below the position is the deframer's pending part.
* **`ReaderState.WellFormed`** — the invariant of the receive buffer that this rests on, with
  `wellFormed_of_reachable`. -/

namespace MeshcoreC

open Buffers Streams Framing

/-! ## The abstract receiver -/

/-- The frame format of the companion protocol, as the receiver treats it. -/
def companionFormat : Format UInt8 where
  start := startByte
  verdict lo hi :=
    let n := lo.toNat + 256 * hi.toNat
    -- 3 + 169 = 172 is the size of the receive buffer, and 3 + 65532 the largest 16-bit number
    if n ≤ 169 then .body n else if n ≤ 65532 then .skip else .wedge

/-- The command parser with its static packet: every body leads to one callback. -/
def commandServer : Transducer CommandPacket (List UInt8) (CommandPacket × ParserError) where
  feed packet data :=
    let r := mcCompanionParseCommand data packet
    some (r.2, [(r.2, r.1)])

/-- The abstract receiver: frames are cut out of the stream and served. -/
def framedReceiver :
    Transducer (Pending UInt8 × CommandPacket) UInt8 (CommandPacket × ParserError) :=
  companionFormat.deframer.pipe commandServer

/-- The command server never gets stuck. -/
theorem commandServer_run_ne_none (packet : CommandPacket) (bodies : List (List UInt8)) :
    commandServer.run packet bodies ≠ none := by
  induction bodies generalizing packet with
  | nil => simp
  | cons data bodies ih =>
      rw [Transducer.run_cons]
      simp only [commandServer, Option.bind_some, Ne, prepend_eq_none]
      exact ih _

/-! ## The abstraction -/

namespace ReaderState

/-- What the receive buffer holds of the current frame. -/
def pending (s : ReaderState) : Pending UInt8 :=
  if s.rxPosition = 0 then .idle
  else if s.rxPosition = 1 then .opened
  else if s.rxPosition = 2 then .half (view s.rxBuffer 1)
  else .inside (view s.rxBuffer 1) (view s.rxBuffer 2)
    (slice (view s.rxBuffer) 3 (s.rxPosition.toNat - 3))

/-- The invariant of the statics: what is held starts with `'<'`, and a body is only begun when its
length is acceptable, and is never complete. -/
structure WellFormed (s : ReaderState) : Prop where
  start : s.rxPosition ≠ 0 → view s.rxBuffer 0 = startByte
  body : 3 < s.rxPosition.toNat →
    s.rxPosition.toNat < 3 + lengthField s.rxBuffer ∧ lengthField s.rxBuffer ≤ 169

/-- A well-formed receiver has its position inside the buffer. -/
theorem WellFormed.rxPosition_lt {s : ReaderState} (h : s.WellFormed) :
    s.rxPosition.toNat < maxFrameSize := by
  have hbody := h.body
  unfold maxFrameSize
  by_cases h3 : 3 < s.rxPosition.toNat
  · have := hbody h3
    omega
  · omega

/-- A header is held without a body behind it when the body would be complete, or its length is
not acceptable. -/
theorem WellFormed.bare {s : ReaderState} (h : s.WellFormed) (h3 : 3 ≤ s.rxPosition.toNat)
    (hnone : 3 + lengthField s.rxBuffer ≤ s.rxPosition.toNat ∨ 169 < lengthField s.rxBuffer) :
    s.rxPosition.toNat = 3 := by
  by_contra hne
  have hbody := h.body (by omega)
  omega

/-- Idle receivers are well formed, whatever their buffer holds. -/
theorem wellFormed_of_idle {s : ReaderState} (h : s.rxPosition = 0) : s.WellFormed := by
  constructor
  · intro h0
    exact absurd h h0
  · intro h3
    rw [h] at h3
    simp at h3

/-- An idle receiver is an idle deframer. -/
theorem pending_of_idle {s : ReaderState} (h : s.rxPosition = 0) : s.pending = .idle := by
  rw [pending, if_pos h]

/-- The converse. -/
theorem idle_of_pending {s : ReaderState} (h : s.pending = .idle) : s.rxPosition = 0 := by
  unfold pending at h
  split_ifs at h with h0
  exact h0

/-- In body mode the buffer holds the header and the first bytes of the body. -/
theorem pending_of_body {s : ReaderState} (h : 3 ≤ s.rxPosition.toNat) :
    s.pending = .inside (view s.rxBuffer 1) (view s.rxBuffer 2)
      (slice (view s.rxBuffer) 3 (s.rxPosition.toNat - 3)) := by
  obtain ⟨h0, h12⟩ := body_of_three_le h
  obtain ⟨h1, h2⟩ := not_or.mp h12
  rw [pending, if_neg h0, if_neg h1, if_neg h2]

end ReaderState

/-- The length field is the little-endian number in the two length bytes. -/
theorem lengthField_eq (rxBuffer : Vector UInt8 maxFrameSize) :
    lengthField rxBuffer = (view rxBuffer 1).toNat + 256 * (view rxBuffer 2).toNat := by
  have hlo : (view rxBuffer 1).toNat < 2 ^ 8 := (view rxBuffer 1).toNat_lt
  rw [lengthField, Nat.or_comm, ← Nat.shiftLeft_add_eq_or_of_lt hlo, Nat.shiftLeft_eq]
  omega

/-- Two bytes make a 16-bit number. -/
theorem lengthField_lt (rxBuffer : Vector UInt8 maxFrameSize) : lengthField rxBuffer < 65536 := by
  have hlo := (view rxBuffer 1).toNat_lt
  have hhi := (view rxBuffer 2).toNat_lt
  rw [lengthField_eq]
  omega

/-- The verdict on a header is decided by the length field. -/
theorem verdict_eq (rxBuffer : Vector UInt8 maxFrameSize) :
    companionFormat.verdict (view rxBuffer 1) (view rxBuffer 2) =
      if lengthField rxBuffer ≤ 169 then .body (lengthField rxBuffer)
      else if lengthField rxBuffer ≤ 65532 then .skip else .wedge := by
  rw [lengthField_eq]
  rfl

/-- The frame length is three more than the length field, unless it wraps. -/
theorem frameLength_toNat (rxBuffer : Vector UInt8 maxFrameSize) :
    (frameLength rxBuffer).toNat = (3 + lengthField rxBuffer) % 65536 := by
  rw [frameLength, UInt16.toNat_ofNat']

/-! ## The effect of a store and of a dispatch -/

namespace ReaderState

/-- A store inside the buffer changes one byte. -/
theorem view_storeByte {s : ReaderState} (b : UInt8) (h : s.rxPosition.toNat < maxFrameSize) :
    view (s.storeByte b).rxBuffer = Function.update (view s.rxBuffer) s.rxPosition.toNat b :=
  view_setIfInBounds _ _ h

/-- The position does not wrap inside the buffer. -/
theorem storeByte_rxPosition_toNat {s : ReaderState} (b : UInt8)
    (h : s.rxPosition.toNat < maxFrameSize) :
    (s.storeByte b).rxPosition.toNat = s.rxPosition.toNat + 1 := by
  unfold maxFrameSize at h
  simp only [storeByte_rxPosition, UInt16.toNat_add, UInt16.reduceToNat]
  omega

/-- The buffer's first bytes survive a store behind them. -/
theorem view_storeByte_of_lt {s : ReaderState} (b : UInt8)
    (h : s.rxPosition.toNat < maxFrameSize) {i : ℕ} (hi : i < s.rxPosition.toNat) :
    view (s.storeByte b).rxBuffer i = view s.rxBuffer i := by
  rw [view_storeByte b h, Function.update_of_ne (by omega)]

/-- The first byte stays a start byte, and becomes one. -/
theorem startByte_storeByte {s : ReaderState} {b : UInt8} (h : s.rxPosition.toNat < maxFrameSize)
    (hstart : s.rxPosition ≠ 0 → view s.rxBuffer 0 = startByte)
    (hb : s.rxPosition = 0 → b = startByte) : view (s.storeByte b).rxBuffer 0 = startByte := by
  by_cases h0 : s.rxPosition = 0
  · rw [view_storeByte b h, h0, hb h0]
    exact Function.update_self ..
  · have hpos : s.rxPosition.toNat ≠ 0 := fun hzero => h0 (UInt16.toNat_inj.mp hzero)
    rw [s.view_storeByte_of_lt b h (Nat.pos_of_ne_zero hpos)]
    exact hstart h0

/-- A store behind the header does not change the announced length. -/
theorem lengthField_storeByte {s : ReaderState} (h3 : 3 ≤ s.rxPosition.toNat)
    (h : s.rxPosition.toNat < maxFrameSize) (b : UInt8) :
    lengthField (s.storeByte b).rxBuffer = lengthField s.rxBuffer := by
  rw [lengthField_eq, lengthField_eq, s.view_storeByte_of_lt b h (by omega),
    s.view_storeByte_of_lt b h (by omega)]

/-- **A store keeps the statics well formed**: of a start byte between frames, of a length byte, or
of a byte that does not complete an acceptable body. -/
theorem WellFormed.storeByte {s : ReaderState} (h : s.WellFormed) {b : UInt8}
    (hb : s.rxPosition = 0 → b = startByte)
    (hbody : 3 ≤ s.rxPosition.toNat →
      s.rxPosition.toNat + 1 < 3 + lengthField s.rxBuffer ∧ lengthField s.rxBuffer ≤ 169) :
    (s.storeByte b).WellFormed := by
  have hpos := h.rxPosition_lt
  constructor
  · intro _
    exact startByte_storeByte hpos h.start hb
  · intro h3
    rw [s.storeByte_rxPosition_toNat b hpos] at h3 ⊢
    rw [lengthField_storeByte (by omega) hpos]
    exact hbody (by omega)

/-- Dispatching an acceptable frame runs the parser on the body in the buffer. -/
theorem dispatch_eq {s : ReaderState} (h : lengthField s.rxBuffer ≤ 169) :
    s.dispatch =
      let data := slice (view s.rxBuffer) 3 (lengthField s.rxBuffer)
      let r := mcCompanionParseCommand data s.commandPacketBuffer
      (({ s with commandPacketBuffer := r.2 } : ReaderState).reset,
        [.parse s.rxPosition (frameLength s.rxBuffer) data, .callback r.2 r.1]) := by
  have hlen := frameLength_toNat s.rxBuffer
  have hge : ¬ frameLength s.rxBuffer < 1 := by
    simp only [UInt16.lt_iff_toNat_lt, UInt16.reduceToNat]
    omega
  have hle : 3 ≤ frameLength s.rxBuffer := by
    simp only [UInt16.le_iff_toNat_le, UInt16.reduceToNat]
    omega
  have hsub : (frameLength s.rxBuffer - 3).toNat = lengthField s.rxBuffer := by
    simp only [UInt16.toNat_sub_of_le _ _ hle, UInt16.reduceToNat]
    omega
  rw [dispatch, mcCompanionHandleSerialCommandFrame]
  simp only [if_neg hge, hsub]

end ReaderState

/-! ## The simulation -/

/-- The byte machine's state, abstracted: what it holds of the frame, and the packet buffer. -/
def AbstractedBy (s : ReaderState) (a : Pending UInt8 × CommandPacket) : Prop :=
  s.WellFormed ∧ a = (s.pending, s.commandPacketBuffer)

/-- A step of the abstract receiver that completes no frame. -/
theorem framedReceiver_feed_quiet {p p' : Pending UInt8} {b : UInt8} (packet : CommandPacket)
    (h : companionFormat.deframer.feed p b = some (p', [])) :
    framedReceiver.feed (p, packet) b = some ((p', packet), []) := by
  simp only [framedReceiver, Transducer.pipe, h]
  rfl

/-- A step of the abstract receiver that completes a frame. -/
theorem framedReceiver_feed_body {p p' : Pending UInt8} {b : UInt8} {data : List UInt8}
    (packet : CommandPacket) (h : companionFormat.deframer.feed p b = some (p', [data])) :
    framedReceiver.feed (p, packet) b =
      some ((p', (mcCompanionParseCommand data packet).2),
        [((mcCompanionParseCommand data packet).2, (mcCompanionParseCommand data packet).1)]) := by
  simp only [framedReceiver, Transducer.pipe, h]
  rfl

/-- The idle mode steps like the abstract scan. -/
theorem abstractedBy_scan {s : ReaderState} (h : s.rxPosition = 0) (b : UInt8) :
    AbstractedBy (s.scan b).1 (companionFormat.scan b, s.commandPacketBuffer) ∧
      (s.scan b).2.filterMap ReaderEvent.callback? = [] := by
  have hlt : s.rxPosition.toNat < maxFrameSize := by rw [h]; decide
  rw [ReaderState.scan, Format.scan]
  by_cases hb : b = startByte
  · rw [if_pos hb, if_pos (show b = companionFormat.start from hb)]
    have hpos : (s.storeByte b).rxPosition = 1 := by
      rw [ReaderState.storeByte_rxPosition, h]; rfl
    refine ⟨⟨(ReaderState.wellFormed_of_idle h).storeByte (fun _ => hb) ?_, ?_⟩, rfl⟩
    · intro h3
      rw [h] at h3
      simp at h3
    · rw [ReaderState.pending, hpos]
      rfl
  · rw [if_neg hb, if_neg (show b ≠ companionFormat.start from hb)]
    exact ⟨⟨ReaderState.wellFormed_of_idle h, by rw [ReaderState.pending_of_idle h]⟩, rfl⟩

/-- The byte machine inside a frame, decided by the length field alone. -/
theorem receiver_feed_body {s : ReaderState} (h3 : 3 ≤ s.rxPosition.toNat)
    (hpos : s.rxPosition.toNat < maxFrameSize) (b : UInt8) :
    receiver.feed s b =
      if lengthField s.rxBuffer ≤ 169 then
        if s.rxPosition.toNat + 1 < 3 + lengthField s.rxBuffer then
          some (s.storeByte b, [s.storeEvent])
        else if s.rxPosition.toNat + 1 = 3 + lengthField s.rxBuffer then
          some ((s.storeByte b).dispatch.1, s.storeEvent :: (s.storeByte b).dispatch.2)
        else if s.rxPosition.toNat = 3 + lengthField s.rxBuffer then
          some ((s.dispatch.1.scan b).1, s.dispatch.2 ++ (s.dispatch.1.scan b).2)
        else none
      else if lengthField s.rxBuffer ≤ 65532 then some ((s.reset.scan b).1, (s.reset.scan b).2)
      else none := by
  have hlen := frameLength_toNat s.rxBuffer
  have hfield := lengthField_lt s.rxBuffer
  have hsucc := s.storeByte_rxPosition_toNat b hpos
  obtain ⟨h0, h12⟩ := body_of_three_le h3
  -- the branches of the byte machine, in numbers
  have hbound : maxFrameSize < (frameLength s.rxBuffer).toNat ↔
      169 < lengthField s.rxBuffer ∧ lengthField s.rxBuffer ≤ 65532 := by
    unfold maxFrameSize; omega
  have hlt : s.rxPosition < frameLength s.rxBuffer ↔
      s.rxPosition.toNat < (frameLength s.rxBuffer).toNat := UInt16.lt_iff_toNat_lt
  have hlast : s.rxPosition + 1 = frameLength s.rxBuffer ↔
      s.rxPosition.toNat + 1 = (frameLength s.rxBuffer).toNat := by
    rw [← UInt16.toNat_inj, ← s.storeByte_rxPosition b, hsucc]
  have heq : s.rxPosition = frameLength s.rxBuffer ↔
      s.rxPosition.toNat = (frameLength s.rxBuffer).toNat := UInt16.toNat_inj.symm
  simp only [receiver, if_neg h0, if_neg h12, hbound, hlt, hlast, heq]
  by_cases hbody : lengthField s.rxBuffer ≤ 169
  · have hframe : (frameLength s.rxBuffer).toNat = 3 + lengthField s.rxBuffer := by omega
    rw [if_neg (by omega), if_pos hbody, hframe]
    by_cases hmore : s.rxPosition.toNat + 1 < 3 + lengthField s.rxBuffer
    · rw [if_pos (by omega), if_neg (by omega), if_pos hmore]
    · rw [if_neg hmore]
      by_cases hlast' : s.rxPosition.toNat + 1 = 3 + lengthField s.rxBuffer
      · rw [if_pos (by omega), if_pos hlast', if_pos hlast']
      · rw [if_neg (by omega), if_neg hlast']
  · rw [if_neg hbody]
    by_cases hskip : lengthField s.rxBuffer ≤ 65532
    · rw [if_pos ⟨by omega, hskip⟩, if_pos hskip]
    · -- 65533, 65534 and 65535 make the 16-bit frame length 0, 1 and 2, below the position
      rw [if_neg (by omega), if_neg hskip, if_neg (by omega), if_neg (by omega)]

/-- What related steps are: both stuck, or related states with the same callbacks. -/
def StepsAgree (x : Option (ReaderState × List ReaderEvent))
    (y : Option ((Pending UInt8 × CommandPacket) × List (CommandPacket × ParserError))) : Prop :=
  Option.Rel (fun r q => AbstractedBy r.1 q.1 ∧ r.2.filterMap ReaderEvent.callback? = q.2) x y

/-- The header bytes step alike. -/
theorem stepsAgree_header {s : ReaderState} (hwf : s.WellFormed)
    (h12 : s.rxPosition = 1 ∨ s.rxPosition = 2) (b : UInt8) :
    StepsAgree (receiver.feed s b) (framedReceiver.feed (s.pending, s.commandPacketBuffer) b) := by
  have hpos := hwf.rxPosition_lt
  have hstore := s.storeByte_rxPosition_toNat b hpos
  have h0 := ne_zero_of_header h12
  have hfeed := receiver_feed_header h12 b
  have hwf' : (s.storeByte b).WellFormed := by
    refine hwf.storeByte (fun h => absurd h h0) ?_
    intro h3
    exact absurd h12 (body_of_three_le h3).2
  have hdeframe :
      companionFormat.deframer.feed s.pending b = some ((s.storeByte b).pending, []) := by
    rcases h12 with h1 | h2
    · -- the low byte of the length
      have hpos' : (s.storeByte b).rxPosition = 2 := by
        rw [ReaderState.storeByte_rxPosition, h1]; rfl
      have hp : s.pending = .opened := by rw [ReaderState.pending, h1]; rfl
      have hp' : (s.storeByte b).pending = .half b := by
        rw [ReaderState.pending, hpos', ReaderState.view_storeByte b hpos, h1]; rfl
      rw [hp, hp', feed_opened]
    · -- the high byte: the header is complete, but is not judged yet
      have hpos' : (s.storeByte b).rxPosition.toNat = 3 := by rw [hstore, h2]; rfl
      have hp : s.pending = .half (view s.rxBuffer 1) := by
        rw [ReaderState.pending, h2]; rfl
      have hp' : (s.storeByte b).pending = .inside (view s.rxBuffer 1) b [] := by
        rw [ReaderState.pending_of_body (by omega), hpos', ReaderState.view_storeByte b hpos, h2]
        rfl
      rw [hp, hp', feed_half]
  rw [hfeed, framedReceiver_feed_quiet _ hdeframe]
  exact .some ⟨⟨hwf', rfl⟩, rfl⟩

/-- A byte stored into a body, seen in the abstraction. -/
theorem body_storeByte {s : ReaderState} (h3 : 3 ≤ s.rxPosition.toNat)
    (hpos : s.rxPosition.toNat < maxFrameSize) (b : UInt8) :
    lengthField (s.storeByte b).rxBuffer = lengthField s.rxBuffer ∧
      slice (view (s.storeByte b).rxBuffer) 3 (s.rxPosition.toNat + 1 - 3)
        = slice (view s.rxBuffer) 3 (s.rxPosition.toNat - 3) ++ [b] := by
  constructor
  · exact ReaderState.lengthField_storeByte h3 hpos b
  · obtain ⟨k, hk⟩ : ∃ k, s.rxPosition.toNat = 3 + k := ⟨s.rxPosition.toNat - 3, by omega⟩
    rw [ReaderState.view_storeByte b hpos, hk, Nat.add_sub_cancel_left, Nat.add_assoc,
      Nat.add_sub_cancel_left]
    exact slice_update_succ _ _ _ _

/-- The deframer inside an acceptable frame, on what the receive buffer holds. -/
theorem deframer_feed_body {s : ReaderState} (h3 : 3 ≤ s.rxPosition.toNat)
    (hbody : lengthField s.rxBuffer ≤ 169) (b : UInt8) :
    companionFormat.deframer.feed s.pending b =
      let got := slice (view s.rxBuffer) 3 (s.rxPosition.toNat - 3)
      if s.rxPosition.toNat - 3 = lengthField s.rxBuffer then
        some (companionFormat.scan b, [got])
      else if s.rxPosition.toNat - 3 + 1 = lengthField s.rxBuffer then some (.idle, [got ++ [b]])
      else some (.inside (view s.rxBuffer 1) (view s.rxBuffer 2) (got ++ [b]), []) := by
  have hverdict := verdict_eq s.rxBuffer
  rw [if_pos hbody] at hverdict
  rw [s.pending_of_body h3, feed_inside, hverdict]
  simp only [length_slice]

/-- Inside an acceptable frame both sides step alike. -/
theorem stepsAgree_body {s : ReaderState} (hwf : s.WellFormed) (h3 : 3 ≤ s.rxPosition.toNat)
    (hbody : lengthField s.rxBuffer ≤ 169) (b : UInt8) :
    StepsAgree (receiver.feed s b) (framedReceiver.feed (s.pending, s.commandPacketBuffer) b) := by
  have hpos := hwf.rxPosition_lt
  have hstore := s.storeByte_rxPosition_toNat b hpos
  obtain ⟨hfield, hslice⟩ := body_storeByte h3 hpos b
  have hfeed := deframer_feed_body h3 hbody b
  rw [receiver_feed_body h3 hpos, if_pos hbody]
  by_cases hmore : s.rxPosition.toNat + 1 < 3 + lengthField s.rxBuffer
  · -- the body goes on
    have hdeframe : companionFormat.deframer.feed s.pending b
        = some ((s.storeByte b).pending, []) := by
      rw [hfeed, if_neg (by omega), if_neg (by omega), ReaderState.pending_of_body (by omega),
        hstore, hslice, s.view_storeByte_of_lt b hpos (by omega),
        s.view_storeByte_of_lt b hpos (by omega)]
    rw [if_pos hmore, framedReceiver_feed_quiet _ hdeframe]
    refine .some ⟨⟨hwf.storeByte ?_ fun _ => ⟨hmore, hbody⟩, rfl⟩, rfl⟩
    intro h0
    exact absurd h0 (body_of_three_le h3).1
  rw [if_neg hmore]
  by_cases hlast : s.rxPosition.toNat + 1 = 3 + lengthField s.rxBuffer
  · -- the byte completes the body
    have hdeframe : companionFormat.deframer.feed s.pending b =
        some (.idle, [slice (view s.rxBuffer) 3 (s.rxPosition.toNat - 3) ++ [b]]) := by
      rw [hfeed, if_neg (by omega), if_pos (by omega)]
    have hdata : slice (view (s.storeByte b).rxBuffer) 3 (lengthField (s.storeByte b).rxBuffer)
        = slice (view s.rxBuffer) 3 (s.rxPosition.toNat - 3) ++ [b] := by
      rw [hfield, ← hslice]
      congr 1
      omega
    rw [if_pos hlast, framedReceiver_feed_body _ hdeframe,
      ReaderState.dispatch_eq (by rw [hfield]; exact hbody), hdata]
    exact .some ⟨⟨ReaderState.wellFormed_of_idle rfl, rfl⟩, rfl⟩
  · -- an empty body, judged now that another byte has come
    have hpos3 := hwf.bare h3 (.inl (by omega))
    have hzero : lengthField s.rxBuffer = 0 := by omega
    have hdeframe : companionFormat.deframer.feed s.pending b =
        some (companionFormat.scan b, [[]]) := by
      rw [hfeed, if_pos (by omega), hpos3]
      rfl
    obtain ⟨habs, hout⟩ := abstractedBy_scan s.dispatch_rxPosition b
    have hdispatch := ReaderState.dispatch_eq hbody
    rw [hzero] at hdispatch
    rw [if_neg hlast, if_pos (by omega), framedReceiver_feed_body _ hdeframe]
    rw [hdispatch] at habs hout ⊢
    refine .some ⟨habs, ?_⟩
    rw [List.filterMap_append, hout]
    rfl

/-- Behind an unacceptable header both sides step alike. -/
theorem stepsAgree_badHeader {s : ReaderState} (hwf : s.WellFormed) (h3 : 3 ≤ s.rxPosition.toNat)
    (hbody : ¬ lengthField s.rxBuffer ≤ 169) (b : UInt8) :
    StepsAgree (receiver.feed s b) (framedReceiver.feed (s.pending, s.commandPacketBuffer) b) := by
  have hverdict := verdict_eq s.rxBuffer
  rw [if_neg hbody] at hverdict
  rw [receiver_feed_body h3 hwf.rxPosition_lt, if_neg hbody]
  by_cases hskip : lengthField s.rxBuffer ≤ 65532
  · -- an oversized length: the header is dropped and the byte looked at afresh
    rw [if_pos hskip] at hverdict ⊢
    have hdeframe : companionFormat.deframer.feed s.pending b =
        some (companionFormat.scan b, []) := by
      rw [s.pending_of_body h3, feed_inside, hverdict]
    obtain ⟨habs, hout⟩ := abstractedBy_scan s.reset_rxPosition b
    rw [framedReceiver_feed_quiet _ hdeframe]
    exact .some ⟨habs, hout⟩
  · -- the frame length wraps below the position: neither side ever comes back
    rw [if_neg hskip] at hverdict ⊢
    have hdeframe : companionFormat.deframer.feed s.pending b = none := by
      rw [s.pending_of_body h3, feed_inside, hverdict]
    have habstract : framedReceiver.feed (s.pending, s.commandPacketBuffer) b = none := by
      simp only [framedReceiver, Transducer.pipe, hdeframe]
      rfl
    rw [habstract]
    exact .none

/-- **The byte machine refines the abstract receiver**: seen through its callbacks it makes the
same steps, gets stuck on the same bytes, and keeps its statics well formed. -/
theorem receiver_simulates :
    receiver.Simulates framedReceiver AbstractedBy ReaderEvent.callback? := by
  rintro s a b ⟨hwf, rfl⟩
  by_cases h0 : s.rxPosition = 0
  · obtain ⟨habs, hout⟩ := abstractedBy_scan h0 b
    rw [receiver_feed_idle h0, ReaderState.pending_of_idle h0,
      framedReceiver_feed_quiet _ (feed_idle b)]
    exact .some ⟨habs, hout⟩
  by_cases h12 : s.rxPosition = 1 ∨ s.rxPosition = 2
  · exact stepsAgree_header hwf h12 b
  have h3 := three_le_of_body h0 h12
  by_cases hbody : lengthField s.rxBuffer ≤ 169
  · exact stepsAgree_body hwf h3 hbody b
  · exact stepsAgree_badHeader hwf h3 hbody b

/-! ## Whole runs -/

/-- A call that returns, abstractly: the deframer finds some bodies, the command server serves
them, and the statics stay well formed. -/
theorem deframed_of_run {s s' : ReaderState} (hwf : s.WellFormed) {data : List UInt8}
    {events : List ReaderEvent} (h : receiver.run s data = some (s', events)) :
    s'.WellFormed ∧ ∃ bodies,
      companionFormat.deframer.run s.pending data = some (s'.pending, bodies) ∧
      commandServer.run s.commandPacketBuffer bodies
        = some (s'.commandPacketBuffer, callbacks events) := by
  have habs : AbstractedBy s (s.pending, s.commandPacketBuffer) := ⟨hwf, rfl⟩
  have hrel := receiver_simulates.run habs data
  rw [h, framedReceiver, Transducer.run_pipe] at hrel
  -- the command server is never stuck here, since the receiver is not
  generalize hdeframe : companionFormat.deframer.run s.pending data = x at hrel
  cases x with
  | none => cases hrel
  | some r =>
      rw [Option.bind_some] at hrel
      generalize hserve : commandServer.run s.commandPacketBuffer r.2 = y at hrel
      cases y with
      | none => cases hrel
      | some q =>
          cases hrel with
          | some hrq =>
              obtain ⟨⟨hwf', heq⟩, hout⟩ := hrq
              obtain ⟨hr, hq⟩ := Prod.mk.inj heq
              refine ⟨hwf', r.2, ?_, ?_⟩
              · rw [← hr]
              · rw [hserve, ← hq, callbacks, hout]

/-- What the deframer and the command server do, the receiver does. -/
theorem run_of_deframed {s : ReaderState} (hwf : s.WellFormed) {data : List UInt8}
    {p : Pending UInt8} {bodies : List (List UInt8)} {packet : CommandPacket}
    {served : List (CommandPacket × ParserError)}
    (hdeframe : companionFormat.deframer.run s.pending data = some (p, bodies))
    (hserve : commandServer.run s.commandPacketBuffer bodies = some (packet, served)) :
    ∃ s' events, receiver.run s data = some (s', events) ∧ s'.WellFormed ∧ s'.pending = p ∧
      s'.commandPacketBuffer = packet ∧ callbacks events = served := by
  have habs : AbstractedBy s (s.pending, s.commandPacketBuffer) := ⟨hwf, rfl⟩
  have hrel := receiver_simulates.run habs data
  rw [framedReceiver, Transducer.run_pipe, hdeframe, Option.bind_some, hserve, Option.map_some]
    at hrel
  generalize hrun : receiver.run s data = x at hrel
  cases hrel with
  | @some r q hrq =>
      obtain ⟨⟨hwf', heq⟩, hout⟩ := hrq
      obtain ⟨hp, hpacket⟩ := Prod.mk.inj heq
      exact ⟨r.1, r.2, rfl, hwf', hp.symm, hpacket.symm, hout⟩

/-- The receiver gets stuck exactly where the deframer does. -/
theorem run_eq_none_iff_deframer {s : ReaderState} (hwf : s.WellFormed) (data : List UInt8) :
    receiver.run s data = none ↔ companionFormat.deframer.run s.pending data = none := by
  constructor
  · intro hnone
    by_contra hdeframe
    obtain ⟨r, hr⟩ := Option.ne_none_iff_exists'.mp hdeframe
    obtain ⟨q, hq⟩ :=
      Option.ne_none_iff_exists'.mp (commandServer_run_ne_none s.commandPacketBuffer r.2)
    obtain ⟨s', events, hrun, -⟩ := run_of_deframed hwf hr hq
    simp [hnone] at hrun
  · intro hdeframe
    by_contra hne
    obtain ⟨r, hr⟩ := Option.ne_none_iff_exists'.mp hne
    obtain ⟨-, bodies, hbodies, -⟩ := deframed_of_run hwf hr
    simp [hdeframe] at hbodies

/-- **Every reachable receiver is well formed.** -/
theorem wellFormed_of_reachable {s : ReaderState} (h : Reachable s) : s.WellFormed := by
  induction h with
  | initial => exact ReaderState.wellFormed_of_idle rfl
  | call _ hread ih => exact (deframed_of_run ih (reads_iff_run.mp hread)).1

/-- The deframer state of a well-formed receiver is open. -/
theorem open_of_wellFormed {s : ReaderState} (hwf : s.WellFormed) :
    companionFormat.Open s.pending := by
  unfold ReaderState.pending
  split_ifs with h0 h1 h2
  · trivial
  · trivial
  · trivial
  · by_cases h3 : 3 < s.rxPosition.toNat
    · obtain ⟨hlt, hle⟩ := hwf.body h3
      refine .inr ⟨lengthField s.rxBuffer, ?_, ?_⟩
      · rw [verdict_eq, if_pos hle]
      · rw [length_slice]; omega
    · have hzero : s.rxPosition.toNat - 3 = 0 := by omega
      rw [hzero]
      exact .inl rfl

end MeshcoreC
