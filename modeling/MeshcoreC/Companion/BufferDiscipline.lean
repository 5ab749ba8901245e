import MeshcoreC.Companion.CommandDelivery
import MeshcoreC.Companion.ReaderTermination
import MeshcoreC.Library.FramingRuns

/-! # The discipline of the receive buffer

The receive buffer is never cleared, and its position moves in three places. That it is used safely
is an invariant of the whole history of the receiver: of the bytes it has received, of what it has
done, and of the statics.

* **`Disciplined`** — the invariant: stores are inside the buffer, the held bytes are the end of the
  stream, and every dispatch so far was that of a frame of the stream.
* **`keepsDiscipline_moves`** — every move keeps it.
* **`buffer_disciplined`** — what it says about the states that sequences of calls pass through. -/

namespace MeshcoreC

open Buffers Loops Relation Streams Framing

/-! ## Histories -/

/-- The bytes of a parser call. -/
def ReaderEvent.parsed? : ReaderEvent → Option (List UInt8)
  | .parse _ _ data => some data
  | _ => none

/-- What has been handed to the parser, in order. -/
def parsedBodies (events : List ReaderEvent) : List (List UInt8) :=
  events.filterMap ReaderEvent.parsed?

/-- Bodies are handed over in the order of the events. -/
theorem parsedBodies_append (events events' : List ReaderEvent) :
    parsedBodies (events ++ events') = parsedBodies events ++ parsedBodies events' :=
  List.filterMap_append

/-- Stores at the indices `0, …, n - 1`, in this order. -/
def storesUpTo (n : ℕ) : List ReaderEvent := (List.range n).map .store

/-- One more store. -/
theorem storesUpTo_succ (n : ℕ) : storesUpTo (n + 1) = storesUpTo n ++ [.store n] := by
  rw [storesUpTo, List.range_succ, List.map_append]
  rfl

/-- The parser is called with the given position, recomputed length and bytes, when `received` has
come in and `earlier` has been done: the length is the position and fits the buffer, the last stores
were those of a whole frame, and the bytes are the body of the frame in `received` that follows the
frames dispatched earlier. -/
def DispatchesFrame (received : List UInt8) (earlier : List ReaderEvent)
    (rxPosition length : UInt16) (body : List UInt8) : Prop :=
  length = rxPosition ∧ 3 ≤ length.toNat ∧ length.toNat ≤ 172 ∧ length.toNat = 3 + body.length ∧
  (∃ before, earlier = before ++ storesUpTo length.toNat) ∧
  ∃ lo hi after, announcedLength lo hi = body.length ∧
    SplitsAs companionFormat received (parsedBodies earlier)
      (startByte :: lo :: hi :: body ++ after)

/-- Every call of the parser among some events dispatches a frame. -/
def DispatchesFrames (received : List UInt8) (events : List ReaderEvent) : Prop :=
  ∀ earlier rxPosition length body later,
    events = earlier ++ .parse rxPosition length body :: later →
      DispatchesFrame received earlier rxPosition length body

section DispatchesFrames

variable {received : List UInt8} {events : List ReaderEvent}

/-- What is received later does not matter. -/
theorem DispatchesFrames.receive (h : DispatchesFrames received events) (more : List UInt8) :
    DispatchesFrames (received ++ more) events := by
  intro earlier rxPosition length body later hevents
  obtain ⟨hlength, hmin, hmax, hbody, hstores, lo, hi, after, hannounced, hsplits⟩ :=
    h earlier rxPosition length body later hevents
  refine ⟨hlength, hmin, hmax, hbody, hstores, lo, hi, after ++ more, hannounced, ?_⟩
  have hmore := hsplits.receive more
  rwa [List.append_assoc] at hmore

/-- One event more. -/
theorem DispatchesFrames.concat (h : DispatchesFrames received events) {e : ReaderEvent}
    (he : ∀ rxPosition length body, e = .parse rxPosition length body →
      DispatchesFrame received events rxPosition length body) :
    DispatchesFrames received (events ++ [e]) := by
  intro earlier rxPosition length body later hevents
  -- the parser call is the new event, or there is something behind it and it is an old one
  rcases List.eq_nil_or_concat later with rfl | ⟨later, e', rfl⟩
  · obtain ⟨rfl, heq⟩ := List.append_inj' hevents rfl
    exact he _ _ _ (List.singleton_injective heq)
  · rw [List.concat_eq_append, ← List.cons_append, ← List.append_assoc] at hevents
    exact h earlier rxPosition length body later (List.append_inj' hevents rfl).1

end DispatchesFrames

/-! ## The held bytes -/

namespace ReaderState

/-- An idle receiver holds nothing. -/
theorem heldBytes_of_idle {s : ReaderState} (h : s.rxPosition = 0) : s.heldBytes = [] := by
  rw [heldBytes, h]
  rfl

/-- A stored byte is held behind the others. -/
theorem heldBytes_storeByte {s : ReaderState} (h : s.rxPosition.toNat < maxFrameSize)
    (b : UInt8) : (s.storeByte b).heldBytes = s.heldBytes ++ [b] := by
  have hslice := slice_update_succ (view s.rxBuffer) 0 s.rxPosition.toNat b
  rw [Nat.zero_add] at hslice
  rw [heldBytes, view_storeByte b h, s.storeByte_rxPosition_toNat b h, hslice, heldBytes]

/-- A frame that is held whole is a header and the bytes behind it. -/
theorem heldBytes_of_body {s : ReaderState} {n : ℕ} (h : s.rxPosition.toNat = 3 + n)
    (hstart : view s.rxBuffer 0 = startByte) :
    s.heldBytes = startByte :: view s.rxBuffer 1 :: view s.rxBuffer 2 ::
      slice (view s.rxBuffer) 3 n := by
  have hheader : slice (view s.rxBuffer) 0 3
      = [view s.rxBuffer 0, view s.rxBuffer 1, view s.rxBuffer 2] := rfl
  rw [heldBytes, h, slice_add, hheader, hstart]
  rfl

end ReaderState

/-! ## The invariant -/

/-- What holds of the bytes received, of what has been done, and of the statics after that. -/
structure Disciplined (received : List UInt8) (events : List ReaderEvent) (s : ReaderState) :
    Prop where
  /-- Stores are inside the buffer. -/
  inside : ∀ index, .store index ∈ events → index < maxFrameSize
  /-- What is held starts with a start byte. -/
  start : s.rxPosition ≠ 0 → view s.rxBuffer 0 = startByte
  /-- The last stores are those of the held bytes. -/
  stored : ∃ before, events = before ++ storesUpTo s.rxPosition.toNat
  /-- The held bytes come right behind the frames dispatched. -/
  reading : SplitsAs companionFormat received (parsedBodies events) s.heldBytes
  /-- The dispatches were those of frames. -/
  dispatches : DispatchesFrames received events

/-- An idle receiver without a history. -/
theorem disciplined_of_idle {s : ReaderState} (h : s.rxPosition = 0) : Disciplined [] [] s := by
  constructor
  · intro index hmem
    exact absurd hmem List.not_mem_nil
  · exact fun h0 => absurd h h0
  · exact ⟨[], by rw [h]; rfl⟩
  · rw [s.heldBytes_of_idle h]
    exact splitsAs_nil
  · intro earlier rxPosition length body later hevents
    exact absurd hevents.symm (List.append_ne_nil_of_right_ne_nil _ (List.cons_ne_nil _ _))

namespace Disciplined

variable {received : List UInt8} {events : List ReaderEvent} {s : ReaderState} {b : UInt8}

/-- Noise between frames is received. -/
theorem noise (h : Disciplined received events s) (h0 : s.rxPosition = 0) (hb : b ≠ startByte) :
    Disciplined (received ++ [b]) events s := by
  refine ⟨h.inside, h.start, h.stored, ?_, h.dispatches.receive [b]⟩
  have hreading := h.reading.receive [b]
  rw [s.heldBytes_of_idle h0] at hreading ⊢
  have hnoise : SplitsAs companionFormat (received ++ [b]) (parsedBodies events ++ []) [] :=
    hreading.segment (g := .noise b) hb
  rwa [List.append_nil] at hnoise

/-- A byte is received and stored. -/
theorem store (h : Disciplined received events s) (hpos : s.rxPosition.toNat < maxFrameSize)
    (hb : s.rxPosition = 0 → b = startByte) :
    Disciplined (received ++ [b]) (events ++ [s.storeEvent]) (s.storeByte b) := by
  constructor
  · intro index hmem
    rcases List.mem_append.mp hmem with hold | hnew
    · exact h.inside index hold
    · obtain rfl : index = s.rxPosition.toNat := by
        simpa [ReaderState.storeEvent] using hnew
      exact hpos
  · intro _
    exact ReaderState.startByte_storeByte hpos h.start hb
  · obtain ⟨before, hbefore⟩ := h.stored
    refine ⟨before, ?_⟩
    rw [s.storeByte_rxPosition_toNat b hpos, storesUpTo_succ, ← List.append_assoc, ← hbefore]
    rfl
  · have hnone : parsedBodies [s.storeEvent] = [] := rfl
    rw [ReaderState.heldBytes_storeByte hpos, parsedBodies_append, hnone, List.append_nil]
    exact h.reading.receive [b]
  · apply (h.dispatches.receive [b]).concat
    intro rxPosition length body heq
    cases heq

/-- A bare header that announces too much is dropped. -/
theorem drop (h : Disciplined received events s) (h3 : s.rxPosition.toNat = 3)
    (hlong : 169 < lengthField s.rxBuffer) (hskip : lengthField s.rxBuffer ≤ 65532) :
    Disciplined received events s.reset := by
  have hstart := h.start (body_of_three_le h3.ge).1
  have hreading := h.reading
  have hvalid : (Segment.skipped (view s.rxBuffer 1) (view s.rxBuffer 2)).Valid
      companionFormat := by
    rw [Segment.Valid, verdict_eq, if_neg (by omega), if_pos hskip]
  refine ⟨h.inside, fun h0 => absurd rfl h0, ⟨events, (List.append_nil _).symm⟩, ?_,
    h.dispatches⟩
  rw [ReaderState.heldBytes_of_body (n := 0) h3 hstart] at hreading
  have hskipped : SplitsAs companionFormat received (parsedBodies events ++ []) [] :=
    hreading.segment hvalid
  rwa [List.append_nil] at hskipped

/-- A frame that is held whole is dispatched. -/
theorem dispatch (h : Disciplined received events s) (hle : lengthField s.rxBuffer ≤ 169)
    (hpos : s.rxPosition.toNat = 3 + lengthField s.rxBuffer) :
    Disciplined received (events ++ s.dispatch.2) s.dispatch.1 := by
  have h3 : 3 ≤ s.rxPosition.toNat := by omega
  have hbody : (slice (view s.rxBuffer) 3 (lengthField s.rxBuffer)).length
      = lengthField s.rxBuffer := length_slice ..
  have hframe : (frameLength s.rxBuffer).toNat = s.rxPosition.toNat := by
    rw [frameLength_toNat, hpos]
    omega
  have hvalid : (Segment.frame (view s.rxBuffer 1) (view s.rxBuffer 2)
      (slice (view s.rxBuffer) 3 (lengthField s.rxBuffer))).Valid companionFormat := by
    rw [Segment.Valid, verdict_eq, if_pos hle, hbody]
  have hreading := h.reading
  rw [ReaderState.heldBytes_of_body hpos (h.start (body_of_three_le h3).1)] at hreading
  rw [ReaderState.dispatch_eq hle]
  constructor
  · intro index hmem
    rcases List.mem_append.mp hmem with hold | hnew
    · exact h.inside index hold
    · simp at hnew
  · exact fun h0 => absurd rfl h0
  · exact ⟨_, (List.append_nil _).symm⟩
  · rw [parsedBodies_append]
    exact hreading.segment hvalid
  · -- the call of the parser, and then that of the callback
    rw [List.append_cons]
    refine DispatchesFrames.concat (h.dispatches.concat ?_) ?_
    · intro rxPosition length body heq
      obtain ⟨rfl, rfl, rfl⟩ := ReaderEvent.parse.inj heq
      refine ⟨UInt16.toNat_inj.mp hframe, by omega, by omega, by omega, ?_, ?_⟩
      · rw [hframe]
        exact h.stored
      · refine ⟨view s.rxBuffer 1, view s.rxBuffer 2, [], ?_, ?_⟩
        · rw [hbody, announcedLength, ← lengthField_eq]
        · rwa [List.append_nil]
    · intro rxPosition length body heq
      cases heq

end Disciplined

/-! ## Whole sessions -/

/-- A frame length that fits the buffer, and has not wrapped around, is that of the length field. -/
theorem lengthField_of_frameLength {rxBuffer : Vector UInt8 maxFrameSize}
    (h3 : 3 ≤ (frameLength rxBuffer).toNat)
    (hbound : (frameLength rxBuffer).toNat ≤ maxFrameSize) :
    lengthField rxBuffer ≤ 169 ∧ (frameLength rxBuffer).toNat = 3 + lengthField rxBuffer := by
  have hlength := frameLength_toNat rxBuffer
  have hfield := lengthField_lt rxBuffer
  unfold maxFrameSize at hbound
  omega

/-- The discipline, and the well-formed statics, are kept from one point of a call to another, with
the bytes consumed in between received. -/
def KeepsDiscipline (c c' : ReadCall) : Prop :=
  c.state.WellFormed → ∀ received events, Disciplined received (events ++ c.trace) c.state →
    ∃ consumed, c.receivedData = consumed ++ c'.receivedData ∧ c'.state.WellFormed ∧
      Disciplined (received ++ consumed) (events ++ c'.trace) c'.state

/-- Nothing done. -/
theorem KeepsDiscipline.refl (c : ReadCall) : KeepsDiscipline c c := by
  intro hwf received events h
  exact ⟨[], rfl, hwf, by rwa [List.append_nil]⟩

/-- One thing done after the other. -/
theorem KeepsDiscipline.trans {c c' c'' : ReadCall} (h : KeepsDiscipline c c')
    (h' : KeepsDiscipline c' c'') : KeepsDiscipline c c'' := by
  intro hwf received events hc
  obtain ⟨consumed, hdata, hwf', hc'⟩ := h hwf received events hc
  obtain ⟨consumed', hdata', hwf'', hc''⟩ := h' hwf' (received ++ consumed) events hc'
  refine ⟨consumed ++ consumed', ?_, hwf'', ?_⟩
  · rw [hdata, hdata', List.append_assoc]
  · rwa [List.append_assoc] at hc''

/-- The moves that store a byte. -/
theorem disciplined_storeMove {received : List UInt8} {events trace : List ReaderEvent}
    {s : ReaderState} {b : UInt8}
    (hwf : s.WellFormed) (h : Disciplined received (events ++ trace) s)
    (hb : s.rxPosition = 0 → b = startByte)
    (hbody : 3 ≤ s.rxPosition.toNat →
      s.rxPosition.toNat + 1 < 3 + lengthField s.rxBuffer ∧ lengthField s.rxBuffer ≤ 169) :
    (s.storeByte b).WellFormed ∧
      Disciplined (received ++ [b]) (events ++ (trace ++ [s.storeEvent])) (s.storeByte b) := by
  rw [← List.append_assoc]
  exact ⟨hwf.storeByte hb hbody, h.store hwf.rxPosition_lt hb⟩

/-- **Every move keeps the discipline**, and the statics well formed. -/
theorem keepsDiscipline_moves {c c' : ReadCall} (hmoves : Moves c c') : KeepsDiscipline c c' := by
  obtain ⟨s, receivedData, trace⟩ := c
  intro hwf received events h
  change s.WellFormed at hwf
  change Disciplined received (events ++ trace) s at h
  cases hmoves with
  | @noise _ h0 b hb rest => exact ⟨[b], rfl, hwf, h.noise h0 hb⟩
  | start h0 rest =>
      refine ⟨[startByte], rfl, disciplined_storeMove hwf h (fun _ => rfl) ?_⟩
      intro h3
      exact absurd h0 (body_of_three_le h3).1
  | header h12 b rest =>
      have h0 := ne_zero_of_header h12
      refine ⟨[b], rfl, disciplined_storeMove hwf h (fun h => absurd h h0) ?_⟩
      intro h3
      exact absurd h12 (body_of_three_le h3).2
  | drop h3 hbound b rest =>
      have hlength := frameLength_toNat s.rxBuffer
      have hfield := lengthField_lt s.rxBuffer
      unfold maxFrameSize at hbound
      -- a body is not begun behind such a length
      have hbare := hwf.bare h3 (.inr (by omega))
      refine ⟨[], rfl, ReaderState.wellFormed_of_idle s.reset_rxPosition, ?_⟩
      rw [List.append_nil]
      exact h.drop hbare (by omega) (by omega)
  | more h3 hbound hlt b rest =>
      have h0 := (body_of_three_le h3).1
      obtain ⟨hle, hlength⟩ := lengthField_of_frameLength (by omega) hbound
      refine ⟨[b], rfl, disciplined_storeMove hwf h (fun h => absurd h h0) ?_⟩
      intro _
      omega
  | last h3 hbound hlast b rest =>
      have hpos := hwf.rxPosition_lt
      have h0 := (body_of_three_le h3).1
      obtain ⟨hle, hlength⟩ := lengthField_of_frameLength (by omega) hbound
      have hfield := ReaderState.lengthField_storeByte h3 hpos b
      have hsucc := s.storeByte_rxPosition_toNat b hpos
      have hstored := h.store (b := b) hpos fun h => absurd h h0
      have hdispatched := hstored.dispatch (by omega) (by omega)
      rw [List.append_assoc, List.append_assoc] at hdispatched
      exact ⟨[b], rfl, ReaderState.wellFormed_of_idle (s.storeByte b).dispatch_rxPosition,
        hdispatched⟩
  | complete h3 hbound heq b rest =>
      rw [heq] at h3
      obtain ⟨hle, hlength⟩ := lengthField_of_frameLength h3 hbound
      have hdispatched := h.dispatch hle (by rw [heq, hlength])
      rw [List.append_assoc] at hdispatched
      refine ⟨[], rfl, ReaderState.wellFormed_of_idle s.dispatch_rxPosition, ?_⟩
      rwa [List.append_nil]

/-- An iteration of the loop keeps it. -/
theorem keepsDiscipline_readStep (c : ReadCall) : KeepsDiscipline c (readStep c) := by
  have hmoves := moves_readStep c
  generalize readStep c = c' at hmoves ⊢
  induction hmoves with
  | refl => exact .refl c
  | tail _ hmove ih => exact ih.trans (keepsDiscipline_moves hmove)

/-- A call keeps it wherever it comes to, whether or not it returns. -/
theorem keepsDiscipline_visits {c c' : ReadCall}
    (hvisits : mcCompanionReadSerialCommand.Visits c c') : KeepsDiscipline c c' := by
  induction hvisits with
  | start c => exact .refl c
  | @iterate c c' _ _ ih => exact (keepsDiscipline_readStep c).trans ih

/-- A sequence of calls that returned keeps it. -/
theorem disciplined_readsChunks {received : List UInt8} {events events' : List ReaderEvent}
    {s s' : ReaderState} {chunks : List (List UInt8)} (hchunks : ReadsChunks s chunks s' events')
    (hwf : s.WellFormed) (h : Disciplined received events s) :
    s'.WellFormed ∧ Disciplined (received ++ chunks.flatten) (events ++ events') s' := by
  induction hchunks generalizing received events with
  | nil => simpa using ⟨hwf, h⟩
  | @cons s s₁ s' data chunks events₁ events₂ hread _ ih =>
      have hvisits := WhileLoop.Exits.visits hread
      obtain ⟨consumed, hdata, hwf', h'⟩ :=
        keepsDiscipline_visits hvisits hwf received events (by rwa [List.append_nil])
      have hall : data = consumed := by rw [← List.append_nil consumed, ← hdata]
      obtain ⟨hwf'', h''⟩ := ih hwf' h'
      refine ⟨hwf'', ?_⟩
      rwa [← hall, List.append_assoc, List.append_assoc] at h''

/-- **The buffer is used with discipline in every reachable state.** Whatever chunks have been fed
to a fresh receiver by calls that returned, and wherever the next call is in its loop, whether or
not it returns: every store so far was inside the buffer, the position is at most 171, the first
byte held is a start byte, and every dispatch so far was that of a frame: the recomputed length is
the position, from 3 to 172, and the parser was handed exactly the body bytes that were received
behind this frame's own start byte and header. -/
theorem buffer_disciplined {chunks : List (List UInt8)} {s : ReaderState}
    {events : List ReaderEvent} (hchunks : ReadsChunks ReaderState.initial chunks s events)
    {data : List UInt8} {c : ReadCall}
    (hvisits : mcCompanionReadSerialCommand.Visits ⟨s, data, []⟩ c) :
    ∃ received, chunks.flatten ++ data = received ++ c.receivedData ∧
      (∀ index, .store index ∈ events ++ c.trace → index < 172) ∧
      c.state.rxPosition.toNat ≤ 171 ∧
      (1 ≤ c.state.rxPosition.toNat → view c.state.rxBuffer 0 = startByte) ∧
      DispatchesFrames received (events ++ c.trace) := by
  obtain ⟨hwf, h⟩ := disciplined_readsChunks hchunks (ReaderState.wellFormed_of_idle rfl)
    (disciplined_of_idle (s := ReaderState.initial) rfl)
  rw [List.nil_append, List.nil_append] at h
  obtain ⟨consumed, hdata, hwf', h'⟩ :=
    keepsDiscipline_visits hvisits hwf chunks.flatten events (by rwa [List.append_nil])
  have hpos := hwf'.rxPosition_lt
  have hsplit : data = consumed ++ c.receivedData := hdata
  refine ⟨chunks.flatten ++ consumed, ?_, h'.inside, Nat.le_of_lt_succ hpos, ?_, h'.dispatches⟩
  · rw [hsplit, List.append_assoc]
  · intro hone
    apply h'.start
    intro h0
    rw [h0] at hone
    exact absurd hone (by decide)

/-- A device query behind a byte of noise, up to the return of the call that dispatches it. -/
theorem buffer_disciplined_deviceQuery :
    ∃ c, ReadsChunks ReaderState.initial [[65]] ReaderState.initial [] ∧
      mcCompanionReadSerialCommand.Visits ⟨ReaderState.initial, [60, 2, 0, 22, 3], []⟩ c ∧
      ∃ received, [[65]].flatten ++ [60, 2, 0, 22, 3] = received ++ c.receivedData ∧
        (∀ index, .store index ∈ [] ++ c.trace → index < 172) ∧
        c.state.rxPosition.toNat ≤ 171 ∧
        (1 ≤ c.state.rxPosition.toNat → view c.state.rxBuffer 0 = startByte) ∧
        DispatchesFrames received ([] ++ c.trace) := by
  have hchunks : ReadsChunks ReaderState.initial [[65]] ReaderState.initial [] :=
    readsChunks_iff_runChunks.mpr rfl
  have hvalid : ∀ g ∈ [Segment.frame 2 0 [22, 3]], g.Valid companionFormat := by
    simp [Segment.Valid, companionFormat]
  obtain ⟨s, events, hread, -⟩ :=
    reads_one_body (s := ReaderState.initial) rfl hvalid (by simp [Segment.Settled]) rfl
  have hvisits : mcCompanionReadSerialCommand.Visits
      ⟨ReaderState.initial, [60, 2, 0, 22, 3], []⟩ ⟨s, [], events⟩ :=
    WhileLoop.Exits.visits hread
  exact ⟨_, hchunks, hvisits, buffer_disciplined hchunks hvisits⟩

end MeshcoreC
