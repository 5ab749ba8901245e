import MeshcoreC.Companion.FramedReceiver

/-! # Which frames the callback sees

* **`readsChunks_iff`** — the way a stream is cut into calls does not matter, for calls that return
  and for calls that do not.
* **`reads_segments`** — a stream of noise, oversized headers and non-empty frames invokes the
  callback once per frame, in order, with what the parser makes of the body. -/

namespace MeshcoreC

open Buffers Streams Framing

/-! ## Cutting the stream -/

/-- A sequence of calls, each of which returns. -/
inductive ReadsChunks : ReaderState → List (List UInt8) → ReaderState → List ReaderEvent → Prop
  /-- No call. -/
  | nil (s : ReaderState) : ReadsChunks s [] s []
  /-- A call, then the others. -/
  | cons {s s₁ s' : ReaderState} {data : List UInt8} {chunks : List (List UInt8)}
      {events events' : List ReaderEvent} (hread : Reads s data s₁ events)
      (hrest : ReadsChunks s₁ chunks s' events') :
      ReadsChunks s (data :: chunks) s' (events ++ events')

/-- A sequence of calls is a chunked run of the byte machine. -/
theorem readsChunks_iff_runChunks {s s' : ReaderState} {chunks : List (List UInt8)}
    {events : List ReaderEvent} :
    ReadsChunks s chunks s' events ↔ receiver.runChunks s chunks = some (s', events) := by
  constructor
  · intro h
    induction h with
    | nil => rfl
    | cons hread _ ih =>
        rw [Transducer.runChunks, reads_iff_run.mp hread, Option.bind_some, ih]
        rfl
  · intro h
    induction chunks generalizing s events with
    | nil =>
        obtain ⟨rfl, rfl⟩ := Prod.mk.inj (Option.some.inj h)
        exact .nil s
    | cons data chunks ih =>
        rw [Transducer.runChunks, Option.bind_eq_some_iff] at h
        obtain ⟨⟨s₁, events₁⟩, hfirst, hrest⟩ := h
        obtain ⟨events₂, hchunks, rfl⟩ := prepend_eq_some_iff.mp hrest
        exact .cons (reads_iff_run.mpr hfirst) (ih hchunks)

/-- What a call on `a ++ b` performs: what the call on `a` does, and what the call on `b` performs
behind it, unless the call on `a` does not return. -/
theorem performs_append_iff {s : ReaderState} {a b : List UInt8} {events : List ReaderEvent} :
    Performs s (a ++ b) events ↔
      (∃ s₁ events₁ events₂, Reads s a s₁ events₁ ∧ Performs s₁ b events₂ ∧
        events = events₁ ++ events₂) ∨ ¬ Returns s a ∧ Performs s a events := by
  simp only [performs_iff_outputs, reads_iff_run, returns_iff_run, not_not]
  constructor
  · rintro rfl
    cases hrun : receiver.run s a with
    | none => exact .inr ⟨rfl, (receiver.outputs_append_of_stuck hrun b).symm⟩
    | some r => exact .inl ⟨_, _, _, rfl, rfl, receiver.outputs_append_of_run hrun b⟩
  · rintro (⟨s₁, events₁, _, hrun, rfl, rfl⟩ | ⟨hstuck, rfl⟩)
    · exact receiver.outputs_append_of_run hrun b
    · exact receiver.outputs_append_of_stuck hstuck b

/-- A sequence of calls performs these events: the calls are made one after the other as long as
they return, and none behind a call that does not. -/
inductive PerformsChunks : ReaderState → List (List UInt8) → List ReaderEvent → Prop
  /-- No call. -/
  | nil (s : ReaderState) : PerformsChunks s [] []
  /-- A call that returns, then the others. -/
  | returns {s s₁ : ReaderState} {data : List UInt8} {chunks : List (List UInt8)}
      {events events' : List ReaderEvent} (hread : Reads s data s₁ events)
      (hrest : PerformsChunks s₁ chunks events') :
      PerformsChunks s (data :: chunks) (events ++ events')
  /-- A call that does not return. -/
  | hangs {s : ReaderState} {data : List UInt8} {chunks : List (List UInt8)}
      {events : List ReaderEvent} (hhang : ¬ Returns s data) (hperforms : Performs s data events) :
      PerformsChunks s (data :: chunks) events

/-- The events of a sequence of calls are those of one call on the whole stream. -/
theorem performsChunks_iff_outputs {s : ReaderState} {chunks : List (List UInt8)}
    {events : List ReaderEvent} :
    PerformsChunks s chunks events ↔ receiver.outputs s chunks.flatten = events := by
  constructor
  · intro h
    induction h with
    | nil => rfl
    | returns hread _ ih =>
        rw [List.flatten_cons, ← performs_iff_outputs, performs_append_iff]
        exact .inl ⟨_, _, _, hread, performs_iff_outputs.mpr ih, rfl⟩
    | hangs hhang hperforms =>
        rw [List.flatten_cons, ← performs_iff_outputs, performs_append_iff]
        exact .inr ⟨hhang, hperforms⟩
  · intro h
    induction chunks generalizing s events with
    | nil =>
        obtain rfl := h
        exact .nil s
    | cons data chunks ih =>
        rw [List.flatten_cons, ← performs_iff_outputs, performs_append_iff] at h
        rcases h with ⟨s₁, events₁, events₂, hread, hrest, rfl⟩ | ⟨hhang, hperforms⟩
        · exact .returns hread (ih (performs_iff_outputs.mp hrest))
        · exact .hangs hhang hperforms

/-- **The cutting of the stream into reads does not matter.** From any state of the statics, a call
on `a` and then one on `b` do exactly what one call on `a ++ b` does: the same events in the same
order, the same statics afterwards, and one side returns exactly when the other does. The same holds
of any number of chunks. A call that never returns has performed some events, too, its callbacks
among them, and these do not depend on the cutting either. -/
theorem readsChunks_iff (s : ReaderState) :
    (∀ a b s' events, Reads s (a ++ b) s' events ↔
      ∃ s₁ events₁ events₂, Reads s a s₁ events₁ ∧ Reads s₁ b s' events₂ ∧
        events = events₁ ++ events₂) ∧
    (∀ a b, Returns s (a ++ b) ↔ ∃ s₁ events₁, Reads s a s₁ events₁ ∧ Returns s₁ b) ∧
    (∀ chunks s' events, ReadsChunks s chunks s' events ↔ Reads s chunks.flatten s' events) ∧
    (∀ a b events, Performs s (a ++ b) events ↔
      (∃ s₁ events₁ events₂, Reads s a s₁ events₁ ∧ Performs s₁ b events₂ ∧
        events = events₁ ++ events₂) ∨ ¬ Returns s a ∧ Performs s a events) ∧
    (∀ chunks events, PerformsChunks s chunks events ↔ Performs s chunks.flatten events) ∧
    ∀ data, ∃! events, Performs s data events := by
  refine ⟨?_, ?_, ?_, ?_, ?_, ?_⟩
  · intro a b s' events
    simp only [reads_iff_run]
    exact receiver.run_append_eq_some_iff
  · intro a b
    simp only [returns_iff_run, reads_iff_run, Option.ne_none_iff_exists']
    constructor
    · rintro ⟨⟨s', events⟩, hrun⟩
      obtain ⟨s₁, events₁, events₂, hfirst, hsecond, -⟩ :=
        receiver.run_append_eq_some_iff.mp hrun
      exact ⟨s₁, events₁, hfirst, _, hsecond⟩
    · rintro ⟨s₁, events₁, hfirst, ⟨s', events₂⟩, hsecond⟩
      exact ⟨_, receiver.run_append_eq_some_iff.mpr ⟨s₁, events₁, events₂, hfirst, hsecond, rfl⟩⟩
  · intro chunks s' events
    rw [readsChunks_iff_runChunks, Transducer.runChunks_eq_run_flatten, reads_iff_run]
  · intro a b events
    exact performs_append_iff
  · intro chunks events
    rw [performsChunks_iff_outputs, performs_iff_outputs]
  · intro data
    exact ⟨_, performs_iff_outputs.mpr rfl, fun _ h => (performs_iff_outputs.mp h).symm⟩

/-! ## Streams of segments -/

/-- The length announced by two header bytes. -/
def announcedLength (lo hi : UInt8) : ℕ := lo.toNat + 256 * hi.toNat

/-- The segments of a well-behaved stream: bytes other than `'<'`, headers with a length from 170 to
65532, and frames with a body of 1 to 169 bytes. -/
def StreamSegment : Segment UInt8 → Prop
  | .noise b => b ≠ startByte
  | .skipped lo hi => 170 ≤ announcedLength lo hi ∧ announcedLength lo hi ≤ 65532
  | .frame lo hi body => announcedLength lo hi = body.length ∧ 1 ≤ body.length ∧ body.length ≤ 169

/-- The segments of a well-behaved stream are segments of the format. -/
theorem StreamSegment.valid {g : Segment UInt8} (h : StreamSegment g) :
    g.Valid companionFormat := by
  cases g with
  | noise b => exact h
  | skipped lo hi =>
      obtain ⟨hge, hle⟩ := h
      simp only [announcedLength] at hge hle
      simp only [Segment.Valid, companionFormat]
      rw [if_neg (by omega), if_pos hle]
  | frame lo hi body =>
      obtain ⟨heq, -, hle⟩ := h
      simp only [announcedLength] at heq
      simp only [Segment.Valid, companionFormat]
      rw [if_pos (by omega), heq]

/-- What the callback receives for a body while the packet buffer holds `packet`. -/
def parsedFrom (packet : CommandPacket) (body : List UInt8) : CommandPacket × ParserError :=
  ((mcCompanionParseCommand body packet).2, (mcCompanionParseCommand body packet).1)

/-- Serving one more body. -/
theorem commandServer_run_cons (packet : CommandPacket) (data : List UInt8)
    (bodies : List (List UInt8)) :
    commandServer.run packet (data :: bodies) =
      prepend [parsedFrom packet data]
        (commandServer.run (mcCompanionParseCommand data packet).2 bodies) := rfl

/-- Non-empty bodies are served as from a zeroed packet, whatever the packet buffer holds. -/
theorem commandServer_run_of_ne_nil (packet : CommandPacket) (bodies : List (List UInt8))
    (h : ∀ body ∈ bodies, body ≠ []) :
    ∃ packet', commandServer.run packet bodies
      = some (packet', bodies.map (parsedFrom CommandPacket.zero)) := by
  induction bodies generalizing packet with
  | nil => exact ⟨packet, rfl⟩
  | cons body bodies ih =>
      have hbody : mcCompanionParseCommand body packet
          = mcCompanionParseCommand body CommandPacket.zero :=
        mcCompanionParseCommand_congr (h body (by simp)) _ _
      -- the rest is served from the packet this body has left behind
      obtain ⟨packet', hrun⟩ := ih (mcCompanionParseCommand body CommandPacket.zero).2
        (fun body' hmem => h body' (by simp [hmem]))
      refine ⟨packet', ?_⟩
      rw [commandServer_run_cons, parsedFrom, hbody, hrun]
      rfl

/-- The bodies of a well-behaved stream are not empty. -/
theorem StreamSegment.body_ne_nil {segs : List (Segment UInt8)}
    (h : ∀ g ∈ segs, StreamSegment g) : ∀ body ∈ segmentBodies segs, body ≠ [] := by
  intro body hbody
  obtain ⟨g, hg, hmem⟩ := List.mem_flatMap.mp hbody
  cases g with
  | noise => simp [Segment.bodies] at hmem
  | skipped => simp [Segment.bodies] at hmem
  | frame lo hi body' =>
      obtain rfl : body = body' := by simpa [Segment.bodies] using hmem
      have hlen := (h _ hg).2.1
      rintro rfl
      simp at hlen

/-- What the deframer makes of a well-behaved stream: all its bodies, and it is idle unless the
stream ends in an oversized header. -/
theorem deframer_run_stream {segs : List (Segment UInt8)} (h : ∀ g ∈ segs, StreamSegment g) :
    ∃ p, companionFormat.deframer.run .idle (segmentBytes companionFormat segs)
        = some (p, segmentBodies segs) ∧
      ((∀ lo hi, segs.getLast? ≠ some (.skipped lo hi)) → p = .idle) := by
  have hvalid : ∀ g ∈ segs, g.Valid companionFormat := fun g hg => (h g hg).valid
  by_cases hlast : ∃ lo hi, segs.getLast? = some (.skipped lo hi)
  · -- the last header is still held: it is judged when another byte comes
    obtain ⟨lo, hi, hlast⟩ := hlast
    obtain ⟨init, rfl⟩ := List.getLast?_eq_some_iff.mp hlast
    refine ⟨.inside lo hi [], run_segments_skipped (fun g hg => hvalid g (by simp [hg])) lo hi, ?_⟩
    intro hnot
    exact absurd hlast (hnot lo hi)
  · push Not at hlast
    refine ⟨.idle, run_segments hvalid ?_, fun _ => rfl⟩
    intro g hg
    have hmem : g ∈ segs := List.mem_of_getLast? hg
    cases g with
    | noise => trivial
    | skipped lo hi => exact absurd hg (hlast lo hi)
    | frame lo hi body =>
        -- a frame with a body is settled by its last byte
        rintro rfl
        have hlen := (h _ hmem).2.1
        simp at hlen

/-- **No frame is lost, duplicated, reordered or invented.** A call on a stream of segments, from
any idle state, returns; it invokes the callback exactly once per frame, in order, with what the
parser produces from a zeroed packet on the frame's body; and it ends idle unless the last segment
is an oversized header. -/
theorem reads_segments (s : ReaderState) (hidle : s.rxPosition = 0) (segs : List (Segment UInt8))
    (hsegs : ∀ g ∈ segs, StreamSegment g) :
    ∃ s' events, Reads s (segmentBytes companionFormat segs) s' events ∧
      callbacks events = (segmentBodies segs).map (parsedFrom CommandPacket.zero) ∧
      ((∀ lo hi, segs.getLast? ≠ some (.skipped lo hi)) → s'.rxPosition = 0) := by
  obtain ⟨p, hdeframe, hp⟩ := deframer_run_stream hsegs
  obtain ⟨packet, hserve⟩ := commandServer_run_of_ne_nil s.commandPacketBuffer (segmentBodies segs)
    (StreamSegment.body_ne_nil hsegs)
  rw [← ReaderState.pending_of_idle hidle] at hdeframe
  obtain ⟨s', events, hrun, -, hpending, -, hcallbacks⟩ :=
    run_of_deframed (ReaderState.wellFormed_of_idle hidle) hdeframe hserve
  refine ⟨s', events, reads_iff_run.mpr hrun, hcallbacks, ?_⟩
  intro hlast
  exact ReaderState.idle_of_pending (hpending.trans (hp hlast))

/-- A line feed, an oversized header and a frame whose body holds a start byte, in a fresh
receiver. -/
theorem reads_segments_initial :
    ∃ s' events, Reads ReaderState.initial [10, 60, 170, 0, 60, 2, 0, 22, 60] s' events ∧
      callbacks events = [parsedFrom CommandPacket.zero [22, 60]] ∧ s'.rxPosition = 0 := by
  have hsegs : ∀ g ∈ [Segment.noise 10, .skipped 170 0, .frame 2 0 [22, 60]], StreamSegment g := by
    simp [StreamSegment, announcedLength, startByte]
  obtain ⟨s', events, hread, hcallbacks, hlast⟩ :=
    reads_segments ReaderState.initial rfl _ hsegs
  exact ⟨s', events, hread, hcallbacks, hlast (by simp)⟩

end MeshcoreC
