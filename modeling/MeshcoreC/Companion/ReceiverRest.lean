import MeshcoreC.Companion.FrameDelivery
import MeshcoreC.Companion.ReaderTermination
import MeshcoreC.Library.FramingRuns

/-! # Where the receiver rests between calls

What a call leaves behind when it returns, and how long noise takes to clear it.

* **`noFrameWaits_iff`** — a finished frame or an unacceptable header is left waiting exactly when
  the stream ends in a bare header of that kind: it is judged only when one more byte arrives.
* **`resyncsWithin_iff`** — 171 bytes other than `'<'` bring every receiver back to idle, and no
  fewer do. -/

namespace MeshcoreC

open Buffers Streams Framing

/-! ## At rest -/

/-- The receiver is idle, inside the three header bytes, or strictly inside the body of an
acceptable frame. -/
def ReaderState.AtRest (s : ReaderState) : Prop :=
  s.rxPosition = 0 ∨ s.rxPosition = 1 ∨ s.rxPosition = 2 ∨
    (3 ≤ s.rxPosition.toNat ∧ s.rxPosition.toNat < 3 + lengthField s.rxBuffer ∧
      3 + lengthField s.rxBuffer ≤ 172)

/-- The length of an empty frame, or one that the receiver does not accept. -/
def NoBodyExpected (lo hi : UInt8) : Prop :=
  announcedLength lo hi = 0 ∨ 170 ≤ announcedLength lo hi

/-- The stream is whole segments and then a bare header behind which no body is expected. -/
def EndsInBareHeader (w : List UInt8) : Prop :=
  ∃ segs lo hi, (∀ g ∈ segs, Segment.Valid companionFormat g) ∧ NoBodyExpected lo hi ∧
    w = segmentBytes companionFormat segs ++ [startByte, lo, hi]

/-- What the parser makes of some bodies, one after the other, in the packet buffer of a fresh
receiver. -/
def parserResults (bodies : List (List UInt8)) : List (CommandPacket × ParserError) :=
  commandServer.outputs CommandPacket.zero bodies

/-- The state and the events after the stream `w` leave nothing waiting: the receiver is at rest,
and of whatever whole segments `w` begins with, the frames have had their callbacks, in order and
with what the parser made of them. If there is nothing behind these segments, then the receiver is
idle, and there were no other callbacks. -/
def NoFrameWaits (w : List UInt8) (s : ReaderState) (events : List ReaderEvent) : Prop :=
  s.AtRest ∧ ∀ segs rest, (∀ g ∈ segs, Segment.Valid companionFormat g) →
    w = segmentBytes companionFormat segs ++ rest →
      parserResults (segmentBodies segs) <+: callbacks events ∧
      (rest = [] → s.rxPosition = 0 ∧ callbacks events = parserResults (segmentBodies segs))

/-- A well-formed receiver is not at rest exactly when it holds a bare header behind which no body
is expected. -/
theorem atRest_iff_pending {s : ReaderState} (hwf : s.WellFormed) :
    s.AtRest ↔ ¬ ∃ lo hi, NoBodyExpected lo hi ∧ s.pending = .inside lo hi [] := by
  constructor
  · rintro (h | h | h | ⟨h3, hlt, hle⟩) ⟨lo, hi, hlength, hp⟩
    · rw [ReaderState.pending, h] at hp
      cases hp
    · rw [ReaderState.pending, h] at hp
      cases hp
    · rw [ReaderState.pending, h] at hp
      cases hp
    · rw [s.pending_of_body h3] at hp
      obtain ⟨rfl, rfl, -⟩ := Pending.inside.inj hp
      rw [NoBodyExpected, announcedLength, ← lengthField_eq] at hlength
      have hbody := hwf.body
      -- an empty body leaves no position strictly inside it
      omega
  · intro h
    by_cases h0 : s.rxPosition = 0
    · exact .inl h0
    by_cases h12 : s.rxPosition = 1 ∨ s.rxPosition = 2
    · exact h12.elim (fun h1 => .inr (.inl h1)) (fun h2 => .inr (.inr (.inl h2)))
    have h3 := three_le_of_body h0 h12
    refine .inr (.inr (.inr ⟨h3, ?_⟩))
    by_cases hlt : 3 < s.rxPosition.toNat
    · obtain ⟨hinside, hle⟩ := hwf.body hlt
      exact ⟨hinside, by omega⟩
    · have hzero : s.rxPosition.toNat - 3 = 0 := by omega
      have hp := s.pending_of_body h3
      rw [hzero] at hp
      -- the header is bare, so its length must be an acceptable one
      by_contra hnot
      refine h ⟨_, _, ?_, hp⟩
      rw [NoBodyExpected, announcedLength, ← lengthField_eq]
      omega

/-- A header is skipped, or announces an empty body, only where no body is expected. -/
theorem noBodyExpected_of_verdict {lo hi : UInt8}
    (h : companionFormat.verdict lo hi = .skip ∨ companionFormat.verdict lo hi = .body 0) :
    NoBodyExpected lo hi := by
  simp only [companionFormat] at h
  rw [NoBodyExpected, announcedLength]
  by_cases hle : lo.toNat + 256 * hi.toNat ≤ 169
  · rw [if_pos hle] at h
    rcases h with h | h
    · cases h
    · exact .inl (Verdict.body.inj h)
  · exact .inr (by omega)

/-- Every body leads to one callback. -/
theorem length_of_commandServer_run {packet packet' : CommandPacket} {bodies : List (List UInt8)}
    {served : List (CommandPacket × ParserError)}
    (h : commandServer.run packet bodies = some (packet', served)) :
    served.length = bodies.length := by
  induction bodies generalizing packet served with
  | nil =>
      obtain ⟨-, rfl⟩ := Prod.mk.inj (Option.some.inj h)
      rfl
  | cons body bodies ih =>
      rw [commandServer_run_cons, prepend_eq_some_iff] at h
      obtain ⟨rest, hrun, rfl⟩ := h
      rw [List.singleton_append, List.length_cons, List.length_cons, ih hrun]

/-- A sequence of calls on a fresh receiver, abstractly: the deframer reads the whole stream, and
its bodies are served. -/
theorem deframed_of_readsChunks {chunks : List (List UInt8)} {s : ReaderState}
    {events : List ReaderEvent} (h : ReadsChunks ReaderState.initial chunks s events) :
    s.WellFormed ∧ ∃ bodies,
      companionFormat.deframer.run .idle chunks.flatten = some (s.pending, bodies) ∧
      commandServer.run CommandPacket.zero bodies
        = some (s.commandPacketBuffer, callbacks events) := by
  rw [readsChunks_iff_runChunks, Transducer.runChunks_eq_run_flatten] at h
  exact deframed_of_run (ReaderState.wellFormed_of_idle rfl) h

section Deframed

variable {s : ReaderState} {w : List UInt8} {bodies : List (List UInt8)} {packet : CommandPacket}
  {served : List (CommandPacket × ParserError)}
  (hdeframe : companionFormat.deframer.run .idle w = some (s.pending, bodies))
include hdeframe

/-- Behind a stream, the receiver is at rest exactly when the stream does not end in a bare header
behind which no body is expected. -/
theorem atRest_iff_stream (hwf : s.WellFormed) : s.AtRest ↔ ¬ EndsInBareHeader w := by
  rw [atRest_iff_pending hwf, not_iff_not]
  constructor
  · rintro ⟨lo, hi, hlength, hp⟩
    obtain ⟨segs, hsegs, hw⟩ := (held_header_iff hdeframe lo hi).mp hp
    exact ⟨segs, lo, hi, hsegs, hlength, hw⟩
  · rintro ⟨segs, lo, hi, hsegs, hlength, hw⟩
    exact ⟨lo, hi, hlength, (held_header_iff hdeframe lo hi).mpr ⟨segs, hsegs, hw⟩⟩

variable (hserve : commandServer.run CommandPacket.zero bodies = some (packet, served))
include hserve

/-- A stream of whole segments has been served to its end, unless it ends in a bare header. -/
theorem served_of_segments {segs : List (Segment UInt8)}
    (hsegs : ∀ g ∈ segs, Segment.Valid companionFormat g)
    (hw : w = segmentBytes companionFormat segs) (hends : ¬ EndsInBareHeader w) :
    s.rxPosition = 0 ∧ served = parserResults (segmentBodies segs) := by
  -- otherwise the last segment would be the bare header
  have hlast : ∀ g ∈ segs.getLast?, g.Settled := by
    by_contra hnot
    obtain ⟨init, lo, hi, hinit, hverdict, hbytes⟩ := exists_header_of_not_settled hsegs hnot
    exact hends ⟨init, lo, hi, hinit, noBodyExpected_of_verdict hverdict, hw.trans hbytes⟩
  rw [hw, run_segments hsegs hlast] at hdeframe
  obtain ⟨hp, rfl⟩ := Prod.mk.inj (Option.some.inj hdeframe)
  exact ⟨ReaderState.idle_of_pending hp.symm, (commandServer.outputs_of_run hserve).symm⟩

/-- Segments with one more byte behind them have been served. -/
theorem served_of_front {segs : List (Segment UInt8)} {rest : List UInt8}
    (hsegs : ∀ g ∈ segs, Segment.Valid companionFormat g)
    (hw : w = segmentBytes companionFormat segs ++ rest) (hmore : rest ≠ []) :
    parserResults (segmentBodies segs) <+: served := by
  rw [hw, run_segments_append hsegs hmore, prepend_eq_some_iff] at hdeframe
  obtain ⟨later, -, rfl⟩ := hdeframe
  obtain ⟨packet', first, servedLater, hfirst, -, rfl⟩ :=
    commandServer.run_append_eq_some_iff.mp hserve
  have hserved : parserResults (segmentBodies segs) = first := commandServer.outputs_of_run hfirst
  rw [hserved]
  exact List.prefix_append _ _

end Deframed

/-- **What is left waiting, exactly.** After any sequence of calls on a fresh receiver, each of
which returned, nothing is left waiting unless the stream so far ends in the bare header of an empty
frame or of an unacceptable length. -/
theorem noFrameWaits_iff {chunks : List (List UInt8)} {s : ReaderState}
    {events : List ReaderEvent} (h : ReadsChunks ReaderState.initial chunks s events) :
    NoFrameWaits chunks.flatten s events ↔ ¬ EndsInBareHeader chunks.flatten := by
  obtain ⟨hwf, bodies, hdeframe, hserve⟩ := deframed_of_readsChunks h
  have hrest := atRest_iff_stream hdeframe hwf
  constructor
  · rintro ⟨hatRest, -⟩
    exact hrest.mp hatRest
  · intro hends
    refine ⟨hrest.mpr hends, ?_⟩
    intro segs rest hsegs hw
    by_cases hmore : rest = []
    · subst hmore
      rw [List.append_nil] at hw
      obtain ⟨hidle, hserved⟩ := served_of_segments hdeframe hserve hsegs hw hends
      exact ⟨hserved ▸ List.prefix_rfl, fun _ => ⟨hidle, hserved⟩⟩
    · exact ⟨served_of_front hdeframe hserve hsegs hw hmore, fun hnil => absurd hnil hmore⟩

/-- A call that returns in `s'` is a sequence of one call. -/
theorem ReadsChunks.single {s s' : ReaderState} {data : List UInt8} {events : List ReaderEvent}
    (h : Reads s data s' events) : ReadsChunks s [data] s' events := by
  have hchunks := ReadsChunks.cons h (.nil s')
  rwa [List.append_nil] at hchunks

/-- What the deframer reads from idle, a call on a fresh receiver reads. -/
theorem reads_initial_of_deframed {w : List UInt8} {p : Pending UInt8} {bodies : List (List UInt8)}
    (h : companionFormat.deframer.run .idle w = some (p, bodies)) :
    ∃ s events, Reads ReaderState.initial w s events ∧ s.pending = p ∧
      callbacks events = parserResults bodies := by
  obtain ⟨⟨packet, served⟩, hserve⟩ := Option.ne_none_iff_exists'.mp
    (commandServer_run_ne_none CommandPacket.zero bodies)
  obtain ⟨s, events, hrun, -, hp, -, hcallbacks⟩ :=
    run_of_deframed (s := ReaderState.initial) (ReaderState.wellFormed_of_idle rfl) h hserve
  exact ⟨s, events, reads_iff_run.mpr hrun, hp,
    hcallbacks.trans (commandServer.outputs_of_run hserve).symm⟩

/-- A device query and all but one byte of the next one, in two calls: the first has had its
callback. -/
theorem noFrameWaits_iff_nextFrame :
    ∃ s events, ReadsChunks ReaderState.initial [[60, 2, 0, 22], [3, 60, 2, 0, 22]] s events ∧
      NoFrameWaits [[60, 2, 0, 22], [3, 60, 2, 0, 22]].flatten s events ∧
      callbacks events = [parsedFrom CommandPacket.zero [22, 3]] := by
  have hdeframe : companionFormat.deframer.run .idle [[60, 2, 0, 22], [3, 60, 2, 0, 22]].flatten
      = some (.inside 2 0 [22], [[22, 3]]) := rfl
  obtain ⟨s, events, hread, -, hcallbacks⟩ := reads_initial_of_deframed hdeframe
  have hchunks : ReadsChunks ReaderState.initial [[60, 2, 0, 22], [3, 60, 2, 0, 22]] s events := by
    rwa [readsChunks_iff_runChunks, Transducer.runChunks_eq_run_flatten, ← reads_iff_run]
  refine ⟨s, events, hchunks, (noFrameWaits_iff hchunks).mpr ?_, hcallbacks⟩
  -- the deframer would hold the bare header, and holds a byte of the body as well
  rintro ⟨segs, lo, hi, hsegs, -, hw⟩
  have hheld := (held_header_iff hdeframe lo hi).mpr ⟨segs, hsegs, hw⟩
  cases hheld

/-- The frame with no body, `'<' 00 00`, is left waiting. -/
theorem not_noFrameWaits_emptyFrame :
    ¬ ∀ chunks s events, ReadsChunks ReaderState.initial chunks s events →
      NoFrameWaits chunks.flatten s events := by
  intro h
  obtain ⟨s, events, hread, hp, -⟩ := reads_initial_of_deframed (w := [60, 0, 0]) rfl
  obtain ⟨hatRest, -⟩ := h [[60, 0, 0]] s events (.single hread)
  have hwf := wellFormed_of_reachable (.call .initial hread)
  exact (atRest_iff_pending hwf).mp hatRest ⟨0, 0, .inl rfl, hp⟩

/-! ## Noise -/

/-- After `n` bytes other than `'<'`, or more, every receiver on which the call returns is idle, and
at most one callback was made on the way. -/
def ResyncsWithin (n : ℕ) : Prop :=
  ∀ s, Reachable s → ∀ noise : List UInt8, n ≤ noise.length → (∀ b ∈ noise, b ≠ startByte) →
    ∀ s' events, Reads s noise s' events → s'.rxPosition = 0 ∧ (callbacks events).length ≤ 1

/-- No acceptable body is longer than 169 bytes. -/
theorem le_of_verdict_body (lo hi : UInt8) (n : ℕ) (h : companionFormat.verdict lo hi = .body n) :
    n ≤ 169 := by
  simp only [companionFormat] at h
  split_ifs at h with hle
  rw [← Verdict.body.inj h]
  exact hle

/-- Noise of the length of a frame brings every reachable receiver back. -/
theorem resyncsWithin_frame : ResyncsWithin 171 := by
  intro s hs noise hlen hnoise s' events hread
  have hwf := wellFormed_of_reachable hs
  obtain ⟨-, bodies, hdeframe, hserve⟩ := deframed_of_run hwf (reads_iff_run.mp hread)
  obtain ⟨hp, hcount⟩ := run_noise_idle le_of_verdict_body (by omega) (open_of_wellFormed hwf)
    hnoise hlen hdeframe
  rw [← length_of_commandServer_run hserve] at hcount
  exact ⟨ReaderState.idle_of_pending hp, hcount⟩

/-- The longest way back: a header of length 169 behind a start byte, and all but one byte of the
body. -/
theorem not_resyncsWithin_shorter : ¬ ResyncsWithin 170 := by
  intro h
  obtain ⟨got, hgot, hzero⟩ : ∃ got : List UInt8, got.length = 168 ∧ ∀ b ∈ got, b = 0 :=
    ⟨List.replicate 168 0, List.length_replicate, fun b hb => List.eq_of_mem_replicate hb⟩
  obtain ⟨s, events, hread, hp, -⟩ := reads_initial_of_deframed (w := [60]) rfl
  have hs : Reachable s := .call .initial hread
  have hheader : companionFormat.deframer.run s.pending [169, 0]
      = some (.inside 169 0 [], []) := by
    rw [hp]
    rfl
  have hpart : companionFormat.deframer.run s.pending ([169, 0] ++ got)
      = some (.inside 169 0 got, []) := by
    have hverdict : companionFormat.verdict 169 0 = .body 169 := rfl
    rw [Transducer.run_append_of_run _ hheader, prepend_nil]
    exact run_inside_part hverdict [] got (by rw [hgot]; decide)
  obtain ⟨s', events', hrun, -, hp', -⟩ := run_of_deframed (wellFormed_of_reachable hs) hpart rfl
  have hnoise : ∀ b ∈ [169, 0] ++ got, b ≠ startByte := by
    intro b hb
    rcases List.mem_append.mp hb with hb | hb
    · rcases List.mem_pair.mp hb with rfl | rfl
      · decide
      · decide
    · rw [hzero b hb]
      decide
  have hlen : 170 ≤ ([169, 0] ++ got).length := by
    rw [List.length_append, hgot]
    decide
  obtain ⟨hidle, -⟩ := h s hs _ hlen hnoise s' events' (reads_iff_run.mpr hrun)
  rw [ReaderState.pending_of_idle hidle] at hp'
  cases hp'

/-- **Noise of one frame length resynchronises**, whatever an earlier stream has left behind, and
no shorter run of noise does so for every reachable receiver. -/
theorem resyncsWithin_iff (n : ℕ) : ResyncsWithin n ↔ 171 ≤ n := by
  constructor
  · intro h
    by_contra hlt
    refine not_resyncsWithin_shorter ?_
    intro s hs noise hlen
    exact h s hs noise (by omega)
  · intro hle s hs noise hlen
    exact resyncsWithin_frame s hs noise (by omega)

end MeshcoreC
