import MeshcoreC.Companion.CommandPackets
import MeshcoreC.Companion.FrameDelivery

/-! # What a single frame delivers

* **`delivers_accepted_iff`** — an accepted command is delivered by its frame exactly when it fits
  the frame, that is when it has at most 169 bytes.
* **`delivered_frame_independent_iff`** — what is delivered for a frame does not depend on what came
  before it, except for the packet that accompanies an empty frame.

A command of 170 bytes, which some rows of the table admit, is announced by an oversized header. Its
bytes are then searched for frames; that these cannot yield the command after all is shown by
counting start bytes. -/

namespace MeshcoreC

open Streams Framing

/-- The call on `data` returns, and has invoked the callback exactly once, with `c`. -/
def DeliversOnce (s : ReaderState) (data : List UInt8) (c : CommandPacket × ParserError) : Prop :=
  ∃ s' events, Reads s data s' events ∧ callbacks events = [c]

/-- A call delivers one thing only. -/
theorem DeliversOnce.unique {s : ReaderState} {data : List UInt8}
    {c c' : CommandPacket × ParserError} (h : DeliversOnce s data c)
    (h' : DeliversOnce s data c') : c = c' := by
  obtain ⟨s₁, events₁, hread₁, hc⟩ := h
  obtain ⟨s₂, events₂, hread₂, hc'⟩ := h'
  rw [reads_iff_run] at hread₁ hread₂
  obtain ⟨-, rfl⟩ := Prod.mk.inj (Option.some.inj (hread₁.symm.trans hread₂))
  exact List.singleton_injective (hc.symm.trans hc')

/-- Segments with a single body, the last of them settled, deliver that body from any idle
state. -/
theorem reads_one_body {s : ReaderState} (hidle : s.rxPosition = 0) {segs : List (Segment UInt8)}
    (hvalid : ∀ g ∈ segs, g.Valid companionFormat) (hlast : ∀ g ∈ segs.getLast?, g.Settled)
    {body : List UInt8} (hbody : segmentBodies segs = [body]) :
    ∃ s' events, Reads s (segmentBytes companionFormat segs) s' events ∧ s'.rxPosition = 0 ∧
      s'.commandPacketBuffer = (mcCompanionParseCommand body s.commandPacketBuffer).2 ∧
      callbacks events = [parsedFrom s.commandPacketBuffer body] := by
  have hdeframe := run_segments hvalid hlast
  rw [hbody, ← ReaderState.pending_of_idle hidle] at hdeframe
  obtain ⟨s', events, hrun, -, hpending, hpacket, hcallbacks⟩ :=
    run_of_deframed (ReaderState.wellFormed_of_idle hidle) hdeframe
      (commandServer_run_cons s.commandPacketBuffer body [])
  rw [ReaderState.pending_of_idle hidle] at hpending
  exact ⟨s', events, reads_iff_run.mpr hrun, ReaderState.idle_of_pending hpending, hpacket,
    hcallbacks⟩

/-- A header that announces an acceptable body. -/
theorem valid_frame {lo hi : UInt8} {body : List UInt8}
    (hlength : announcedLength lo hi = body.length) (hle : body.length ≤ 169) :
    (Segment.frame lo hi body).Valid companionFormat := by
  simp only [announcedLength] at hlength
  simp only [Segment.Valid, companionFormat]
  rw [if_pos (by omega), hlength]

/-! ## The frame of a command -/

/-- The frame of a command: `'<'`, the low and the high byte of its length, the command. -/
def commandFrame (d : List UInt8) : List UInt8 :=
  startByte :: UInt8.ofNat d.length :: UInt8.ofNat (d.length / 256) :: d

/-- The header of a command's frame announces its length. -/
theorem announcedLength_commandFrame {d : List UInt8} (h : d.length < 65536) :
    announcedLength (UInt8.ofNat d.length) (UInt8.ofNat (d.length / 256)) = d.length := by
  rw [announcedLength, UInt8.toNat_ofNat', UInt8.toNat_ofNat']
  omega

/-- A command that fits the frame is read from it by an idle receiver. -/
theorem reads_commandFrame {s : ReaderState} (hidle : s.rxPosition = 0) {d : List UInt8}
    (hne : d ≠ []) (hle : d.length ≤ 169) :
    ∃ segs s' events, (∀ g ∈ segs, Segment.Valid companionFormat g) ∧
      segmentBytes companionFormat segs = commandFrame d ∧ segmentBodies segs = [d] ∧
      Reads s (commandFrame d) s' events ∧ s'.rxPosition = 0 ∧
      callbacks events = [parsedFrom s.commandPacketBuffer d] := by
  have hvalid : ∀ g ∈ [Segment.frame (UInt8.ofNat d.length) (UInt8.ofNat (d.length / 256)) d],
      g.Valid companionFormat := by
    simpa using valid_frame (announcedLength_commandFrame (d := d) (by omega)) hle
  have hbytes : segmentBytes companionFormat
      [.frame (UInt8.ofNat d.length) (UInt8.ofNat (d.length / 256)) d] = commandFrame d :=
    List.append_nil _
  obtain ⟨s', events, hread, hidle', -, hcallbacks⟩ :=
    reads_one_body hidle hvalid (by simpa [Segment.Settled] using hne) rfl
  rw [hbytes] at hread
  exact ⟨_, s', events, hvalid, hbytes, rfl, hread, hidle', hcallbacks⟩

/-- One callback means one body. -/
theorem body_of_single_callback {packet packet' : CommandPacket} {bodies : List (List UInt8)}
    {c : CommandPacket × ParserError} (h : commandServer.run packet bodies = some (packet', [c])) :
    ∃ body, bodies = [body] ∧ parsedFrom packet body = c := by
  -- every body leads to a callback, so no callback means no body
  have hmore : ∀ (packet : CommandPacket) (bodies : List (List UInt8)) (q : CommandPacket),
      commandServer.run packet bodies = some (q, []) → bodies = [] := by
    rintro packet (_ | ⟨body, bodies⟩) q h
    · rfl
    · rw [commandServer_run_cons, prepend_eq_some_iff] at h
      obtain ⟨rest, -, hrest⟩ := h
      exact absurd hrest (by simp)
  cases bodies with
  | nil => simp at h
  | cons body bodies =>
      rw [commandServer_run_cons, prepend_eq_some_iff] at h
      obtain ⟨rest, hrun, hc⟩ := h
      rw [List.singleton_append, List.cons.injEq] at hc
      obtain ⟨rfl, rfl⟩ := hc
      refine ⟨body, ?_, rfl⟩
      rw [hmore _ bodies packet' hrun]

/-- **An oversized header never delivers its command.** The bytes behind the header are searched for
frames, but a frame needs a start byte that is not in its body, and the packet of a command keeps
the number of its start bytes. -/
theorem not_delivers_oversized {s : ReaderState} (hidle : s.rxPosition = 0) {d : List UInt8}
    {old packet : CommandPacket} (hparse : mcCompanionParseCommand d old = (.none, packet))
    (hlong : 169 < d.length) : ¬ DeliversOnce s (commandFrame d) (packet, .none) := by
  rintro ⟨s', events, hread, hcallbacks⟩
  have hle : d.length ≤ 170 := length_le_of_accepted hparse
  have hne : d ≠ [] := by
    rintro rfl
    simp at hlong
  -- the header is skipped, so the deframer finds its bodies in `d` alone
  have hskip : (Segment.skipped (UInt8.ofNat d.length) (UInt8.ofNat (d.length / 256))).Valid
      companionFormat := by
    have hlength := announcedLength_commandFrame (d := d) (by omega)
    simp only [announcedLength] at hlength
    simp only [Segment.Valid, companionFormat]
    rw [hlength, if_neg (by omega), if_pos (by omega)]
  obtain ⟨-, bodies, hdeframe, hserve⟩ :=
    deframed_of_run (ReaderState.wellFormed_of_idle hidle) (reads_iff_run.mp hread)
  rw [hcallbacks] at hserve
  obtain ⟨body, rfl, hparsed⟩ := body_of_single_callback hserve
  have hd : companionFormat.deframer.run .idle d = some (s'.pending, [body]) := by
    have hsegment := run_segment_append hskip hne
    rw [ReaderState.pending_of_idle hidle] at hdeframe
    rw [← hdeframe]
    exact (prepend_nil _).symm.trans hsegment.symm
  -- the body found has fewer start bytes than `d`, but its packet has as many
  have hstarts := run_starts_le hd
  have hbody : mcCompanionParseCommand body s.commandPacketBuffer = (.none, packet) := by
    obtain ⟨hpacket, herror⟩ := Prod.mk.inj hparsed
    exact Prod.ext herror hpacket
  have hcount := count_eq_of_packet_eq hparse hbody rfl (b := startByte) (by decide)
  have hstart : companionFormat.start = startByte := rfl
  simp only [frameStarts, List.map_cons, List.map_nil, List.sum_cons, List.sum_nil, hstart,
    Format.bytes, List.count_nil] at hstarts
  omega

/-- **A command is deliverable exactly when it fits the frame.** The frame of an accepted command,
fed to an idle receiver, invokes the callback exactly once, with no error and the packet of the
command, if and only if the command has at most 169 bytes. -/
theorem delivers_accepted_iff {s : ReaderState} (hidle : s.rxPosition = 0) {d : List UInt8}
    {old packet : CommandPacket} (hparse : mcCompanionParseCommand d old = (.none, packet)) :
    DeliversOnce s (commandFrame d) (packet, .none) ↔ d.length ≤ 169 := by
  constructor
  · intro h
    by_contra hlong
    exact not_delivers_oversized hidle hparse (not_le.mp hlong) h
  · intro hle
    have hne : d ≠ [] := by
      rintro rfl
      simp at hparse
    obtain ⟨-, s', events, -, -, -, hread, -, hcallbacks⟩ := reads_commandFrame hidle hne hle
    refine ⟨s', events, hread, ?_⟩
    rw [hcallbacks, parsedFrom, mcCompanionParseCommand_congr hne _ old, hparse]

/-- A device query in a fresh receiver. -/
theorem delivers_accepted_iff_deviceQuery :
    DeliversOnce ReaderState.initial [60, 2, 0, 22, 3] (⟨22, paddedArgs [3]⟩, .none) := by
  have hparse : mcCompanionParseCommand [22, 3] CommandPacket.zero
      = (.none, ⟨22, paddedArgs [3]⟩) := rfl
  exact (delivers_accepted_iff (s := ReaderState.initial) rfl hparse).mpr (by decide)

/-- Raw data has 169 argument bytes, so that the parser accepts exactly commands of 170 bytes, and
none of them can be delivered. -/
theorem not_delivers_sendRawData :
    ¬ ∀ s : ReaderState, s.rxPosition = 0 → ∀ d packet,
      mcCompanionParseCommand d CommandPacket.zero = (.none, packet) →
      DeliversOnce s (commandFrame d) (packet, .none) := by
  intro h
  have hrow : definitionOf (25 : UInt8).toUInt32 = some ⟨.sendRawData, 169, 169⟩ := by decide
  have hlength : (List.replicate 169 (7 : UInt8)).length = 169 := List.length_replicate
  have hparse := mcCompanionParseCommand_of_row hrow hlength.ge hlength.le CommandPacket.zero
  refine not_delivers_oversized (s := ReaderState.initial) rfl hparse ?_
    (h ReaderState.initial rfl _ _ hparse)
  rw [List.length_cons, hlength]
  decide

/-! ## Independence of the past -/

/-- An acceptable frame and one more byte that is not a start byte deliver the body of the frame,
parsed into the packet buffer as the past has left it. -/
theorem deliversOnce_frame {s : ReaderState} (hidle : s.rxPosition = 0) {lo hi : UInt8}
    {body : List UInt8} (hlength : announcedLength lo hi = body.length) (hle : body.length ≤ 169)
    {b : UInt8} (hb : b ≠ startByte) :
    DeliversOnce s (startByte :: lo :: hi :: body ++ [b])
      (parsedFrom s.commandPacketBuffer body) := by
  have hvalid : ∀ g ∈ [Segment.frame lo hi body, .noise b], g.Valid companionFormat := by
    simp only [List.mem_cons, List.not_mem_nil, or_false]
    rintro g (rfl | rfl)
    · exact valid_frame hlength hle
    · exact hb
  obtain ⟨s', events, hread, -, -, hcallbacks⟩ :=
    reads_one_body hidle hvalid (by simp [Segment.Settled]) rfl
  exact ⟨s', events, hread, hcallbacks⟩

/-- What is delivered for a frame after two pasts is the same exactly when the frame has a body or
the pasts have left the same packet. -/
theorem delivers_same_iff {s₁ s₂ : ReaderState} (h₁ : s₁.rxPosition = 0) (h₂ : s₂.rxPosition = 0)
    {lo hi : UInt8} {body : List UInt8} (hlength : announcedLength lo hi = body.length)
    (hle : body.length ≤ 169) {b : UInt8} (hb : b ≠ startByte) :
    (∃ c, DeliversOnce s₁ (startByte :: lo :: hi :: body ++ [b]) c ∧
        DeliversOnce s₂ (startByte :: lo :: hi :: body ++ [b]) c) ↔
      1 ≤ body.length ∨ s₁.commandPacketBuffer = s₂.commandPacketBuffer := by
  have hframe₁ := deliversOnce_frame h₁ hlength hle hb
  have hframe₂ := deliversOnce_frame h₂ hlength hle hb
  constructor
  · rintro ⟨c, hc₁, hc₂⟩
    have heq := (hframe₁.unique hc₁).trans (hc₂.unique hframe₂)
    cases body with
    | nil => exact .inr (Prod.mk.inj heq).1
    | cons => exact .inl (by simp)
  · intro h
    have heq : parsedFrom s₁.commandPacketBuffer body = parsedFrom s₂.commandPacketBuffer body := by
      rcases h with hbody | hpacket
      · have hne : body ≠ [] := List.ne_nil_of_length_pos hbody
        rw [parsedFrom, parsedFrom, mcCompanionParseCommand_congr hne _ s₂.commandPacketBuffer]
      · rw [hpacket]
    exact ⟨_, hframe₁, heq ▸ hframe₂⟩

/-- A receiver that has been sent a command to set the advertised name to `"A"` is idle, and still
holds that command. -/
theorem reads_setAdvertName :
    ∃ s events, Reads ReaderState.initial [60, 2, 0, 8, 65] s events ∧ s.rxPosition = 0 ∧
      s.commandPacketBuffer = ⟨8, paddedArgs [65]⟩ := by
  have hvalid : ∀ g ∈ [Segment.frame 2 0 [8, 65]], g.Valid companionFormat := by
    simp [Segment.Valid, companionFormat]
  obtain ⟨s, events, hread, hidle, hpacket, -⟩ :=
    reads_one_body (s := ReaderState.initial) rfl hvalid (by simp [Segment.Settled]) rfl
  exact ⟨s, events, hread, hidle, hpacket⟩

/-- **A callback depends on its own frame alone, exactly when the frame is not empty.** Two pasts of
a fresh receiver, each of which leaves it idle, make the same difference to what is delivered for a
frame as to the packet buffer when the frame is empty, and none when it has a body; so the past
never matters to a frame if and only if the frame has a body. -/
theorem delivered_frame_independent_iff {lo hi : UInt8} {body : List UInt8}
    (hlength : announcedLength lo hi = body.length) (hle : body.length ≤ 169) {b : UInt8}
    (hb : b ≠ startByte) :
    (∀ w₁ w₂ s₁ s₂ events₁ events₂, Reads ReaderState.initial w₁ s₁ events₁ → s₁.rxPosition = 0 →
      Reads ReaderState.initial w₂ s₂ events₂ → s₂.rxPosition = 0 →
      ((∃ c, DeliversOnce s₁ (startByte :: lo :: hi :: body ++ [b]) c ∧
          DeliversOnce s₂ (startByte :: lo :: hi :: body ++ [b]) c) ↔
        1 ≤ body.length ∨ s₁.commandPacketBuffer = s₂.commandPacketBuffer)) ∧
    ((∀ w₁ w₂ s₁ s₂ events₁ events₂, Reads ReaderState.initial w₁ s₁ events₁ → s₁.rxPosition = 0 →
      Reads ReaderState.initial w₂ s₂ events₂ → s₂.rxPosition = 0 →
      ∃ c, DeliversOnce s₁ (startByte :: lo :: hi :: body ++ [b]) c ∧
        DeliversOnce s₂ (startByte :: lo :: hi :: body ++ [b]) c) ↔ 1 ≤ body.length) := by
  refine ⟨?_, ?_, ?_⟩
  · intro w₁ w₂ s₁ s₂ events₁ events₂ _ h₁ _ h₂
    exact delivers_same_iff h₁ h₂ hlength hle hb
  · -- an empty frame tells a fresh receiver from one that holds the name command
    intro h
    obtain ⟨s, events, hread, hidle, hpacket⟩ := reads_setAdvertName
    have hfresh : Reads ReaderState.initial [] ReaderState.initial [] := reads_iff_run.mpr rfl
    have hsame := h [] _ _ _ _ _ hfresh rfl hread hidle
    rcases (delivers_same_iff rfl hidle hlength hle hb).mp hsame with hbody | heq
    · exact hbody
    · rw [hpacket] at heq
      exact absurd (congrArg CommandPacket.command heq) (by decide)
  · intro hbody w₁ w₂ s₁ s₂ events₁ events₂ _ h₁ _ h₂
    exact (delivers_same_iff h₁ h₂ hlength hle hb).mpr (.inl hbody)

/-- A device query delivers the same to a fresh receiver and behind the name command. -/
theorem delivered_frame_independent_iff_deviceQuery :
    ∃ s events, Reads ReaderState.initial [60, 2, 0, 8, 65] s events ∧
      ∃ c, DeliversOnce ReaderState.initial [60, 2, 0, 22, 3, 0] c ∧
        DeliversOnce s [60, 2, 0, 22, 3, 0] c := by
  obtain ⟨s, events, hread, hidle, -⟩ := reads_setAdvertName
  have hlength : announcedLength 2 0 = [(22 : UInt8), 3].length := rfl
  have hindependent := (delivered_frame_independent_iff hlength (by decide)
    (b := 0) (by decide)).2.mpr (by decide)
  have hfresh : Reads ReaderState.initial [] ReaderState.initial [] := reads_iff_run.mpr rfl
  exact ⟨s, events, hread, hindependent [] _ _ _ _ _ hfresh rfl hread hidle⟩

/-- An empty frame shows the callback the name behind the name command, but not to a fresh
receiver. -/
theorem not_delivered_empty_frame_independent :
    ∃ s events, Reads ReaderState.initial [60, 2, 0, 8, 65] s events ∧ s.rxPosition = 0 ∧
      ¬ ∃ c, DeliversOnce ReaderState.initial [60, 0, 0, 0] c ∧ DeliversOnce s [60, 0, 0, 0] c := by
  obtain ⟨s, events, hread, hidle, hpacket⟩ := reads_setAdvertName
  have hlength : announcedLength 0 0 = ([] : List UInt8).length := rfl
  refine ⟨s, events, hread, hidle, ?_⟩
  intro hsame
  have hfresh : ReaderState.initial.rxPosition = 0 := rfl
  have hiff := delivers_same_iff hfresh hidle hlength (by decide) (b := 0) (by decide)
  rcases hiff.mp hsame with hbody | heq
  · simp at hbody
  · rw [hpacket] at heq
    exact absurd (congrArg CommandPacket.command heq) (by decide)

end MeshcoreC
