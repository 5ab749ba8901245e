import MeshcoreC.Companion.ServerAnswers

/-! # Sessions of the sample server

What a peer sees of the server over a whole session, at any point of it.

* **`server_transmits`** — what has been transmitted are the replies to the frames received so far,
  in order, however the stream was cut into reads.
* **`server_stores_inside`** — the store behind every frame stays inside the transmit buffer.
* **`transmissions_eq_iff`** — two sessions look the same exactly when the reactions to their
  frames were the same. -/

namespace MeshcoreC

open Buffers Loops Relation Streams Framing

/-! ## Codes told by their first symbol -/

/-- Lists of words can be told apart when a word is told by its first symbol. -/
theorem flatMap_injective_of_head {α β : Type*} {f : α → List β} (hne : ∀ a, f a ≠ [])
    (hhead : ∀ a b, (f a).head? = (f b).head? → a = b) :
    Function.Injective (List.flatMap f) := by
  intro l l' h
  induction l generalizing l' with
  | nil =>
      cases l' with
      | nil => rfl
      | cons b l' => simp [hne b] at h
  | cons a l ih =>
      cases l' with
      | nil => simp [hne a] at h
      | cons b l' =>
          rw [List.flatMap_cons, List.flatMap_cons] at h
          have hfirst := congrArg List.head? h
          rw [List.head?_append_of_ne_nil _ (hne a), List.head?_append_of_ne_nil _ (hne b)]
            at hfirst
          obtain rfl := hhead a b hfirst
          rw [ih (List.append_cancel_left h)]

/-! ## Transcripts -/

/-- The replies to some frames, given by their bodies. -/
def transcript (bodies : List (List UInt8)) : List (List UInt8) :=
  (bodies.map bodyReaction).flatMap Reaction.replies

/-- A transcript tells the reactions. -/
theorem transcript_eq_iff {bodies bodies' : List (List UInt8)} :
    transcript bodies = transcript bodies' ↔
      bodies.map bodyReaction = bodies'.map bodyReaction := by
  constructor
  · intro h
    exact flatMap_injective_of_head Reaction.replies_ne_nil
      (fun _ _ => Reaction.replies_head_injective) h
  · intro h
    rw [transcript, transcript, h]

/-- Frames are answered one after the other. -/
theorem transcript_append (bodies bodies' : List (List UInt8)) :
    transcript (bodies ++ bodies') = transcript bodies ++ transcript bodies' := by
  rw [transcript, List.map_append, List.flatMap_append]
  rfl

/-- The framing of responses: that of commands, with another start byte. -/
def responseFormat : Format UInt8 := { companionFormat with start := responseStartByte }

/-- Frames of responses are segments of that framing. -/
theorem splitsAs_responseFrames {contents : List (List UInt8)}
    (h : ∀ content ∈ contents, content.length ≤ 169) :
    SplitsAs responseFormat (contents.map responseFrame).flatten contents [] := by
  induction contents with
  | nil => exact splitsAs_nil
  | cons content contents ih =>
      obtain ⟨segs, hsegs, hbodies, hbytes⟩ := ih fun c hmem => h c (List.mem_cons_of_mem _ hmem)
      have hle := h content List.mem_cons_self
      have hframe : (Segment.frame (UInt8.ofNat content.length) (UInt8.ofNat (content.length / 256))
          content).Valid responseFormat :=
        valid_frame (announcedLength_commandFrame (by omega)) hle
      refine ⟨.frame (UInt8.ofNat content.length) (UInt8.ofNat (content.length / 256)) content ::
        segs, List.forall_mem_cons.mpr ⟨hframe, hsegs⟩, ?_, ?_⟩
      · rw [segmentBodies_cons, hbodies]
        rfl
      · rw [List.map_cons, List.flatten_cons, hbytes, segmentBytes_cons, List.append_assoc]
        rfl

/-- The bytes that are transmitted tell the replies. -/
theorem responseFrames_injective {contents contents' : List (List UInt8)}
    (h : ∀ content ∈ contents, content.length ≤ 169)
    (h' : ∀ content ∈ contents', content.length ≤ 169)
    (heq : (contents.map responseFrame).flatten = (contents'.map responseFrame).flatten) :
    contents = contents' :=
  (splitsAs_responseFrames h).unique (heq ▸ splitsAs_responseFrames h')

/-! ## The callbacks of a call -/

/-- Every callback was given what the parser made of the body that it was handed. -/
def AnswersParsed (events : List ReaderEvent) : Prop :=
  (callbacks events).map (fun c => reactionTo c.1 c.2) = (parsedBodies events).map bodyReaction

/-- It holds of some events followed by others. -/
theorem AnswersParsed.append {events events' : List ReaderEvent} (h : AnswersParsed events)
    (h' : AnswersParsed events') : AnswersParsed (events ++ events') := by
  rw [AnswersParsed, callbacks, List.filterMap_append, List.map_append, parsedBodies_append,
    List.map_append]
  exact congrArg₂ (· ++ ·) h h'

/-- A dispatch hands the body over, and then calls back. -/
theorem answersParsed_dispatch (s : ReaderState) : AnswersParsed s.dispatch.2 := by
  rw [ReaderState.dispatch, mcCompanionHandleSerialCommandFrame]
  split
  · rfl
  · exact congrArg (fun o => [o]) (reactionTo_parsedFrom s.commandPacketBuffer _)

/-- Every move of the reader keeps it. -/
theorem answersParsed_moves {c c' : ReadCall} (hmoves : Moves c c') (h : AnswersParsed c.trace) :
    AnswersParsed c'.trace := by
  have hstore : ∀ s : ReaderState, AnswersParsed [s.storeEvent] := fun _ => rfl
  cases hmoves with
  | noise => exact h
  | start => exact h.append (hstore _)
  | header => exact h.append (hstore _)
  | drop => exact h
  | more => exact h.append (hstore _)
  | last => exact h.append ((hstore _).append (answersParsed_dispatch _))
  | complete => exact h.append (answersParsed_dispatch _)

/-- An iteration of the loop keeps it. -/
theorem answersParsed_readStep {c : ReadCall} (h : AnswersParsed c.trace) :
    AnswersParsed (readStep c).trace := by
  have hmoves := moves_readStep c
  generalize readStep c = c' at hmoves ⊢
  induction hmoves with
  | refl => exact h
  | tail _ hmove ih => exact answersParsed_moves hmove ih

/-- A call keeps it wherever it comes to. -/
theorem answersParsed_visits {c c' : ReadCall}
    (hvisits : mcCompanionReadSerialCommand.Visits c c') (h : AnswersParsed c.trace) :
    AnswersParsed c'.trace := by
  induction hvisits with
  | start => exact h
  | iterate _ _ ih => exact ih (answersParsed_readStep h)

/-- The callbacks, one after the other, send the replies to the bodies that were handed over. -/
theorem serve_sends {events : List ReaderEvent} (h : AnswersParsed events) (s : ServerState) :
    Sends s (s.serve events) (transcript (parsedBodies events)) := by
  have hcalls : ∀ (cs : List (CommandPacket × ParserError)) (s : ServerState),
      Sends s (cs.foldl (fun s c => packetCallback s c.1 c.2) s)
        ((cs.map fun c => reactionTo c.1 c.2).flatMap Reaction.replies) := by
    intro cs
    induction cs with
    | nil => exact Sends.refl
    | cons c cs ih =>
        intro s
        exact (packetCallback_sends s c.1 c.2).trans (ih (packetCallback s c.1 c.2))
  rw [transcript, ← h]
  exact hcalls (callbacks events) s

/-! ## Sessions -/

/-- One more call behind others. -/
theorem ReadsChunks.concat {s s' s'' : ReaderState} {chunks : List (List UInt8)}
    {data : List UInt8} {events events' : List ReaderEvent} (h : ReadsChunks s chunks s' events)
    (hread : Reads s' data s'' events') :
    ReadsChunks s (chunks ++ [data]) s'' (events ++ events') := by
  induction h with
  | nil =>
      have hone := ReadsChunks.cons hread (.nil s'')
      rwa [List.append_nil] at hone
  | cons hfirst _ ih =>
      rw [List.append_assoc]
      exact .cons hfirst (ih hread)

/-- The program between two reads is a sequence of calls of the reader, and the replies to what was
handed over in them. -/
theorem Serves.history {chunks : List (List UInt8)} {reader : ReaderState} {server : ServerState}
    (h : Serves chunks reader server) :
    ∃ events, ReadsChunks ReaderState.initial chunks reader events ∧
      Sends ServerState.initial server (transcript (parsedBodies events)) := by
  induction h with
  | start => exact ⟨[], .nil _, .refl _⟩
  | @read chunks reader reader' server data events _ hread _ _ ih =>
      obtain ⟨earlier, hchunks, hsends⟩ := ih
      have hparsed : AnswersParsed events := answersParsed_visits (WhileLoop.Exits.visits hread) rfl
      refine ⟨earlier ++ events, hchunks.concat hread, ?_⟩
      rw [parsedBodies_append, transcript_append]
      exact hsends.trans (serve_sends hparsed server)

/-- **Frame by frame.** At any point of a session, the bytes read are the frames that were answered,
in the stream they came in, then the bytes held of the next one, and then the bytes not yet looked
at; and what was sent are the replies to these frames. -/
theorem Serving.history {chunks : List (List UInt8)} {call : ReadCall} {server : ServerState}
    (h : Serving chunks call server) :
    ∃ bodies, SplitsAs companionFormat chunks.flatten bodies
        (call.state.heldBytes ++ call.receivedData) ∧
      Sends ServerState.initial server (transcript bodies) := by
  obtain ⟨before, data, reader, server₀, rfl, hserves, -, -, hvisits, rfl⟩ := h
  obtain ⟨events, hchunks, hsends⟩ := hserves.history
  obtain ⟨hwf, hdisciplined⟩ := disciplined_readsChunks hchunks
    (ReaderState.wellFormed_of_idle rfl) (disciplined_of_idle (s := ReaderState.initial) rfl)
  rw [List.nil_append, List.nil_append] at hdisciplined
  obtain ⟨consumed, hdata, -, hnow⟩ :=
    keepsDiscipline_visits hvisits hwf before.flatten events (by rwa [List.append_nil])
  refine ⟨parsedBodies (events ++ call.trace), ?_, ?_⟩
  · have hreading := hnow.reading.receive call.receivedData
    have hsplit : data = consumed ++ call.receivedData := hdata
    rwa [List.append_assoc, ← hsplit, ← List.flatten_concat] at hreading
  · rw [parsedBodies_append, transcript_append]
    exact hsends.trans (serve_sends (answersParsed_visits hvisits rfl) server₀)

/-- A command that fits the frame, read by the server when it starts, up to the return of the
call: its body is the only one. -/
theorem serving_commandFrame {d : List UInt8} (hne : d ≠ []) (hle : d.length ≤ 169) :
    ∃ call server, Serving [commandFrame d] call server ∧ call.receivedData = [] ∧
      ∀ bodies, SplitsAs companionFormat [commandFrame d].flatten bodies
        (call.state.heldBytes ++ call.receivedData) → bodies = [d] := by
  obtain ⟨segs, s', events, hsegs, hbytes, hbodies, hread, hidle, -⟩ :=
    reads_commandFrame (s := ReaderState.initial) rfl hne hle
  refine ⟨⟨s', [], events⟩, _, ⟨[], commandFrame d, ReaderState.initial, ServerState.initial, rfl,
    .start, List.cons_ne_nil _ _, ?_, WhileLoop.Exits.visits hread, rfl⟩, rfl, ?_⟩
  · show d.length + 3 ≤ 172
    omega
  · intro bodies hsplits
    have hheld : s'.heldBytes = [] := by
      rw [ReaderState.heldBytes, hidle]
      rfl
    rw [List.append_nil, hheld] at hsplits
    refine hsplits.unique ⟨segs, hsegs, hbodies, ?_⟩
    rw [hbytes, List.flatten_singleton, List.append_nil]

/-- **What the server transmits.** At any point of any session, in whatever chunks the stream has
been read: the stream so far is a list of segments, the bytes held of an unfinished frame and the
bytes not yet looked at, and the server has transmitted, in order, the replies to the frames among
the segments, each in a frame of its own. -/
theorem server_transmits {chunks : List (List UInt8)} {call : ReadCall} {server : ServerState}
    (h : Serving chunks call server) :
    ∃ segs, (∀ g ∈ segs, Segment.Valid companionFormat g) ∧
      chunks.flatten = segmentBytes companionFormat segs ++
        (call.state.heldBytes ++ call.receivedData) ∧
      server.written = (segmentBodies segs).flatMap
        fun body => (bodyReaction body).replies.map responseFrame := by
  obtain ⟨-, ⟨segs, hsegs, rfl, hbytes⟩, hsends⟩ := h.history
  refine ⟨segs, hsegs, hbytes, ?_⟩
  rw [hsends.written, transcript, List.flatMap_map, List.map_flatMap]
  rfl

/-- A device query. -/
theorem server_transmits_deviceQuery :
    ∃ call server, Serving [commandFrame [22, 3]] call server ∧ call.receivedData = [] ∧
      ∃ segs, (∀ g ∈ segs, Segment.Valid companionFormat g) ∧
        [commandFrame [22, 3]].flatten = segmentBytes companionFormat segs ++
          (call.state.heldBytes ++ call.receivedData) ∧
        server.written = (segmentBodies segs).flatMap
          fun body => (bodyReaction body).replies.map responseFrame := by
  obtain ⟨call, server, hserving, hread, -⟩ :=
    serving_commandFrame (d := [22, 3]) (List.cons_ne_nil _ _) (by decide)
  exact ⟨call, server, hserving, hread, server_transmits hserving⟩

/-! ### Streams that end with a frame -/

/-- A stream of segments, the last of which is settled, is read to its end in whatever chunks it
comes. -/
theorem readsChunks_of_segments {s : ReaderState} (hidle : s.rxPosition = 0)
    {segs : List (Segment UInt8)} (hsegs : ∀ g ∈ segs, g.Valid companionFormat)
    (hlast : ∀ g ∈ segs.getLast?, g.Settled) {chunks : List (List UInt8)}
    (hchunks : chunks.flatten = segmentBytes companionFormat segs) :
    ∃ s' events, ReadsChunks s chunks s' events ∧ s'.rxPosition = 0 := by
  have hdeframe := run_segments hsegs hlast
  rw [← ReaderState.pending_of_idle hidle] at hdeframe
  obtain ⟨served, hserve⟩ := Option.ne_none_iff_exists'.mp
    (commandServer_run_ne_none s.commandPacketBuffer (segmentBodies segs))
  obtain ⟨s', events, hrun, -, hpending, -⟩ :=
    run_of_deframed (ReaderState.wellFormed_of_idle hidle) hdeframe hserve
  rw [ReaderState.pending_of_idle hidle] at hpending
  refine ⟨s', events, ?_, ReaderState.idle_of_pending hpending⟩
  rwa [readsChunks_iff_runChunks, Transducer.runChunks_eq_run_flatten, hchunks]

/-- The program reads on as long as the calls of the reader return. -/
theorem Serves.readsChunks {before chunks : List (List UInt8)} {reader reader' : ReaderState}
    {server : ServerState} {events : List ReaderEvent} (h : Serves before reader server)
    (hchunks : ReadsChunks reader chunks reader' events)
    (hreads : ∀ data ∈ chunks, data ≠ [] ∧ data.length ≤ maxFrameSize) :
    ∃ server', Serves (before ++ chunks) reader' server' := by
  induction hchunks generalizing before server with
  | nil => exact ⟨server, by rwa [List.append_nil]⟩
  | @cons s s₁ s' data chunks _ _ hread _ ih =>
      obtain ⟨hne, hle⟩ := hreads data List.mem_cons_self
      obtain ⟨server', hserves⟩ := ih (h.read hread hne hle)
        (fun data' hmem => hreads data' (List.mem_cons_of_mem _ hmem))
      rw [List.append_assoc] at hserves
      exact ⟨server', hserves⟩

/-- **Every frame is answered.** A stream of noise, oversized headers and frames, the last of which
is not an empty frame or an oversized header, is read to its end in whatever reads it comes; then
the reader is idle, and what the server has transmitted are the replies to all the frames, in
order. -/
theorem server_answers {segs : List (Segment UInt8)}
    (hsegs : ∀ g ∈ segs, g.Valid companionFormat) (hlast : ∀ g ∈ segs.getLast?, g.Settled)
    {chunks : List (List UInt8)} (hchunks : chunks.flatten = segmentBytes companionFormat segs)
    (hreads : ∀ data ∈ chunks, data ≠ [] ∧ data.length ≤ 172) :
    ∃ reader server, Serves chunks reader server ∧ reader.rxPosition = 0 ∧
      server.written = (segmentBodies segs).flatMap
        fun body => (bodyReaction body).replies.map responseFrame := by
  obtain ⟨reader, events, hread, hidle⟩ :=
    readsChunks_of_segments (s := ReaderState.initial) rfl hsegs hlast hchunks
  obtain ⟨server, hserves⟩ := Serves.start.readsChunks hread hreads
  rw [List.nil_append] at hserves
  obtain ⟨events', hread', hsends⟩ := hserves.history
  refine ⟨reader, server, hserves, hidle, ?_⟩
  have hbodies : parsedBodies events' = segmentBodies segs :=
    parsedBodies_of_readsChunks (s := ReaderState.initial) rfl hidle hread' hsegs hchunks
  rw [hsends.written, hbodies, transcript, List.flatMap_map, List.map_flatMap]
  rfl

/-- A device query and a wrong command behind a line feed, in two reads. -/
theorem server_answers_deviceQuery :
    ∃ reader server, Serves [[10, 60, 2, 0, 22], [3, 60, 1, 0, 99]] reader server ∧
      reader.rxPosition = 0 ∧ server.written =
        [responseFrame (reply .deviceInfo deviceInfoBytes), [62, 1, 0, 1]] := by
  have hsegs : ∀ g ∈ [Segment.noise 10, .frame 2 0 [22, 3], .frame 1 0 [99]],
      g.Valid companionFormat := by
    simp [Segment.Valid, companionFormat, startByte]
  have hchunks : [[10, 60, 2, 0, 22], [3, 60, 1, 0, 99]].flatten
      = segmentBytes companionFormat [.noise 10, .frame 2 0 [22, 3], .frame 1 0 [99]] := rfl
  exact server_answers hsegs (by simp [Segment.Settled]) hchunks (by simp)

/-! ### What stays hidden -/

/-- **The transmit buffer is not overrun.** For each frame that is transmitted, in order, its bytes
and one more behind it are stored, and nothing else is; and yet every store of every session is
inside the 172 bytes of the buffer. -/
theorem server_stores_inside {chunks : List (List UInt8)} {call : ReadCall} {server : ServerState}
    (h : Serving chunks call server) :
    (∀ index ∈ server.stores, index < 172) ∧
      server.stores = server.written.flatMap (fun frame => List.range (frame.length + 1)) ∧
      ∀ frame ∈ server.written, frame.length ∈ server.stores ∧ frame.length < 172 := by
  obtain ⟨bodies, -, hsends⟩ := h.history
  have hwritten : server.written = (transcript bodies).map responseFrame := hsends.written
  have hroom : ∀ frame ∈ server.written, frame.length < 172 := by
    rw [hwritten, List.forall_mem_map]
    exact hsends.room
  have hstores : server.stores
      = server.written.flatMap fun frame => List.range (frame.length + 1) := by
    rw [hwritten, List.flatMap_map]
    exact hsends.stores
  have hmem : ∀ index, index ∈ server.stores ↔ ∃ frame ∈ server.written, index ≤ frame.length := by
    intro index
    simp only [hstores, List.mem_flatMap, List.mem_range, Nat.lt_succ_iff]
  refine ⟨?_, hstores, fun frame hframe => ⟨(hmem _).mpr ⟨frame, hframe, le_rfl⟩, hroom _ hframe⟩⟩
  intro index hindex
  obtain ⟨frame, hframe, hle⟩ := (hmem index).mp hindex
  exact hle.trans_lt (hroom frame hframe)

/-- A request for the contacts, which has replies of different lengths. -/
theorem server_stores_inside_getContacts :
    ∃ call server, Serving [commandFrame [4]] call server ∧
      (∀ index ∈ server.stores, index < 172) ∧
      server.stores = server.written.flatMap (fun frame => List.range (frame.length + 1)) ∧
      ∀ frame ∈ server.written, frame.length ∈ server.stores ∧ frame.length < 172 := by
  obtain ⟨call, server, hserving, -⟩ :=
    serving_commandFrame (d := [4]) (List.cons_ne_nil _ _) (by decide)
  exact ⟨call, server, hserving, server_stores_inside hserving⟩

/-- **What a peer can tell.** At any two points of any two sessions, the server has transmitted the
same bytes exactly when the reactions to the frames so far were the same, one by one. Among the
reactions, an error is only an error: it is that to every frame that the parser rejects, and to
every command that is not one of the eight that are answered. -/
theorem transmissions_eq_iff {chunks₁ chunks₂ : List (List UInt8)} {call₁ call₂ : ReadCall}
    {server₁ server₂ : ServerState} (h₁ : Serving chunks₁ call₁ server₁)
    (h₂ : Serving chunks₂ call₂ server₂) :
    ∃ bodies₁ bodies₂,
      SplitsAs companionFormat chunks₁.flatten bodies₁
        (call₁.state.heldBytes ++ call₁.receivedData) ∧
      SplitsAs companionFormat chunks₂.flatten bodies₂
        (call₂.state.heldBytes ++ call₂.receivedData) ∧
      (server₁.written.flatten = server₂.written.flatten ↔
        bodies₁.map bodyReaction = bodies₂.map bodyReaction) ∧
      ∀ body, bodyReaction body = .error ↔ ∀ command arguments, body = command :: arguments →
        FitsTable body → ∀ c ∈ answeredCommands, command.toUInt32 ≠ c.value := by
  obtain ⟨bodies₁, hsplits₁, hsends₁⟩ := h₁.history
  obtain ⟨bodies₂, hsplits₂, hsends₂⟩ := h₂.history
  refine ⟨bodies₁, bodies₂, hsplits₁, hsplits₂, ?_, bodyReaction_eq_error_iff⟩
  have hwritten₁ : server₁.written = (transcript bodies₁).map responseFrame := hsends₁.written
  have hwritten₂ : server₂.written = (transcript bodies₂).map responseFrame := hsends₂.written
  rw [hwritten₁, hwritten₂, ← transcript_eq_iff]
  constructor
  · exact responseFrames_injective hsends₁.length_le hsends₂.length_le
  · intro h
    rw [h]

/-- A command that does not exist, and a channel that does not: a peer cannot tell them apart. -/
theorem transmissions_eq_iff_errors :
    ∃ call₁ call₂ server₁ server₂, Serving [commandFrame [99]] call₁ server₁ ∧
      Serving [commandFrame [31, 0]] call₂ server₂ ∧ call₁.receivedData = [] ∧
      call₂.receivedData = [] ∧ server₁.written.flatten = server₂.written.flatten := by
  obtain ⟨call₁, server₁, hserving₁, hread₁, honly₁⟩ :=
    serving_commandFrame (d := [99]) (List.cons_ne_nil _ _) (by decide)
  obtain ⟨call₂, server₂, hserving₂, hread₂, honly₂⟩ :=
    serving_commandFrame (d := [31, 0]) (List.cons_ne_nil _ _) (by decide)
  obtain ⟨bodies₁, bodies₂, hsplits₁, hsplits₂, hiff, -⟩ :=
    transmissions_eq_iff hserving₁ hserving₂
  refine ⟨call₁, call₂, server₁, server₂, hserving₁, hserving₂, hread₁, hread₂, hiff.mpr ?_⟩
  rw [honly₁ bodies₁ hsplits₁, honly₂ bodies₂ hsplits₂]
  rfl

end MeshcoreC
