import MeshcoreC.Companion.CommandDelivery
import MeshcoreC.Library.FramingRuns

/-! # Callbacks of a session

A callback made by a call that never returns is made all the same. `CallsBack` says that the
callback is invoked at some point while a stream is fed to a fresh receiver in chunks.

* **`callsBack_iff`** — the callbacks of a session are the byte machine's outputs on the stream, up
  to the byte it gets stuck on.
* **`callsBack_accepted_iff`** — the packets handed over without an error are what the parser
  accepts of the frames in the stream. -/

namespace MeshcoreC

open Loops Streams Framing

/-! ## Callbacks of a call -/

/-- The call on `data` invokes the callback with `c` at some point, whether or not it returns. -/
def Invokes (s : ReaderState) (data : List UInt8) (c : CommandPacket × ParserError) : Prop :=
  ∃ call, mcCompanionReadSerialCommand.Visits ⟨s, data, []⟩ call ∧ c ∈ callbacks call.trace

/-- **A call's callbacks are the byte machine's**, even when the call does not return. -/
theorem invokes_iff {s : ReaderState} {data : List UInt8} {c : CommandPacket × ParserError} :
    Invokes s data c ↔ c ∈ callbacks (receiver.outputs s data) := by
  constructor
  · rintro ⟨call, hvisits, hc⟩
    rw [← doings_of_visits hvisits, callbacks, List.filterMap_append]
    exact List.mem_append_left _ hc
  · intro hc
    obtain ⟨call, hvisits, hdone⟩ := exists_visits_done ⟨s, data, []⟩
    refine ⟨call, hvisits, ?_⟩
    rw [← doings_of_visits hvisits, hdone, List.append_nil] at hc
    exact hc

/-! ## Callbacks of a session -/

/-- While the chunks are fed to the receiver, one call after the other as long as they return, the
callback is invoked with `c`. -/
def CallsBack (s : ReaderState) (chunks : List (List UInt8)) (c : CommandPacket × ParserError) :
    Prop :=
  ∃ before data after s' events, chunks = before ++ data :: after ∧
    ReadsChunks s before s' events ∧ Invokes s' data c

/-- **The callbacks of a session** do not depend on how the stream was cut. -/
theorem callsBack_iff {s : ReaderState} {chunks : List (List UInt8)}
    {c : CommandPacket × ParserError} :
    CallsBack s chunks c ↔ c ∈ callbacks (receiver.outputs s chunks.flatten) := by
  constructor
  · rintro ⟨before, data, after, s', events, rfl, hbefore, hinvokes⟩
    rw [readsChunks_iff_runChunks, Transducer.runChunks_eq_run_flatten] at hbefore
    rw [invokes_iff] at hinvokes
    rw [List.flatten_append, List.flatten_cons, receiver.outputs_append_of_run hbefore, callbacks,
      List.filterMap_append]
    refine List.mem_append_right _ ?_
    cases hrun : receiver.run s' data with
    | none => rwa [receiver.outputs_append_of_stuck hrun]
    | some r =>
        rw [receiver.outputs_of_run hrun] at hinvokes
        rw [receiver.outputs_append_of_run hrun, List.filterMap_append]
        exact List.mem_append_left _ hinvokes
  · -- by induction on the calls: it is this one that calls back, or it returns and a later one does
    intro hc
    induction chunks generalizing s with
    | nil => exact absurd hc (by simp [callbacks])
    | cons data chunks ih =>
        rw [List.flatten_cons] at hc
        by_cases hnow : c ∈ callbacks (receiver.outputs s data)
        · exact ⟨[], data, chunks, s, [], rfl, .nil s, invokes_iff.mpr hnow⟩
        cases hrun : receiver.run s data with
        | none =>
            rw [receiver.outputs_append_of_stuck hrun] at hc
            exact absurd hc hnow
        | some r =>
            rw [receiver.outputs_of_run hrun] at hnow
            rw [receiver.outputs_append_of_run hrun, callbacks, List.filterMap_append] at hc
            obtain ⟨before, data', after, s', events, rfl, hbefore, hinvokes⟩ :=
              ih ((List.mem_append.mp hc).resolve_left hnow)
            exact ⟨data :: before, data', after, s', _, rfl,
              .cons (reads_iff_run.mpr hrun) hbefore, hinvokes⟩

/-! ## What is handed over without an error -/

/-- The frame of an acceptable body, with its header spelled out. -/
theorem valid_frame_iff {lo hi : UInt8} {body : List UInt8} :
    (Segment.frame lo hi body).Valid companionFormat ↔
      body.length ≤ 169 ∧ startByte :: lo :: hi :: body = commandFrame body := by
  constructor
  · intro h
    simp only [Segment.Valid, companionFormat] at h
    split_ifs at h with hle
    have hlength := Verdict.body.inj h
    refine ⟨by omega, ?_⟩
    have hlo : lo = UInt8.ofNat body.length := by
      rw [← UInt8.toNat_inj, UInt8.toNat_ofNat']
      have := lo.toNat_lt
      omega
    have hhi : hi = UInt8.ofNat (body.length / 256) := by
      rw [← UInt8.toNat_inj, UInt8.toNat_ofNat']
      have := lo.toNat_lt
      omega
    rw [commandFrame, hlo, hhi]
  · rintro ⟨hle, hframe⟩
    rw [commandFrame, List.cons.injEq, List.cons.injEq, List.cons.injEq] at hframe
    obtain ⟨-, rfl, rfl, -⟩ := hframe
    exact valid_frame (announcedLength_commandFrame (by omega)) hle

/-- A body is served with an accepted packet exactly when the parser accepts it. -/
theorem mem_served_iff {packet packet' accepted : CommandPacket} {bodies : List (List UInt8)}
    {served : List (CommandPacket × ParserError)}
    (h : commandServer.run packet bodies = some (packet', served)) :
    (accepted, .none) ∈ served ↔
      ∃ body ∈ bodies, mcCompanionParseCommand body CommandPacket.zero = (.none, accepted) := by
  induction bodies generalizing packet served with
  | nil =>
      obtain ⟨-, rfl⟩ := Prod.mk.inj (Option.some.inj h)
      simp
  | cons body bodies ih =>
      rw [commandServer_run_cons, prepend_eq_some_iff] at h
      obtain ⟨rest, hrun, rfl⟩ := h
      rw [List.singleton_append, List.mem_cons, ih hrun, List.exists_mem_cons_iff]
      refine or_congr_left ?_
      cases body with
      | nil => simp [parsedFrom]
      | cons command arguments =>
          have hcongr : mcCompanionParseCommand (command :: arguments) packet
              = mcCompanionParseCommand (command :: arguments) CommandPacket.zero :=
            mcCompanionParseCommand_congr (List.cons_ne_nil _ _) _ _
          rw [parsedFrom, hcongr]
          constructor
          · intro heq
            obtain ⟨rfl, hnone⟩ := Prod.mk.inj heq
            exact Prod.ext hnone.symm rfl
          · intro heq
            rw [heq]

/-- **Which packets are ever handed over without an error**: those the parser accepts, from a
cleared packet, for the body of a frame in the stream. -/
theorem callsBack_accepted_iff {chunks : List (List UInt8)} {packet : CommandPacket} :
    CallsBack ReaderState.initial chunks (packet, .none) ↔
      ∃ segs body rest, (∀ g ∈ segs, Segment.Valid companionFormat g) ∧ body.length ≤ 169 ∧
        mcCompanionParseCommand body CommandPacket.zero = (.none, packet) ∧
        chunks.flatten = segmentBytes companionFormat segs ++ commandFrame body ++ rest := by
  rw [callsBack_iff]
  constructor
  · intro hc
    -- the callback is made on some front part of the stream, on which the receiver is not stuck
    obtain ⟨w, rest, s', hw, hrun⟩ := receiver.exists_run_outputs ReaderState.initial chunks.flatten
    obtain ⟨-, bodies, hdeframe, hserve⟩ :=
      deframed_of_run (ReaderState.wellFormed_of_idle rfl) hrun
    obtain ⟨body, hbody, hparse⟩ := (mem_served_iff hserve).mp hc
    have hne : body ≠ [] := by
      rintro rfl
      simp at hparse
    obtain ⟨segs, lo, hi, rest', hsegs, hframe, rfl⟩ := (mem_bodies_iff hdeframe hne).mp hbody
    obtain ⟨hle, hbytes⟩ := valid_frame_iff.mp hframe
    refine ⟨segs, body, rest' ++ rest, hsegs, hle, hparse, ?_⟩
    rw [hw, ← hbytes, List.append_assoc]
    rfl
  · rintro ⟨segs, body, rest, hsegs, hle, hparse, hw⟩
    have hne : body ≠ [] := by
      rintro rfl
      simp at hparse
    have hframe := valid_frame_iff.mpr ⟨hle, rfl⟩
    have hdeframe := run_segments_frame hsegs hframe hne
    obtain ⟨r, hserve⟩ := Option.ne_none_iff_exists'.mp
      (commandServer_run_ne_none CommandPacket.zero (segmentBodies segs ++ [body]))
    obtain ⟨s', events, hrun, -, -, -, hcallbacks⟩ :=
      run_of_deframed (s := ReaderState.initial) (ReaderState.wellFormed_of_idle rfl) hdeframe
        hserve
    -- the frame is served before anything that follows it is looked at
    have hfront : receiver.outputs ReaderState.initial chunks.flatten
        = events ++ receiver.outputs s' rest := by
      rw [hw]
      exact receiver.outputs_append_of_run hrun rest
    rw [hfront, callbacks, List.filterMap_append]
    refine List.mem_append_left _ ?_
    rw [← callbacks, hcallbacks, mem_served_iff hserve]
    exact ⟨body, by simp, hparse⟩

end MeshcoreC
