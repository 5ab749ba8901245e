import MeshcoreC.Companion.SerialReader
import MeshcoreC.Library.Transducer

/-! # The reader one byte at a time

The outer loop of `mc_companion_read_serial_command` consumes no byte in some iterations and many in
others.

* **`receiver`** — the serial reader as a transducer: one byte takes the statics to the next statics
  and emits the events of that byte, or gets stuck.
* **`Moves`** — what the loop does with its next byte; `moves_readStep` says that an iteration is a
  sequence of moves, so that what every move keeps is kept by the loop.
* **`reads_iff_run`** — the loop returns exactly what the byte machine returns, and runs forever
  exactly where that is stuck.
* **`performs_iff_outputs`** — what a call does before it returns or runs on forever are the byte
  machine's outputs. -/

namespace MeshcoreC

open Buffers Loops Streams

/-! ## The reader one byte at a time -/

namespace ReaderState

/-- The idle mode on one byte. -/
def scan (s : ReaderState) (b : UInt8) : ReaderState × List ReaderEvent :=
  if b = startByte then (s.storeByte b, [s.storeEvent]) else (s, [])

/-- Dispatch a complete frame and go idle. -/
def dispatch (s : ReaderState) : ReaderState × List ReaderEvent :=
  let r := mcCompanionHandleSerialCommandFrame s
  (r.1.reset, r.2)

end ReaderState

/-- The reader as a transducer: first what the loop does without consuming, then the byte. -/
def receiver : Transducer ReaderState UInt8 ReaderEvent where
  feed s b :=
    if s.rxPosition = 0 then some (s.scan b)
    else if s.rxPosition = 1 ∨ s.rxPosition = 2 then some (s.storeByte b, [s.storeEvent])
    else
      let expectedLength := frameLength s.rxBuffer
      -- the reset consumes nothing, so the same byte is looked at in the idle mode
      if maxFrameSize < expectedLength.toNat then some (s.reset.scan b)
      else if s.rxPosition < expectedLength then
        if s.rxPosition + 1 = expectedLength then
          some ((s.storeByte b).dispatch.1, s.storeEvent :: (s.storeByte b).dispatch.2)
        else some (s.storeByte b, [s.storeEvent])
      -- an empty frame: dispatched first, then the byte is looked at in the idle mode
      else if s.rxPosition = expectedLength then
        some ((s.dispatch.1.scan b).1, s.dispatch.2 ++ (s.dispatch.1.scan b).2)
      else none

/-! ## The loop computes what the byte machine computes -/

namespace ReaderState

@[simp] theorem reset_rxPosition (s : ReaderState) : s.reset.rxPosition = 0 := rfl

@[simp] theorem storeByte_rxPosition (s : ReaderState) (b : UInt8) :
    (s.storeByte b).rxPosition = s.rxPosition + 1 := rfl

@[simp] theorem dispatch_rxPosition (s : ReaderState) : s.dispatch.1.rxPosition = 0 := rfl

/-- A store inside the body leaves the length bytes alone. -/
theorem frameLength_storeByte (s : ReaderState) (b : UInt8) (h : 3 ≤ s.rxPosition.toNat) :
    frameLength (s.storeByte b).rxBuffer = frameLength s.rxBuffer := by
  have hview : ∀ i, i < 3 → view (s.storeByte b).rxBuffer i = view s.rxBuffer i := by
    intro i hi
    simp only [view, storeByte]
    rw [Vector.getElem?_setIfInBounds_ne (by omega)]
  rw [frameLength, frameLength, lengthField, lengthField, hview 1 (by omega), hview 2 (by omega)]

end ReaderState

/-- Body mode, in numbers. -/
theorem three_le_of_body {p : UInt16} (h0 : p ≠ 0) (h12 : ¬ (p = 1 ∨ p = 2)) : 3 ≤ p.toNat := by
  simp only [ne_eq, ← UInt16.toNat_inj, not_or] at h0 h12
  simp only [UInt16.reduceToNat] at h0 h12
  omega

/-- In header mode the receiver is not idle. -/
theorem ne_zero_of_header {p : UInt16} (h12 : p = 1 ∨ p = 2) : p ≠ 0 := by
  rcases h12 with rfl | rfl
  · decide
  · decide

/-- Numbers from 3 on are in body mode. -/
theorem body_of_three_le {p : UInt16} (h : 3 ≤ p.toNat) : p ≠ 0 ∧ ¬ (p = 1 ∨ p = 2) := by
  refine ⟨?_, not_or.mpr ⟨?_, ?_⟩⟩
  all_goals
    rintro rfl
    exact absurd h (by decide)

/-- The next position, in numbers, while the frame is incomplete. -/
theorem toNat_succ_of_lt {p n : UInt16} (h : p.toNat < n.toNat) :
    (p + 1).toNat = p.toNat + 1 := by
  have hlt := n.toNat_lt
  simp only [UInt16.toNat_add, UInt16.reduceToNat]
  omega

/-! ## Moves -/

/-- One move of a call on its next byte: the byte is consumed, or the receiver goes idle. -/
inductive Moves : ReadCall → ReadCall → Prop
  /-- Between frames: noise is discarded. -/
  | noise {s : ReaderState} (h0 : s.rxPosition = 0) {b : UInt8} (hb : b ≠ startByte)
      (rest : List UInt8) (trace : List ReaderEvent) :
      Moves ⟨s, b :: rest, trace⟩ ⟨s, rest, trace⟩
  /-- Between frames: a start byte is stored. -/
  | start {s : ReaderState} (h0 : s.rxPosition = 0) (rest : List UInt8)
      (trace : List ReaderEvent) :
      Moves ⟨s, startByte :: rest, trace⟩ ⟨s.storeByte startByte, rest, trace ++ [s.storeEvent]⟩
  /-- A length byte is stored. -/
  | header {s : ReaderState} (h12 : s.rxPosition = 1 ∨ s.rxPosition = 2) (b : UInt8)
      (rest : List UInt8) (trace : List ReaderEvent) :
      Moves ⟨s, b :: rest, trace⟩ ⟨s.storeByte b, rest, trace ++ [s.storeEvent]⟩
  /-- A header with an invalid length is dropped. -/
  | drop {s : ReaderState} (h3 : 3 ≤ s.rxPosition.toNat)
      (hbound : maxFrameSize < (frameLength s.rxBuffer).toNat) (b : UInt8) (rest : List UInt8)
      (trace : List ReaderEvent) :
      Moves ⟨s, b :: rest, trace⟩ ⟨s.reset, b :: rest, trace⟩
  /-- A byte of the body is stored that does not complete it. -/
  | more {s : ReaderState} (h3 : 3 ≤ s.rxPosition.toNat)
      (hbound : (frameLength s.rxBuffer).toNat ≤ maxFrameSize)
      (hlt : s.rxPosition.toNat + 1 < (frameLength s.rxBuffer).toNat) (b : UInt8)
      (rest : List UInt8) (trace : List ReaderEvent) :
      Moves ⟨s, b :: rest, trace⟩ ⟨s.storeByte b, rest, trace ++ [s.storeEvent]⟩
  /-- The last byte of the body is stored, and the frame dispatched. -/
  | last {s : ReaderState} (h3 : 3 ≤ s.rxPosition.toNat)
      (hbound : (frameLength s.rxBuffer).toNat ≤ maxFrameSize)
      (hlast : s.rxPosition.toNat + 1 = (frameLength s.rxBuffer).toNat) (b : UInt8)
      (rest : List UInt8) (trace : List ReaderEvent) :
      Moves ⟨s, b :: rest, trace⟩
        ⟨(s.storeByte b).dispatch.1, rest, trace ++ s.storeEvent :: (s.storeByte b).dispatch.2⟩
  /-- A frame that is complete already is dispatched. -/
  | complete {s : ReaderState} (h3 : 3 ≤ s.rxPosition.toNat)
      (hbound : (frameLength s.rxBuffer).toNat ≤ maxFrameSize)
      (heq : s.rxPosition = frameLength s.rxBuffer) (b : UInt8) (rest : List UInt8)
      (trace : List ReaderEvent) :
      Moves ⟨s, b :: rest, trace⟩ ⟨s.dispatch.1, b :: rest, trace ++ s.dispatch.2⟩

open Relation

/-- The search for a start byte moves over the noise. -/
theorem moves_searchStartByte {s : ReaderState} (h : s.rxPosition = 0) (trace : List ReaderEvent)
    (data : List UInt8) :
    ReflTransGen Moves ⟨s, data, trace⟩ (searchStartByte s trace data) := by
  induction data with
  | nil => exact .refl
  | cons b rest ih =>
      rw [searchStartByte]
      by_cases hb : b = startByte
      · subst hb
        rw [if_pos rfl]
        exact .single (.start h rest trace)
      · rw [if_neg hb]
        exact .head (.noise h hb rest trace) ih

/-- With the frame complete there is nothing left to fill. -/
theorem fillFrame_of_not_lt {expectedLength : UInt16} {s : ReaderState}
    (h : ¬ s.rxPosition < expectedLength) (trace : List ReaderEvent) (data : List UInt8) :
    fillFrame expectedLength s trace data = ⟨s, data, trace⟩ := by
  cases data with
  | nil => rfl
  | cons b rest => rw [fillFrame, if_neg h]

/-- Dispatching, on the byte machine's side. -/
theorem dispatch_mk (s : ReaderState) (data : List UInt8) (trace : List ReaderEvent) :
    ReadCall.dispatch ⟨s, data, trace⟩ = ⟨s.dispatch.1, data, trace ++ s.dispatch.2⟩ := rfl

/-- Filling the frame, and dispatching it when it is complete, is a sequence of moves. -/
theorem moves_fillFrame {s : ReaderState} (h3 : 3 ≤ s.rxPosition.toNat)
    (hbound : (frameLength s.rxBuffer).toNat ≤ maxFrameSize)
    (hlt : s.rxPosition < frameLength s.rxBuffer) (trace : List ReaderEvent) (data : List UInt8) :
    ReflTransGen Moves ⟨s, data, trace⟩
      (if frameLength s.rxBuffer
        = (fillFrame (frameLength s.rxBuffer) s trace data).state.rxPosition
      then (fillFrame (frameLength s.rxBuffer) s trace data).dispatch
      else fillFrame (frameLength s.rxBuffer) s trace data) := by
  induction data generalizing s trace with
  | nil =>
      have hne : frameLength s.rxBuffer ≠ s.rxPosition := by
        intro heq
        rw [heq] at hlt
        exact absurd hlt (UInt16.lt_irrefl _)
      rw [fillFrame, if_neg hne]
  | cons b rest ih =>
      have hlen := s.frameLength_storeByte b h3
      have hltNat : s.rxPosition.toNat < (frameLength s.rxBuffer).toNat :=
        UInt16.lt_iff_toNat_lt.mp hlt
      have hsucc := toNat_succ_of_lt hltNat
      rw [fillFrame, if_pos hlt]
      by_cases hlast : s.rxPosition.toNat + 1 = (frameLength s.rxBuffer).toNat
      · -- the byte completes the frame: the fill stops and the frame is dispatched
        have heq : (s.storeByte b).rxPosition = frameLength s.rxBuffer :=
          UInt16.toNat_inj.mp (hsucc.trans hlast)
        have hstop : ¬ (s.storeByte b).rxPosition < frameLength s.rxBuffer := by
          rw [heq]
          exact UInt16.lt_irrefl _
        rw [fillFrame_of_not_lt hstop, if_pos heq.symm, dispatch_mk, List.append_assoc]
        exact .single (.last h3 hbound hlast b rest trace)
      · -- the body goes on: the induction hypothesis is about the state with the byte stored
        have hpos : (s.storeByte b).rxPosition.toNat = s.rxPosition.toNat + 1 := hsucc
        have hlt' : (s.storeByte b).rxPosition < frameLength s.rxBuffer := by
          rw [UInt16.lt_iff_toNat_lt, hpos]
          omega
        have hih := ih (s := s.storeByte b) (by omega) (by rwa [hlen]) (by rwa [hlen])
          (trace ++ [s.storeEvent])
        rw [hlen] at hih
        exact .head (.more h3 hbound (by omega) b rest trace) hih

/-- **One iteration of the loop is a sequence of moves.** -/
theorem moves_readStep (c : ReadCall) : ReflTransGen Moves c (readStep c) := by
  obtain ⟨s, data, trace⟩ := c
  cases data with
  | nil => exact .refl
  | cons b rest =>
      simp only [readStep]
      by_cases h0 : s.rxPosition = 0
      · rw [if_pos h0]
        exact moves_searchStartByte h0 trace (b :: rest)
      by_cases h12 : s.rxPosition = 1 ∨ s.rxPosition = 2
      · rw [if_neg h0, if_pos h12]
        exact .single (.header h12 b rest trace)
      have h3 := three_le_of_body h0 h12
      rw [if_neg h0, if_neg h12]
      by_cases hbound : maxFrameSize < (frameLength s.rxBuffer).toNat
      · rw [if_pos hbound]
        exact .single (.drop h3 hbound b rest trace)
      rw [if_neg hbound]
      by_cases hlt : s.rxPosition < frameLength s.rxBuffer
      · exact moves_fillFrame h3 (not_lt.mp hbound) hlt trace (b :: rest)
      · rw [fillFrame_of_not_lt hlt]
        by_cases heq : s.rxPosition = frameLength s.rxBuffer
        · -- a complete frame, noticed only now that another byte has come
          rw [if_pos heq.symm, dispatch_mk]
          exact .single (.complete h3 (not_lt.mp hbound) heq b rest trace)
        · -- past the announced end: the iteration does nothing at all
          rw [if_neg (Ne.symm heq)]

/-! ## What every byte keeps -/

/-- Feeding a length byte. -/
theorem receiver_feed_header {s : ReaderState} (h12 : s.rxPosition = 1 ∨ s.rxPosition = 2)
    (b : UInt8) : receiver.feed s b = some (s.storeByte b, [s.storeEvent]) := by
  have h0 := ne_zero_of_header h12
  simp only [receiver, if_neg h0, if_pos h12]

/-- Feeding a byte to an idle receiver. -/
theorem receiver_feed_idle {s : ReaderState} (h : s.rxPosition = 0) (b : UInt8) :
    receiver.feed s b = some ((s.scan b).1, (s.scan b).2) := by
  simp only [receiver, if_pos h]

/-- Feeding a byte behind an acceptable header. -/
theorem receiver_feed_inside {s : ReaderState} (h3 : 3 ≤ s.rxPosition.toNat)
    (hbound : (frameLength s.rxBuffer).toNat ≤ maxFrameSize) (b : UInt8) :
    receiver.feed s b =
      if s.rxPosition < frameLength s.rxBuffer then
        if s.rxPosition + 1 = frameLength s.rxBuffer then
          some ((s.storeByte b).dispatch.1, s.storeEvent :: (s.storeByte b).dispatch.2)
        else some (s.storeByte b, [s.storeEvent])
      else if s.rxPosition = frameLength s.rxBuffer then
        some ((s.dispatch.1.scan b).1, s.dispatch.2 ++ (s.dispatch.1.scan b).2)
      else none := by
  obtain ⟨h0, h12⟩ := body_of_three_le h3
  simp only [receiver, if_neg h0, if_neg h12, if_neg (not_lt.mpr hbound)]

/-- A quantity of a call that consuming a byte, as the byte machine does it, leaves alone. -/
def KeptByFeed {γ : Type*} (val : ReadCall → γ) : Prop :=
  ∀ s b s' out rest trace, receiver.feed s b = some (s', out) →
    val ⟨s, b :: rest, trace⟩ = val ⟨s', rest, trace ++ out⟩

section KeptByFeed

variable {γ : Type*} {val : ReadCall → γ}

/-- A move keeps it: the moves that consume nothing are part of what the byte machine does with the
byte that is looked at next. -/
theorem val_moves (hval : KeptByFeed val) {c c' : ReadCall} (h : Moves c c') :
    val c' = val c := by
  cases h with
  | @noise s h0 b hb rest trace =>
      have hfeed := receiver_feed_idle h0 b
      rw [ReaderState.scan, if_neg hb] at hfeed
      rw [hval _ _ _ _ _ _ hfeed, List.append_nil]
  | @start s h0 rest trace =>
      have hfeed := receiver_feed_idle h0 startByte
      rw [ReaderState.scan, if_pos rfl] at hfeed
      rw [hval _ _ _ _ _ _ hfeed]
  | @header s h12 b rest trace =>
      rw [hval _ _ _ _ _ _ (receiver_feed_header h12 b)]
  | @drop s h3 hbound b rest trace =>
      obtain ⟨h0, h12⟩ := body_of_three_le h3
      have hfeed : receiver.feed s b = some ((s.reset.scan b).1, (s.reset.scan b).2) := by
        simp only [receiver, if_neg h0, if_neg h12, if_pos hbound]
      rw [hval _ _ _ _ _ _ hfeed, hval _ _ _ _ _ _ (receiver_feed_idle s.reset_rxPosition b)]
  | @more s h3 hbound hlt b rest trace =>
      have hlt' : s.rxPosition < frameLength s.rxBuffer :=
        UInt16.lt_iff_toNat_lt.mpr (Nat.lt_of_succ_lt hlt)
      have hne : s.rxPosition + 1 ≠ frameLength s.rxBuffer := by
        intro heq
        rw [← heq, toNat_succ_of_lt (Nat.lt_of_succ_lt hlt)] at hlt
        exact absurd hlt (lt_irrefl _)
      have hfeed := receiver_feed_inside h3 hbound b
      rw [if_pos hlt', if_neg hne] at hfeed
      rw [hval _ _ _ _ _ _ hfeed]
  | @last s h3 hbound hlast b rest trace =>
      have hltNat : s.rxPosition.toNat < (frameLength s.rxBuffer).toNat :=
        Nat.lt_of_succ_le hlast.le
      have heq : s.rxPosition + 1 = frameLength s.rxBuffer :=
        UInt16.toNat_inj.mp ((toNat_succ_of_lt hltNat).trans hlast)
      have hfeed := receiver_feed_inside h3 hbound b
      rw [if_pos (UInt16.lt_iff_toNat_lt.mpr hltNat), if_pos heq] at hfeed
      rw [hval _ _ _ _ _ _ hfeed]
  | @complete s h3 hbound heq b rest trace =>
      have hlt : ¬ s.rxPosition < frameLength s.rxBuffer := by
        rw [← heq]
        exact UInt16.lt_irrefl _
      have hfeed := receiver_feed_inside h3 hbound b
      rw [if_neg hlt, if_pos heq] at hfeed
      rw [hval _ _ _ _ _ _ hfeed,
        hval _ _ _ _ _ _ (receiver_feed_idle s.dispatch_rxPosition b), List.append_assoc]

/-- **One iteration of the loop keeps what the byte machine's steps keep.** -/
theorem val_readStep (hval : KeptByFeed val) (c : ReadCall) : val (readStep c) = val c := by
  have hmoves := moves_readStep c
  generalize readStep c = c' at hmoves ⊢
  induction hmoves with
  | refl => rfl
  | tail _ hmove ih => exact (val_moves hval hmove).trans ih

end KeptByFeed

/-- What a call returns with, if it returns. -/
def ReadCall.result (c : ReadCall) : Option ReadCall :=
  (receiver.run c.state c.receivedData).map fun r => ⟨r.1, [], c.trace ++ r.2⟩

/-- Consuming a byte does not change what the call returns with. -/
theorem keptByFeed_result : KeptByFeed ReadCall.result := by
  intro s b s' out rest trace hfeed
  simp only [ReadCall.result, Transducer.run_cons_of_feed _ hfeed]
  cases receiver.run s' rest <;> simp

/-- A byte consumed weighs more than leaving the idle mode. -/
def ReadCall.weight (c : ReadCall) : ℕ :=
  2 * c.receivedData.length + if c.state.rxPosition = 0 then 0 else 1

/-- The search for a start byte consumes the first byte. -/
theorem length_searchStartByte (s : ReaderState) (trace : List ReaderEvent) (b : UInt8)
    (rest : List UInt8) :
    (searchStartByte s trace (b :: rest)).receivedData.length ≤ rest.length := by
  induction rest generalizing b with
  | nil => rw [searchStartByte]; split <;> simp [searchStartByte]
  | cons b' rest ih =>
      rw [searchStartByte]
      split
      · exact le_rfl
      · exact (ih b').trans (by simp)

/-- Filling the frame gives no byte back. -/
theorem length_fillFrame (expectedLength : UInt16) (s : ReaderState) (trace : List ReaderEvent)
    (data : List UInt8) :
    (fillFrame expectedLength s trace data).receivedData.length ≤ data.length := by
  induction data generalizing s trace with
  | nil => simp [fillFrame]
  | cons b rest ih =>
      rw [fillFrame]
      split
      · exact (ih _ _).trans (by simp)
      · exact le_rfl

/-- **Every iteration makes progress**, unless the byte machine is stuck on the next byte: it
consumes a byte, or goes idle. -/
theorem weight_readStep_lt {s : ReaderState} {b : UInt8} (hfeed : receiver.feed s b ≠ none)
    (rest : List UInt8) (trace : List ReaderEvent) :
    (readStep ⟨s, b :: rest, trace⟩).weight < ReadCall.weight ⟨s, b :: rest, trace⟩ := by
  have hflag : ∀ p : UInt16, (if p = 0 then 0 else 1) ≤ 1 := by intro p; split <;> omega
  simp only [readStep]
  by_cases h0 : s.rxPosition = 0
  · have hlen := length_searchStartByte s trace b rest
    have := hflag (searchStartByte s trace (b :: rest)).state.rxPosition
    rw [if_pos h0]
    simp only [ReadCall.weight, List.length_cons]
    omega
  by_cases h12 : s.rxPosition = 1 ∨ s.rxPosition = 2
  · have := hflag (s.storeByte b).rxPosition
    rw [if_neg h0, if_pos h12]
    simp only [ReadCall.weight, List.length_cons]
    omega
  rw [if_neg h0, if_neg h12]
  by_cases hbound : maxFrameSize < (frameLength s.rxBuffer).toNat
  · -- nothing is consumed, but the receiver goes idle
    rw [if_pos hbound]
    simp only [ReadCall.weight, if_neg h0, ReaderState.reset_rxPosition, if_true]
    omega
  rw [if_neg hbound]
  by_cases hlt : s.rxPosition < frameLength s.rxBuffer
  · -- at least `b` is consumed
    have hlen := length_fillFrame (frameLength s.rxBuffer) (s.storeByte b)
      (trace ++ [s.storeEvent]) rest
    rw [fillFrame, if_pos hlt]
    generalize fillFrame _ (s.storeByte b) _ rest = c' at hlen
    have h1 := hflag c'.state.rxPosition
    have h2 := hflag c'.dispatch.state.rxPosition
    have hdata : c'.dispatch.receivedData = c'.receivedData := rfl
    split <;> simp only [ReadCall.weight, List.length_cons, hdata] <;> omega
  · rw [fillFrame_of_not_lt hlt]
    by_cases heq : s.rxPosition = frameLength s.rxBuffer
    · have hpos : (ReadCall.dispatch ⟨s, b :: rest, trace⟩).state.rxPosition = 0 := rfl
      have hdata : (ReadCall.dispatch ⟨s, b :: rest, trace⟩).receivedData = b :: rest := rfl
      rw [if_pos heq.symm]
      simp only [ReadCall.weight, hpos, hdata, if_true, if_neg h0]
      omega
    · -- the announced length is below the position: on such a header the byte machine is stuck
      refine absurd ?_ hfeed
      simp only [receiver, if_neg h0, if_neg h12, if_neg hbound, if_neg hlt, if_neg heq]

/-- **The loop computes the byte machine's run**, and nothing else. -/
theorem exits_iff_result (c c' : ReadCall) :
    mcCompanionReadSerialCommand.Exits c c' ↔ c.result = some c' := by
  refine WhileLoop.exits_iff_of_value (μ := ReadCall.weight)
    (fun c _ => val_readStep keptByFeed_result c) ?_ ?_ c c'
  · intro c hguard
    have hdata : c.receivedData = [] := by
      simpa [mcCompanionReadSerialCommand] using hguard
    obtain ⟨s, data, trace⟩ := c
    subst hdata
    simp [ReadCall.result]
  · rintro ⟨s, data, trace⟩ hresult hguard
    cases data with
    | nil => simp [mcCompanionReadSerialCommand] at hguard
    | cons b rest =>
        refine weight_readStep_lt ?_ rest trace
        intro hfeed
        simp [ReadCall.result, Transducer.run_cons, hfeed] at hresult

/-- A call returns what the byte machine returns. -/
theorem reads_iff_run {s s' : ReaderState} {data : List UInt8} {events : List ReaderEvent} :
    Reads s data s' events ↔ receiver.run s data = some (s', events) := by
  rw [Reads, exits_iff_result, ReadCall.result, Option.map_eq_some_iff]
  constructor
  · rintro ⟨⟨s₁, out⟩, hrun, heq⟩
    obtain ⟨rfl, -, rfl⟩ := ReadCall.mk.inj heq
    simpa using hrun
  · intro hrun
    exact ⟨(s', events), hrun, by simp⟩

/-- A call returns exactly when the byte machine does not get stuck. -/
theorem returns_iff_run {s : ReaderState} {data : List UInt8} :
    Returns s data ↔ receiver.run s data ≠ none := by
  rw [Returns, WhileLoop.Halts]
  simp only [exits_iff_result, ReadCall.result, Option.map_eq_some_iff]
  constructor
  · rintro ⟨c, r, hrun, -⟩
    simp [hrun]
  · intro hrun
    obtain ⟨r, hr⟩ := Option.ne_none_iff_exists'.mp hrun
    exact ⟨_, r, hr, rfl⟩

/-! ## What a call does, whether or not it returns -/

/-- What a call has done and has yet to do. -/
def ReadCall.doings (c : ReadCall) : List ReaderEvent :=
  c.trace ++ receiver.outputs c.state c.receivedData

/-- Consuming a byte only moves what is yet to be done to what has been done. -/
theorem keptByFeed_doings : KeptByFeed ReadCall.doings := by
  intro s b s' out rest trace hfeed
  simp only [ReadCall.doings]
  rw [receiver.outputs_cons_of_feed hfeed, List.append_assoc]

/-- A call comes to a point where it has done all it ever does. -/
theorem exists_visits_done (c : ReadCall) :
    ∃ c', mcCompanionReadSerialCommand.Visits c c' ∧
      receiver.outputs c'.state c'.receivedData = [] := by
  refine WhileLoop.exists_visits_of_drop ReadCall.weight ?_ c
  rintro ⟨s, data, trace⟩ hmore
  cases data with
  | nil => exact absurd rfl hmore
  | cons b rest =>
      refine ⟨rfl, weight_readStep_lt ?_ rest trace⟩
      intro hfeed
      exact hmore (receiver.outputs_cons_of_none hfeed rest)

/-- What has been done at any point of a call is the front of the byte machine's outputs. -/
theorem doings_of_visits {s : ReaderState} {data : List UInt8} {call : ReadCall}
    (hvisits : mcCompanionReadSerialCommand.Visits ⟨s, data, []⟩ call) :
    call.trace ++ receiver.outputs call.state call.receivedData = receiver.outputs s data :=
  hvisits.value_eq (fun c _ => val_readStep keptByFeed_doings c)

/-- The call on `data` in state `s` performs these events, whether or not it returns: it comes to a
point where it has performed them, and at every point it has performed some front part of them. -/
def Performs (s : ReaderState) (data : List UInt8) (events : List ReaderEvent) : Prop :=
  (∃ call, mcCompanionReadSerialCommand.Visits ⟨s, data, []⟩ call ∧ call.trace = events) ∧
    ∀ call, mcCompanionReadSerialCommand.Visits ⟨s, data, []⟩ call → call.trace <+: events

/-- **A call performs the byte machine's outputs**, and nothing else. -/
theorem performs_iff_outputs {s : ReaderState} {data : List UInt8} {events : List ReaderEvent} :
    Performs s data events ↔ receiver.outputs s data = events := by
  obtain ⟨done, hdone, hall⟩ := exists_visits_done ⟨s, data, []⟩
  have htrace : done.trace = receiver.outputs s data := by
    have hdoings := doings_of_visits hdone
    rwa [hall, List.append_nil] at hdoings
  constructor
  · rintro ⟨⟨call, hvisits, rfl⟩, hfront⟩
    -- each of the two is a front part of the other
    refine (List.IsPrefix.eq_of_length_le ?_ ?_).symm
    · exact ⟨_, doings_of_visits hvisits⟩
    · rw [← htrace]
      exact (hfront done hdone).length_le
  · rintro rfl
    exact ⟨⟨done, hdone, htrace⟩, fun call hvisits => ⟨_, doings_of_visits hvisits⟩⟩

end MeshcoreC
