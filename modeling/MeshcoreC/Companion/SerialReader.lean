import MeshcoreC.Companion.CommandParser
import MeshcoreC.Library.WhileLoop

/-! # The serial command reader

`mc_companion_serial_interface.c`, receiving side: the static receive buffer, position and command
packet, the frame handler and the loop of `mc_companion_read_serial_command`.

A call is a `while` loop over the statics, the bytes not yet consumed and a trace of what the call
has done: its stores into the receive buffer, its calls of the parser and its callbacks. The
callback is taken to return and to leave the reader's statics alone, as the sample server's does. -/

namespace MeshcoreC

open Buffers Loops

/-! ## The statics -/

/-- The static variables of the serial interface. -/
@[ext]
structure ReaderState where
  rxBuffer : Vector UInt8 maxFrameSize
  rxPosition : UInt16
  commandPacketBuffer : CommandPacket

/-- The statics of a freshly started receiver. -/
def ReaderState.initial : ReaderState := ⟨Vector.replicate maxFrameSize 0, 0, CommandPacket.zero⟩

/-- What a call does that can be seen from outside or is checked against the buffer's bounds. -/
inductive ReaderEvent
  /-- `rx_buffer[index] = ...` -/
  | store (index : ℕ)
  /-- The handler hands bytes to the parser; `rxPosition` and the recomputed length at that time. -/
  | parse (rxPosition length : UInt16) (data : List UInt8)
  /-- `callback(&command_packet_buffer, error)` -/
  | callback (command : CommandPacket) (error : ParserError)

/-- The start byte `'<'`. -/
def startByte : UInt8 := 60

/-- `rx_buffer[1] | (rx_buffer[2] << 8)`. -/
def lengthField (rxBuffer : Vector UInt8 maxFrameSize) : ℕ :=
  (view rxBuffer 1).toNat ||| (view rxBuffer 2).toNat <<< 8

/-- `sizeof(char) + sizeof(uint16_t) + (rx_buffer[1] | (rx_buffer[2] << 8))`, as a `uint16_t`. -/
def frameLength (rxBuffer : Vector UInt8 maxFrameSize) : UInt16 :=
  UInt16.ofNat (1 + 2 + lengthField rxBuffer)

namespace ReaderState

/-- `rx_buffer[rx_position] = b; rx_position++;` A store past the buffer changes nothing here, and
is found in the trace. -/
def storeByte (s : ReaderState) (b : UInt8) : ReaderState :=
  { s with
    rxBuffer := s.rxBuffer.setIfInBounds s.rxPosition.toNat b
    rxPosition := s.rxPosition + 1 }

/-- The trace of `storeByte`. -/
def storeEvent (s : ReaderState) : ReaderEvent := .store s.rxPosition.toNat

/-- `rx_position = 0;` -/
def reset (s : ReaderState) : ReaderState := { s with rxPosition := 0 }

end ReaderState

/-- `mc_companion_handle_serial_command_frame`. -/
def mcCompanionHandleSerialCommandFrame (s : ReaderState) : ReaderState × List ReaderEvent :=
  let length := frameLength s.rxBuffer
  -- "Packet is too short": the length counts the header, and is below 1 only if it wraps to 0
  if length < 1 then (s, [])
  else
    let data := slice (view s.rxBuffer) 3 (length - 3).toNat
    let r := mcCompanionParseCommand data s.commandPacketBuffer
    ({ s with commandPacketBuffer := r.2 },
      [.parse s.rxPosition length data, .callback r.2 r.1])

/-! ## The loop -/

/-- One call of `mc_companion_read_serial_command` under way: the statics, the bytes not yet
consumed, and what the call has done so far. -/
@[ext]
structure ReadCall where
  state : ReaderState
  receivedData : List UInt8
  trace : List ReaderEvent

/-- The inner loop of the idle mode: discard bytes up to a start byte and store that. -/
def searchStartByte (s : ReaderState) (trace : List ReaderEvent) : List UInt8 → ReadCall
  | [] => ⟨s, [], trace⟩
  | b :: rest =>
      if b = startByte then ⟨s.storeByte b, rest, trace ++ [s.storeEvent]⟩
      else searchStartByte s trace rest

/-- The inner loop of the body mode: store bytes while the frame is not complete. -/
def fillFrame (expectedLength : UInt16) (s : ReaderState) (trace : List ReaderEvent) :
    List UInt8 → ReadCall
  | [] => ⟨s, [], trace⟩
  | b :: rest =>
      if s.rxPosition < expectedLength then
        fillFrame expectedLength (s.storeByte b) (trace ++ [s.storeEvent]) rest
      else ⟨s, b :: rest, trace⟩

/-- Dispatch a complete frame: run the handler, then `rx_position = 0;`. -/
def ReadCall.dispatch (c : ReadCall) : ReadCall :=
  let r := mcCompanionHandleSerialCommandFrame c.state
  ⟨r.1.reset, c.receivedData, c.trace ++ r.2⟩

/-- The body of the outer loop, on the state it is entered in and a first byte that is there. -/
def readStep (c : ReadCall) : ReadCall :=
  match c.receivedData with
  | [] => c
  | b :: rest =>
      -- ready to receive a frame
      if c.state.rxPosition = 0 then searchStartByte c.state c.trace (b :: rest)
      -- started receiving: the two length bytes
      else if c.state.rxPosition = 1 ∨ c.state.rxPosition = 2 then
        ⟨c.state.storeByte b, rest, c.trace ++ [c.state.storeEvent]⟩
      else
        let expectedLength := frameLength c.state.rxBuffer
        -- an invalid length: the header is dropped, and no byte is consumed
        if maxFrameSize < expectedLength.toNat then { c with state := c.state.reset }
        else
          -- equality, not `≤`: a position behind the end is left as it is
          let c' := fillFrame expectedLength c.state c.trace (b :: rest)
          if expectedLength = c'.state.rxPosition then c'.dispatch else c'

/-- `mc_companion_read_serial_command`: loop while there is received data. -/
def mcCompanionReadSerialCommand : WhileLoop ReadCall where
  guard c := !c.receivedData.isEmpty
  body := readStep

/-- The call on `data` in state `s` returns, in state `s'`, having done `events`. -/
def Reads (s : ReaderState) (data : List UInt8) (s' : ReaderState)
    (events : List ReaderEvent) : Prop :=
  mcCompanionReadSerialCommand.Exits ⟨s, data, []⟩ ⟨s', [], events⟩

/-- Noise in front of a start byte is discarded. -/
example : Reads ReaderState.initial [65, 60] (ReaderState.initial.storeByte startByte)
    [ReaderState.initial.storeEvent] :=
  WhileLoop.exits_of_runFuel (n := 1) rfl

/-- The call on `data` in state `s` returns. -/
def Returns (s : ReaderState) (data : List UInt8) : Prop :=
  mcCompanionReadSerialCommand.Halts ⟨s, data, []⟩

/-- The states left behind by sequences of calls, each of which returned. -/
inductive Reachable : ReaderState → Prop
  /-- A freshly started receiver. -/
  | initial : Reachable ReaderState.initial
  /-- After one more call. -/
  | call {s s' : ReaderState} {data : List UInt8} {events : List ReaderEvent}
      (hs : Reachable s) (hread : Reads s data s' events) : Reachable s'

/-- The arguments of a callback event. -/
def ReaderEvent.callback? : ReaderEvent → Option (CommandPacket × ParserError)
  | .callback command error => some (command, error)
  | _ => none

/-- The callback invocations among some events, in order. -/
def callbacks (events : List ReaderEvent) : List (CommandPacket × ParserError) :=
  events.filterMap ReaderEvent.callback?

end MeshcoreC
