import MeshcoreC.Library.WireProgram

/-! # The packet codec

`packet.c`: a message, `meshcore_serialize` and `meshcore_deserialize`. A packet is a header byte
with route, type and version, two bytes of transport codes on two of the four routes, a path with
its length, and the payload. Enumerations are 32-bit numbers, as the compiler stores them. -/

namespace MeshcoreC.Mesh

open Buffers EarlyReturn Wire

/-- `MESHCORE_CIPHER_MAC_SIZE`. -/
def cipherMacSize : ℕ := 2

/-- `MESHCORE_MAX_PAYLOAD_SIZE`. -/
def maxPayloadSize : ℕ := 184

/-- `MESHCORE_MAX_PATH_SIZE`. -/
def maxPathSize : ℕ := 64

/-- `MESHCORE_MAX_TRANS_UNIT`. -/
def maxTransUnit : ℕ := 255

/-- `meshcore_route_type_t`. -/
inductive RouteType
  | transportFlood
  | flood
  | direct
  | transportDirect
  deriving DecidableEq, Repr

/-- The numeric values of `meshcore_route_type_t`. -/
def RouteType.value : RouteType → UInt32
  | transportFlood => 0
  | flood => 1
  | direct => 2
  | transportDirect => 3

/-- `meshcore_message_t`. -/
@[ext]
structure Message where
  type : UInt32
  route : UInt32
  version : UInt8
  transportCodes : Vector UInt16 2
  pathLength : UInt8
  path : Vector UInt8 maxPathSize
  payloadLength : UInt8
  payload : Vector UInt8 maxPayloadSize
  deriving DecidableEq, Repr

/-- A message cleared by `memset`. -/
def Message.zero : Message where
  type := 0
  route := 0
  version := 0
  transportCodes := #v[0, 0]
  pathLength := 0
  path := Vector.replicate maxPathSize 0
  payloadLength := 0
  payload := Vector.replicate maxPayloadSize 0

/-! ## The line header -/

/-- `PACKET_HEADER_ROUTE_SHIFT` and `PACKET_HEADER_ROUTE_MASK`. -/
def headerRouteShift : UInt32 := 0

@[inherit_doc headerRouteShift]
def headerRouteMask : UInt32 := 0x03

/-- `PACKET_HEADER_TYPE_SHIFT` and `PACKET_HEADER_TYPE_MASK`. -/
def headerTypeShift : UInt32 := 2

@[inherit_doc headerTypeShift]
def headerTypeMask : UInt32 := 0x0F

/-- `PACKET_HEADER_VER_SHIFT` and `PACKET_HEADER_VER_MASK`. -/
def headerVerShift : UInt32 := 6

@[inherit_doc headerVerShift]
def headerVerMask : UInt32 := 0x03

/-- `sizeof(meshcore_line_header_t)`, and the offset of its `transport_codes`: the array has no
elements. -/
def sizeofLineHeader : ℕ := 1

/-- `member_size(meshcore_line_header_t, transport_codes)`: the array has no elements. -/
def memberSizeTransportCodes : ℕ := 0

/-- The test of both codecs for a route with transport codes. -/
abbrev HasTransportCodes (route : UInt32) : Prop :=
  route = RouteType.transportFlood.value ∨ route = RouteType.transportDirect.value

/-! ## The encoder -/

/-- The bytes of `message->transport_codes`. -/
def Message.transportCodesBytes (message : Message) : List UInt8 :=
  message.transportCodes.toList.flatMap fun code => leBytes 2 code.toNat

/-- The three header fields are put into the header byte one after the other, by addition. -/
def putLineHeader (message : Message) (lineHeader : ℕ) : Prog (WireState OutBuffer) Unit := do
  put lineHeader [((message.route &&& headerRouteMask) <<< headerRouteShift).toUInt8]
  let header ← current fun out => out.mem lineHeader
  put lineHeader [header + ((message.type &&& headerTypeMask) <<< headerTypeShift).toUInt8]
  let header ← current fun out => out.mem lineHeader
  put lineHeader
    [header + ((message.version.toUInt32 &&& headerVerMask) <<< headerVerShift).toUInt8]

/-- `meshcore_serialize`, behind its null check. -/
def serializeBody (message : Message) : Prog (WireState OutBuffer) Unit := do
  clear maxTransUnit
  rejectIf (maxPathSize < message.pathLength.toNat ∨
    maxPayloadSize < message.payloadLength.toNat)
  let lineHeader ← position
  advance sizeofLineHeader
  putLineHeader message lineHeader.toNat
  whenever (HasTransportCodes message.route) do
    let p ← position
    -- nothing is copied, but the position moves on
    put p.toNat (message.transportCodesBytes.take memberSizeTransportCodes)
    advance 2
  let p ← position
  put p.toNat [message.pathLength]
  advance 1
  let p ← position
  copyArray p.toNat message.path message.pathLength.toNat
  advance message.pathLength.toNat
  let p ← position
  copyArray p.toNat message.payload message.payloadLength.toNat
  advance message.payloadLength.toNat
  finish

/-- `meshcore_serialize`. -/
def meshcoreSerialize (message : Message) (outData : Option Memory) : Outcome OutBuffer :=
  call (serializeBody message) (outData.map fun mem => ⟨mem, none⟩)

/-! ## The decoder -/

/-- The three header fields are read from the header byte. -/
def readLineHeader (data : Memory) (lineHeader : ℕ) : Prog (WireState Message) Unit := do
  let header ← readByte data lineHeader
  assign fun m => { m with route := (header.toUInt32 >>> headerRouteShift) &&& headerRouteMask }
  let header ← readByte data lineHeader
  assign fun m => { m with type := (header.toUInt32 >>> headerTypeShift) &&& headerTypeMask }
  let header ← readByte data lineHeader
  assign fun m =>
    { m with version := ((header.toUInt32 >>> headerVerShift) &&& headerVerMask).toUInt8 }

/-- The first transport code is read, if the route has transport codes. -/
def readTransportCodes (data : Memory) (size : UInt8) (lineHeader : ℕ) :
    Prog (WireState Message) Unit := do
  let route ← current Message.route
  whenever (HasTransportCodes route) do
    let p ← position
    rejectIf (toSizeT (size.toNat - p.toNat) < 2)
    -- `sizeof(uint16_t)` bytes: the second code is never read
    copyIn data (lineHeader + sizeofLineHeader) 2 4 fun bytes m =>
      { m with transportCodes := m.transportCodes.set 0 (UInt16.ofNat (ofLeBytes bytes)) }
    advance 2

/-- The path is read. There is no check that it lies within the packet. -/
def readPath (data : Memory) (size : UInt8) : Prog (WireState Message) Unit := do
  let p ← position
  rejectIf (toSizeT (size.toNat - p.toNat) < 1)
  let pathLength ← readByte data p.toNat
  assign fun m => { m with pathLength := pathLength }
  advance 1
  let path ← position
  let pathLength ← current Message.pathLength
  advance pathLength.toNat
  rejectIf (maxPathSize < pathLength.toNat)
  copyIn data path.toNat pathLength.toNat maxPathSize fun bytes m =>
    { m with path := blit m.path bytes }

/-- The rest of the packet is the payload. -/
def readPayload (data : Memory) (size : UInt8) : Prog (WireState Message) Unit := do
  let payload ← position
  -- an 8-bit subtraction, which wraps when the position is past the end
  assign fun m => { m with payloadLength := size - payload }
  let payloadLength ← current Message.payloadLength
  rejectIf (maxPayloadSize < payloadLength.toNat)
  copyIn data payload.toNat payloadLength.toNat maxPayloadSize fun bytes m =>
    { m with payload := blit m.payload bytes }

/-- `meshcore_deserialize`, behind its null checks. -/
def deserializeBody (data : Memory) (size : UInt8) : Prog (WireState Message) Unit := do
  assign fun _ => Message.zero
  rejectIf (size.toNat < sizeofLineHeader ∨ maxTransUnit < size.toNat)
  let lineHeader ← position
  advance sizeofLineHeader
  readLineHeader data lineHeader.toNat
  readTransportCodes data size lineHeader.toNat
  readPath data size
  readPayload data size

/-- `meshcore_deserialize`. -/
def meshcoreDeserialize (data : Option Memory) (size : UInt8) (outMessage : Option Message) :
    Outcome Message :=
  match data with
  | none => ⟨-1, outMessage, []⟩
  | some data => call (deserializeBody data size) outMessage

end MeshcoreC.Mesh
