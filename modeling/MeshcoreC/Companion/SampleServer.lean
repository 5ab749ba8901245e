import MeshcoreC.Companion.ResponseReading
import MeshcoreC.Companion.TextFields

/-! # The sample server

`server.c`: the callback that answers the commands of an app over the serial port, and the loop that
feeds what is read from the port to the reader. What is printed on the console is left out, and
`write` is taken to send all the bytes it is given, since the code does not look at its result.

* **`packetCallback`** — the callback, with the response packet and the transmit buffer it keeps in
  static variables.
* **`Serves`**, **`Serving`** — the program between two reads, and at any point of a call of the
  reader. -/

namespace MeshcoreC

open Buffers Loops Wire

/-! ## Response structures -/

/-- The codes of `companion_response_code_t` that the server sends. -/
inductive ResponseCode
  | ok | err | contactsStart | contact | endOfContacts | selfInfo | sent | noMoreMessages
  | deviceInfo | customVars
  deriving DecidableEq, Repr

/-- The numeric values of `companion_response_code_t`. -/
def ResponseCode.value : ResponseCode → UInt32
  | ok => 0 | err => 1 | contactsStart => 2 | contact => 3 | endOfContacts => 4 | selfInfo => 5
  | sent => 6 | noMoreMessages => 10 | deviceInfo => 13 | customVars => 21

/-- The codes of `companion_error_code_t` that the server uses. -/
inductive ErrorCode
  | unsupportedCmd | notFound | illegalArg
  deriving DecidableEq, Repr

/-- The numeric values of `companion_error_code_t`. -/
def ErrorCode.value : ErrorCode → UInt8
  | unsupportedCmd => 1 | notFound => 2 | illegalArg => 6

/-- The field names of the response structures that the server fills. -/
inductive ResponseField
  | errorCode | count | since | advType | configuredTxPower | maximumTxPower | publicKey
  | positionLatitude | positionLongitude | multiAcks | advertLocPolicy | telemetryMode
  | manualAddContacts | frequency | bandwidth | spreadingFactor | codingRate | nodeName | type
  | expectedAck | estTimeout | firmwareVersionCode | maxContacts | maxGroupChannels | blePin
  | firmwareBuildDate | boardManufacturerName | firmwareVersion | data
  deriving DecidableEq, Repr

/-- A packed response structure: its fields with their sizes, in declaration order. -/
abbrev ResponseLayout := List (ResponseField × ℕ)

namespace ResponseLayout

/-- `sizeof` of a packed structure. -/
def sizeof (l : ResponseLayout) : ℕ := (l.map Prod.snd).sum

/-- Where a field begins in its packed structure. -/
def offset (l : ResponseLayout) (f : ResponseField) : ℕ :=
  sizeof (l.takeWhile fun entry => entry.1 ≠ f)

/-- `FIELD_SIZE(type, field)`. -/
def fieldSize (l : ResponseLayout) (f : ResponseField) : ℕ := (l.lookup f).getD 0

end ResponseLayout

/-- `companion_resp_err_args_t` -/
def errArgs : ResponseLayout := [(.errorCode, 1)]

/-- `companion_resp_contacts_start_t` -/
def contactsStartArgs : ResponseLayout := [(.count, 4)]

/-- `companion_resp_end_of_contacts_t` -/
def endOfContactsArgs : ResponseLayout := [(.since, 4)]

/-- `companion_resp_self_info_args_t` -/
def selfInfoArgs : ResponseLayout :=
  [(.advType, 1), (.configuredTxPower, 1), (.maximumTxPower, 1), (.publicKey, 32),
    (.positionLatitude, 4), (.positionLongitude, 4), (.multiAcks, 1), (.advertLocPolicy, 1),
    (.telemetryMode, 1), (.manualAddContacts, 1), (.frequency, 4), (.bandwidth, 4),
    (.spreadingFactor, 1), (.codingRate, 1), (.nodeName, maxPayloadSize - 32 - 25)]

/-- `companion_resp_sent_args_t` -/
def sentArgs : ResponseLayout := [(.type, 1), (.expectedAck, 4), (.estTimeout, 4)]

/-- `companion_resp_device_info_args_t` -/
def deviceInfoArgs : ResponseLayout :=
  [(.firmwareVersionCode, 1), (.maxContacts, 1), (.maxGroupChannels, 1), (.blePin, 4),
    (.firmwareBuildDate, 12), (.boardManufacturerName, 40), (.firmwareVersion, 20)]

/-- `companion_resp_custom_vars_args_t` -/
def customVarsArgs : ResponseLayout := [(.data, maxPayloadSize)]

-- The sizes are those of the members of the union.
example : ∀ entry ∈ [(ResponseArgs.err, errArgs), (.contactsStart, contactsStartArgs),
      (.endOfContacts, endOfContactsArgs), (.selfInfo, selfInfoArgs), (.sent, sentArgs),
      (.deviceInfo, deviceInfoArgs), (.customVars, customVarsArgs)],
    responseArgs.lookup entry.1 = some (entry.2.map Prod.snd) := by
  decide

/-! ## Filling a packet -/

namespace ResponsePacket

/-- `tx_packet.response = code;` -/
def setResponse (packet : ResponsePacket) (code : ResponseCode) : ResponsePacket :=
  { packet with response := code.value }

/-- Bytes copied into the argument union. -/
@[irreducible] def put (packet : ResponsePacket) (pos : ℕ) (bytes : List UInt8) : ResponsePacket :=
  { packet with args := Vector.ofFn fun i => Buffers.store (view packet.args) pos bytes i }

/-- An assignment to a field of a member of the argument union. -/
def assign (packet : ResponsePacket) (l : ResponseLayout) (f : ResponseField)
    (bytes : List UInt8) : ResponsePacket :=
  packet.put (l.offset f) bytes

/-- An assignment to one element of a field that is an array. -/
def assignElement (packet : ResponsePacket) (l : ResponseLayout) (f : ResponseField) (k : ℕ)
    (byte : UInt8) : ResponsePacket :=
  packet.put (l.offset f + k) [byte]

end ResponsePacket

/-- The bytes of a string literal, without the terminating zero. -/
def asciiBytes (text : String) : List UInt8 := text.toList.map fun c => UInt8.ofNat c.toNat

/-- What `snprintf(..., size, text)` stores, for a text without conversions. -/
def snprintf (size : ℕ) (text : String) : List UInt8 := (asciiBytes text).take (size - 1) ++ [0]

/-- `companion_contact_t`. -/
structure CompanionContact where
  publicKey : Vector UInt8 32
  type : UInt8
  flags : UInt8
  outPathLen : Int8
  outPath : Vector UInt8 64
  name : Vector UInt8 32
  lastAdvertTimestamp : UInt32
  gpsLatitude : Int32
  gpsLongitude : Int32
  lastModified : UInt32

/-- The memory of a contact. -/
def CompanionContact.bytes (contact : CompanionContact) : List UInt8 :=
  contact.publicKey.toList ++ [contact.type, contact.flags, contact.outPathLen.toUInt8] ++
    contact.outPath.toList ++ contact.name.toList ++ leBytes 4 contact.lastAdvertTimestamp.toNat ++
    leBytes 4 contact.gpsLatitude.toUInt32.toNat ++ leBytes 4 contact.gpsLongitude.toUInt32.toNat ++
    leBytes 4 contact.lastModified.toNat

/-- The `contacts` that the server lists. -/
def contacts : List CompanionContact :=
  [{  publicKey := #v[0x01, 0x02, 0x03, 0x04, 0x05, 0x06, 0x07, 0x08, 0x09, 0x0A, 0x0B, 0x0C, 0x0D,
        0x0E, 0x0F, 0x10, 0x11, 0x12, 0x13, 0x14, 0x15, 0x16, 0x17, 0x18, 0x19, 0x1A, 0x1B, 0x1C,
        0x1D, 0x1E, 0x1F, 0x20]
      type := 1
      flags := 0
      outPathLen := 3
      outPath := blit (Vector.replicate 64 0) [1, 2, 3]
      name := blit (Vector.replicate 32 0) (asciiBytes "Alice")
      lastAdvertTimestamp := 1625158800
      gpsLatitude := 52345678
      gpsLongitude := 13456789
      lastModified := 1625158800 },
    { publicKey := #v[0x21, 0x22, 0x23, 0x24, 0x25, 0x26, 0x27, 0x28, 0x29, 0x2A, 0x2B, 0x2C, 0x2D,
        0x2E, 0x2F, 0x30, 0x31, 0x32, 0x33, 0x34, 0x35, 0x36, 0x37, 0x38, 0x39, 0x3A, 0x3B, 0x3C,
        0x3D, 0x3E, 0x3F, 0x40]
      type := 1
      flags := 0
      outPathLen := 2
      outPath := blit (Vector.replicate 64 0) [4, 5]
      name := blit (Vector.replicate 32 0) (asciiBytes "Bob")
      lastAdvertTimestamp := 1625158800
      gpsLatitude := 52345678
      gpsLongitude := 13456789
      lastModified := 1625158800 }]

/-! ## The callback -/

/-- The static variables of the server, the indices of `tx_buffer` stored to so far, and the calls
of `write` so far. -/
structure ServerState where
  txPacket : ResponsePacket
  txBuffer : Memory
  stores : List ℕ
  written : List (List UInt8)

namespace ServerState

/-- The server when it starts. -/
def initial : ServerState := ⟨ResponsePacket.zero, 0, [], []⟩

/-- `transmit`. -/
def transmit (s : ServerState) (data : List UInt8) : ServerState :=
  { s with written := s.written ++ [data] }

/-- `tx_packet` is given its contents, framed in `tx_buffer` and transmitted. -/
def respond (s : ServerState) (txPacket : ResponsePacket) (argsLength : UInt16) : ServerState :=
  let r := mcCompanionWriteSerialResponse txPacket argsLength maxFrameSize s.txBuffer
  let s := { s with
    txPacket := txPacket
    txBuffer := r.outFramedData
    stores := s.stores ++ r.stores }
  s.transmit (slice s.txBuffer 0 r.outFramedDataLength)

end ServerState

/-- The packet of an error, for each of the places that report one. -/
def errPacket (code : ErrorCode) : ResponsePacket :=
  (ResponsePacket.zero.setResponse .err).assign errArgs .errorCode [code.value]

/-- The packet of `COMPANION_CMD_APP_START`. -/
def selfInfoPacket : ResponsePacket :=
  let l := selfInfoArgs
  let packet := ResponsePacket.zero.setResponse .selfInfo
  let packet := packet.assign l .advType [1]
  let packet := packet.assign l .configuredTxPower [22]
  let packet := packet.assign l .maximumTxPower [22]
  let packet := packet.assign l .publicKey (List.replicate 32 0)
  let packet := packet.assign l .positionLatitude (leBytes 4 0)
  let packet := packet.assign l .positionLongitude (leBytes 4 0)
  let packet := packet.assign l .multiAcks [0]
  let packet := packet.assign l .advertLocPolicy [0]
  let packet := packet.assign l .telemetryMode [0]
  let packet := packet.assign l .manualAddContacts [0]
  let packet := packet.assign l .frequency (leBytes 4 868000)
  let packet := packet.assign l .bandwidth (leBytes 4 62500)
  let packet := packet.assign l .spreadingFactor [8]
  let packet := packet.assign l .codingRate [8]
  packet.assign l .nodeName (snprintf (l.fieldSize .nodeName) "Roadrunner")

/-- `strlen(tx_packet.response_self_info_args.node_name)`. The field is the last of the union. -/
def nodeNameLength (packet : ResponsePacket) : ℕ :=
  strnlen (fun i => packet.argsMemory (selfInfoArgs.offset .nodeName + i))
    (selfInfoArgs.fieldSize .nodeName)

/-- The packet of `COMPANION_CMD_SEND_TXT_MSG`. -/
def sentPacket (txtType : UInt8) : ResponsePacket :=
  let l := sentArgs
  let packet := ResponsePacket.zero.setResponse .sent
  let packet := packet.assign l .type [txtType]
  let packet := packet.assignElement l .expectedAck 0 0x12
  let packet := packet.assignElement l .expectedAck 1 0x34
  let packet := packet.assignElement l .expectedAck 2 0x56
  let packet := packet.assignElement l .expectedAck 3 0x78
  packet.assign l .estTimeout (leBytes 4 10000)

/-- The packet of `COMPANION_CMD_DEVICE_QUERY`. -/
def deviceInfoPacket : ResponsePacket :=
  let l := deviceInfoArgs
  let packet := ResponsePacket.zero.setResponse .deviceInfo
  let packet := packet.assign l .firmwareVersionCode [8]
  let packet := packet.assign l .maxContacts [100 / 2]
  let packet := packet.assign l .maxGroupChannels [40]
  let packet := packet.assignElement l .blePin 0 0
  let packet := packet.assignElement l .blePin 1 0
  let packet := packet.assignElement l .blePin 2 0
  let packet := packet.assignElement l .blePin 3 0
  let packet := packet.assign l .firmwareBuildDate
    (snprintf (l.fieldSize .firmwareBuildDate) "5 Jan 2026")
  let packet := packet.assign l .boardManufacturerName
    (snprintf (l.fieldSize .boardManufacturerName) "Acme Corporation")
  packet.assign l .firmwareVersion (snprintf (l.fieldSize .firmwareVersion) "v1.11.0")

/-- The packet of `COMPANION_CMD_GET_CUSTOM_VARS`. -/
def customVarsPacket : ResponsePacket :=
  (ResponsePacket.zero.setResponse .customVars).assign customVarsArgs .data
    (snprintf (customVarsArgs.fieldSize .data) "")

/-- The loop over the contacts of `COMPANION_CMD_GET_CONTACTS`. -/
def sendContacts (s : ServerState) (txPacket : ResponsePacket) : List CompanionContact →
    ServerState × ResponsePacket
  | [] => (s, txPacket)
  | c :: rest =>
      let txPacket := txPacket.put 0 c.bytes
      sendContacts (s.respond txPacket (UInt16.ofNat contact.sizeof)) txPacket rest

/-- The answers to `COMPANION_CMD_GET_CONTACTS`: one packet is used for all, and is not cleared in
between. -/
def answerGetContacts (s : ServerState) : ServerState :=
  let packet := (ResponsePacket.zero.setResponse .contactsStart).assign contactsStartArgs .count
    (leBytes 4 contacts.length)
  let s := s.respond packet (UInt16.ofNat contactsStartArgs.sizeof)
  let (s, packet) := sendContacts s (packet.setResponse .contact) contacts
  let packet := (packet.setResponse .endOfContacts).assign endOfContactsArgs .since (leBytes 4 0)
  s.respond packet (UInt16.ofNat endOfContactsArgs.sizeof)

/-- `packet_callback`. The packet that is filled starts as zeros, by the `memset`. -/
def packetCallback (s : ServerState) (packet : CommandPacket) (error : ParserError) :
    ServerState :=
  if error ≠ .none then
    s.respond (errPacket (if error = .invalidCommand then .unsupportedCmd else .illegalArg)) 0
  else if packet.command = Command.appStart.value then
    s.respond selfInfoPacket (UInt16.ofNat (selfInfoArgs.sizeof - selfInfoArgs.fieldSize .nodeName +
      nodeNameLength selfInfoPacket))
  else if packet.command = Command.sendTxtMsg.value then
    s.respond (sentPacket (view packet.args (sendTxtMsgArgs.offset .txtType)))
      (UInt16.ofNat sentArgs.sizeof)
  else if packet.command = Command.getContacts.value then answerGetContacts s
  else if packet.command = Command.sendSelfAdvert.value then
    s.respond (ResponsePacket.zero.setResponse .ok) 0
  else if packet.command = Command.syncNextMessage.value then
    s.respond (ResponsePacket.zero.setResponse .noMoreMessages) 0
  else if packet.command = Command.deviceQuery.value then
    s.respond deviceInfoPacket (UInt16.ofNat deviceInfoArgs.sizeof)
  else if packet.command = Command.getChannel.value then s.respond (errPacket .notFound) 0
  else if packet.command = Command.getCustomVars.value then s.respond customVarsPacket 0
  else if packet.command = Command.setFloodScope.value then
    s.respond (ResponsePacket.zero.setResponse .ok) 0
  else s.respond (errPacket .unsupportedCmd) 0

/-! ## The loop -/

/-- The callbacks among what the reader does, one after the other. -/
def ServerState.serve (s : ServerState) (events : List ReaderEvent) : ServerState :=
  (callbacks events).foldl (fun s c => packetCallback s c.1 c.2) s

/-- The program between two reads from the port: what has been read so far, and the statics of the
reader and of the server. A read gives at least one byte, and no more than the buffer has. -/
inductive Serves : List (List UInt8) → ReaderState → ServerState → Prop
  /-- Before the first read. -/
  | start : Serves [] ReaderState.initial ServerState.initial
  /-- A read, and the call of the reader on it, which returns. -/
  | read {chunks : List (List UInt8)} {reader reader' : ReaderState} {server : ServerState}
      {data : List UInt8} {events : List ReaderEvent} (hserves : Serves chunks reader server)
      (hread : Reads reader data reader' events) (hne : data ≠ [])
      (hle : data.length ≤ maxFrameSize) :
      Serves (chunks ++ [data]) reader' (server.serve events)

/-- The program at some point of the reader's loop over its last read, whether or not that call
returns. -/
def Serving (chunks : List (List UInt8)) (call : ReadCall) (server : ServerState) : Prop :=
  ∃ before data reader server₀, chunks = before ++ [data] ∧ Serves before reader server₀ ∧
    data ≠ [] ∧ data.length ≤ maxFrameSize ∧
    mcCompanionReadSerialCommand.Visits ⟨reader, data, []⟩ call ∧
    server = server₀.serve call.trace

end MeshcoreC
