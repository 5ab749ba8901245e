import MeshcoreC.Companion.Layout
import MeshcoreC.Library.Buffers

/-! # The command parser

`mc_companion_command_parser.c`: the table of commands with the window of argument lengths each
admits, and `mc_companion_parse_command`, which clears the packet, looks the command up and copies
the arguments. A pointer with its length is a list of bytes. -/

namespace MeshcoreC

open Buffers

/-- `companion_command_t`. -/
inductive Command
  | appStart | sendTxtMsg | sendChannelTxtMsg | getContacts | getDeviceTime | setDeviceTime
  | sendSelfAdvert | setAdvertName | addUpdateContact | syncNextMessage | setRadioParams
  | setRadioTxPower | resetPath | setAdvertLatlon | removeContact | shareContact | exportContact
  | importContact | reboot | getBattAndStorage | setTuningParams | deviceQuery | exportPrivateKey
  | importPrivateKey | sendRawData | sendLogin | sendStatusReq | hasConnection | logout
  | getContactByKey | getChannel | setChannel | signStart | signData | signFinish | sendTracePath
  | setDevicePin | setOtherParams | sendTelemetryReq | getCustomVars | setCustomVar
  | getAdvertPath | getTuningParams | sendBinaryReq | factoryReset | sendPathDiscoveryReq
  | setFloodScope | sendControlData | getStats
  deriving DecidableEq, Repr

/-- The numeric values of `companion_command_t`. -/
def Command.value : Command → UInt32
  | appStart => 1 | sendTxtMsg => 2 | sendChannelTxtMsg => 3 | getContacts => 4
  | getDeviceTime => 5 | setDeviceTime => 6 | sendSelfAdvert => 7 | setAdvertName => 8
  | addUpdateContact => 9 | syncNextMessage => 10 | setRadioParams => 11 | setRadioTxPower => 12
  | resetPath => 13 | setAdvertLatlon => 14 | removeContact => 15 | shareContact => 16
  | exportContact => 17 | importContact => 18 | reboot => 19 | getBattAndStorage => 20
  | setTuningParams => 21 | deviceQuery => 22 | exportPrivateKey => 23 | importPrivateKey => 24
  | sendRawData => 25 | sendLogin => 26 | sendStatusReq => 27 | hasConnection => 28 | logout => 29
  | getContactByKey => 30 | getChannel => 31 | setChannel => 32 | signStart => 33 | signData => 34
  | signFinish => 35 | sendTracePath => 36 | setDevicePin => 37 | setOtherParams => 38
  | sendTelemetryReq => 39 | getCustomVars => 40 | setCustomVar => 41 | getAdvertPath => 42
  | getTuningParams => 43 | sendBinaryReq => 50 | factoryReset => 51 | sendPathDiscoveryReq => 52
  | setFloodScope => 54 | sendControlData => 55 | getStats => 56

/-- `mc_companion_command_parser_error_t`. -/
inductive ParserError
  | none
  | invalidCommand
  | invalidArguments
  deriving DecidableEq, Repr

/-- `companion_command_packet_t`: the command and the bytes of the argument union. -/
@[ext]
structure CommandPacket where
  command : UInt32
  args : Vector UInt8 argsSize
  deriving DecidableEq, Repr

/-- A packet cleared by `memset`. -/
def CommandPacket.zero : CommandPacket := ⟨0, Vector.replicate argsSize 0⟩

/-- `companion_command_definition_t`. -/
structure CommandDefinition where
  command : Command
  minArgumentLength : ℕ
  maxArgumentLength : ℕ
  deriving DecidableEq, Repr

/-- `companion_command_definitions`. -/
def companionCommandDefinitions : List CommandDefinition :=
  [⟨.appStart, appStartArgs.fieldSize .reserved, appStartArgs.sizeof - sizeofCharConstant⟩,
    ⟨.sendTxtMsg, sendTxtMsgArgs.sizeof - sendTxtMsgArgs.fieldSize .text, sendTxtMsgArgs.sizeof⟩,
    ⟨.sendChannelTxtMsg, sendChannelTxtMsgArgs.sizeof - sendChannelTxtMsgArgs.fieldSize .text,
      sendChannelTxtMsgArgs.sizeof⟩,
    ⟨.getContacts, 0, getContactsArgs.sizeof⟩,
    ⟨.getDeviceTime, 0, 0⟩,
    ⟨.setDeviceTime, setDeviceTimeArgs.sizeof, setDeviceTimeArgs.sizeof⟩,
    ⟨.sendSelfAdvert, 0, 0⟩,
    ⟨.setAdvertName, 1, setAdvertNameArgs.sizeof⟩,
    ⟨.addUpdateContact,
      contact.sizeof - contact.fieldSize .gpsLatitude - contact.fieldSize .gpsLongitude -
        contact.fieldSize .lastModified,
      contact.sizeof⟩,
    ⟨.syncNextMessage, 0, 0⟩,
    ⟨.setRadioParams, setRadioParamsArgs.sizeof, setRadioParamsArgs.sizeof⟩,
    ⟨.setRadioTxPower, setRadioTxPowerArgs.sizeof, setRadioTxPowerArgs.sizeof⟩,
    ⟨.resetPath, resetPathArgs.sizeof, resetPathArgs.sizeof⟩,
    ⟨.setAdvertLatlon, setAdvertLatlonArgs.sizeof - setAdvertLatlonArgs.fieldSize .altitude,
      setAdvertLatlonArgs.sizeof⟩,
    ⟨.removeContact, removeContactArgs.sizeof, removeContactArgs.sizeof⟩,
    ⟨.shareContact, shareContactArgs.sizeof, shareContactArgs.sizeof⟩,
    ⟨.exportContact, 0, exportContactArgs.sizeof⟩,
    ⟨.importContact, 0, importContactArgs.sizeof⟩,
    ⟨.reboot, rebootArgs.sizeof, rebootArgs.sizeof⟩,
    ⟨.getBattAndStorage, 0, 0⟩,
    ⟨.setTuningParams, setTuningParamsArgs.sizeof, setTuningParamsArgs.sizeof⟩,
    ⟨.deviceQuery, deviceQueryArgs.sizeof, deviceQueryArgs.sizeof⟩,
    ⟨.exportPrivateKey, 0, 0⟩,
    ⟨.importPrivateKey, importPrivateKeyArgs.sizeof, importPrivateKeyArgs.sizeof⟩,
    ⟨.sendRawData, sendRawDataArgs.sizeof, sendRawDataArgs.sizeof⟩,
    ⟨.sendLogin, loginArgs.sizeof, loginArgs.sizeof⟩,
    ⟨.sendStatusReq, statusReqArgs.sizeof, statusReqArgs.sizeof⟩,
    ⟨.hasConnection, hasConnectionArgs.sizeof, hasConnectionArgs.sizeof⟩,
    ⟨.logout, logoutArgs.sizeof, logoutArgs.sizeof⟩,
    ⟨.getContactByKey, getContactByKeyArgs.sizeof, getContactByKeyArgs.sizeof⟩,
    ⟨.getChannel, getChannelArgs.sizeof, getChannelArgs.sizeof⟩,
    ⟨.setChannel, setChannelArgs.sizeof, setChannelArgs.sizeof⟩,
    ⟨.signStart, 0, 0⟩,
    ⟨.signData, 1, signDataArgs.sizeof⟩,
    ⟨.signFinish, 0, 0⟩,
    ⟨.sendTracePath, sendTracePathArgs.sizeof - sendTracePathArgs.fieldSize .path,
      sendTracePathArgs.sizeof⟩,
    ⟨.setDevicePin, setDevicePinArgs.sizeof, setDevicePinArgs.sizeof⟩,
    ⟨.setOtherParams,
      setOtherParamsArgs.sizeof - setOtherParamsArgs.fieldSize .flags -
        setOtherParamsArgs.fieldSize .advertLocationPolicy -
        setOtherParamsArgs.fieldSize .multiAcks,
      setOtherParamsArgs.sizeof⟩,
    ⟨.sendTelemetryReq, sendTelemetryReqArgs.sizeof, sendTelemetryReqArgs.sizeof⟩,
    ⟨.getCustomVars, 0, 0⟩,
    ⟨.setCustomVar, 0, setCustomVarArgs.sizeof⟩,
    ⟨.getAdvertPath, getAdvertPathArgs.sizeof, getAdvertPathArgs.sizeof⟩,
    ⟨.getTuningParams, 0, 0⟩,
    ⟨.sendBinaryReq, sendBinaryReqArgs.fieldSize .pubKey + 1, sendBinaryReqArgs.sizeof⟩,
    ⟨.factoryReset, factoryResetArgs.sizeof, factoryResetArgs.sizeof⟩,
    ⟨.sendPathDiscoveryReq, sendPathDiscoveryReqArgs.sizeof, sendPathDiscoveryReqArgs.sizeof⟩,
    ⟨.setFloodScope, floodScopeArgs.fieldSize .reserved, floodScopeArgs.sizeof⟩,
    ⟨.sendControlData, 1, sendControlDataArgs.sizeof⟩,
    ⟨.getStats, 0, 0⟩]

/-- The loop of `mc_companion_parse_command` over the table: it returns at the first row with the
packet's command, and after the last row when there is none. -/
def scanDefinitions (data : List UInt8) (outPacket : CommandPacket) :
    List CommandDefinition → ParserError × CommandPacket
  | [] => (.invalidCommand, outPacket)
  | definition :: definitions =>
      if definition.command.value = outPacket.command then
        if data.length < definition.minArgumentLength ∨
            definition.maxArgumentLength < data.length then
          (.invalidArguments, outPacket)
        else (.none, { outPacket with args := blit outPacket.args data })
      else scanDefinitions data outPacket definitions

/-- `mc_companion_parse_command`. An empty input leaves the packet alone. -/
def mcCompanionParseCommand (data : List UInt8) (outPacket : CommandPacket) :
    ParserError × CommandPacket :=
  match data with
  | [] => (.invalidCommand, outPacket)
  | command :: arguments =>
      -- the `memset` comes after the check for the command byte
      scanDefinitions arguments { CommandPacket.zero with command := command.toUInt32 }
        companionCommandDefinitions

/-! ## What the parser computes -/

/-- The first row of the table with a command. -/
def definitionOf (command : UInt32) : Option CommandDefinition :=
  companionCommandDefinitions.find? fun definition => definition.command.value = command

/-- The argument union of a packet that was cleared and then received some arguments. -/
def paddedArgs (arguments : List UInt8) : Vector UInt8 argsSize :=
  blit (Vector.replicate argsSize 0) arguments

/-- The table loop, in terms of the first matching row. -/
theorem scanDefinitions_eq (data : List UInt8) (outPacket : CommandPacket)
    (definitions : List CommandDefinition) :
    scanDefinitions data outPacket definitions =
      match definitions.find? fun definition => definition.command.value = outPacket.command with
      | none => (.invalidCommand, outPacket)
      | some definition =>
          if data.length < definition.minArgumentLength ∨
              definition.maxArgumentLength < data.length then
            (.invalidArguments, outPacket)
          else (.none, { outPacket with args := blit outPacket.args data }) := by
  -- by induction on the rows: a row that matches ends the loop, the others are passed over
  induction definitions with
  | nil => rfl
  | cons definition definitions ih =>
      rw [scanDefinitions, List.find?_cons]
      by_cases hcommand : definition.command.value = outPacket.command
      · simp only [hcommand, if_true, decide_true]
      · simp only [hcommand, if_false, decide_false]
        exact ih

/-- The empty command is rejected and the packet is left as it was. -/
@[simp] theorem mcCompanionParseCommand_nil (outPacket : CommandPacket) :
    mcCompanionParseCommand [] outPacket = (.invalidCommand, outPacket) := rfl

/-- A non-empty command is judged by the row of its first byte. -/
theorem mcCompanionParseCommand_cons (command : UInt8) (arguments : List UInt8)
    (outPacket : CommandPacket) :
    mcCompanionParseCommand (command :: arguments) outPacket =
      match definitionOf command.toUInt32 with
      | none => (.invalidCommand, { CommandPacket.zero with command := command.toUInt32 })
      | some definition =>
          if arguments.length < definition.minArgumentLength ∨
              definition.maxArgumentLength < arguments.length then
            (.invalidArguments, { CommandPacket.zero with command := command.toUInt32 })
          else (.none, ⟨command.toUInt32, paddedArgs arguments⟩) := by
  rw [mcCompanionParseCommand, scanDefinitions_eq]
  rfl

/-- **The earlier packet does not matter** to the parser, unless the command is empty. -/
theorem mcCompanionParseCommand_congr {data : List UInt8} (h : data ≠ [])
    (outPacket outPacket' : CommandPacket) :
    mcCompanionParseCommand data outPacket = mcCompanionParseCommand data outPacket' := by
  obtain ⟨command, arguments, rfl⟩ := List.exists_cons_of_ne_nil h
  rw [mcCompanionParseCommand_cons, mcCompanionParseCommand_cons]

/-- No row admits more arguments than the union holds. -/
theorem maxArgumentLength_le {command : UInt32} {definition : CommandDefinition}
    (h : definitionOf command = some definition) : definition.maxArgumentLength ≤ argsSize := by
  -- the table is finite, and its bounds are closed numbers
  have hall : ∀ d ∈ companionCommandDefinitions, d.maxArgumentLength ≤ argsSize := by decide
  exact hall definition (List.mem_of_find?_eq_some h)

/-- **What an accepted command is**: a command byte with a row and arguments in its window, and
the packet holds exactly them, zero-padded. -/
theorem mcCompanionParseCommand_accepted {data : List UInt8} {outPacket packet : CommandPacket}
    (h : mcCompanionParseCommand data outPacket = (.none, packet)) :
    ∃ command arguments definition, data = command :: arguments ∧
      definitionOf command.toUInt32 = some definition ∧
      definition.minArgumentLength ≤ arguments.length ∧
      arguments.length ≤ definition.maxArgumentLength ∧
      packet = ⟨command.toUInt32, paddedArgs arguments⟩ := by
  cases data with
  | nil => simp at h
  | cons command arguments =>
      rw [mcCompanionParseCommand_cons] at h
      cases hdef : definitionOf command.toUInt32 with
      | none => simp [hdef] at h
      | some definition =>
          simp only [hdef] at h
          split at h
          · simp at h
          · rename_i hwindow
            refine ⟨command, arguments, definition, rfl, hdef, ?_, ?_, ?_⟩
            · omega
            · omega
            · exact (Prod.mk.inj h).2.symm

/-- A command with a row and arguments in its window is accepted. -/
theorem mcCompanionParseCommand_of_row {command : UInt8} {definition : CommandDefinition}
    (hdef : definitionOf command.toUInt32 = some definition) {arguments : List UInt8}
    (hmin : definition.minArgumentLength ≤ arguments.length)
    (hmax : arguments.length ≤ definition.maxArgumentLength) (outPacket : CommandPacket) :
    mcCompanionParseCommand (command :: arguments) outPacket
      = (.none, ⟨command.toUInt32, paddedArgs arguments⟩) := by
  rw [mcCompanionParseCommand_cons, hdef]
  show (if _ then _ else _) = _
  rw [if_neg (by omega)]

/-- An accepted command has at most as many arguments as the union holds. -/
theorem length_le_of_accepted {data : List UInt8} {outPacket packet : CommandPacket}
    (h : mcCompanionParseCommand data outPacket = (.none, packet)) :
    data.length ≤ argsSize + 1 := by
  obtain ⟨command, arguments, definition, rfl, hdef, -, hmax, -⟩ :=
    mcCompanionParseCommand_accepted h
  have hle := maxArgumentLength_le hdef
  rw [List.length_cons]
  omega

end MeshcoreC
