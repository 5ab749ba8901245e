import Mathlib

/-! # Layout of the command arguments

The packed argument structures of `mc_companion.h`, as lists of field sizes in declaration order,
with the `sizeof` and `FIELD_SIZE` the command table is computed from, and the union of all of
them that a command packet carries. -/

namespace MeshcoreC

/-- `MESHCORE_COMPANION_MAX_FRAME_SIZE`. -/
def maxFrameSize : ℕ := 172

/-- `MESHCORE_COMPANION_MAX_PAYLOAD_SIZE`: the frame size minus start byte and length. -/
def maxPayloadSize : ℕ := maxFrameSize - 1 - 2

/-- `sizeof('\0')`: in C a character constant has type `int`. -/
def sizeofCharConstant : ℕ := 4

/-- The field names of the command argument structures. -/
inductive Field
  | reserved | appName | txtType | attempt | msgTimestamp | pubKeyPrefix | text | channelIdx
  | since | timestamp | advertName | publicKey | type | flags | outPathLen | outPath | name
  | lastAdvertTimestamp | gpsLatitude | gpsLongitude | lastModified | frequency | bandwidth
  | spreadingFactor | codingRate | txPower | pubKey | latitude | longitude | altitude
  | advertPacket | magic | rx | af | appTargetVersion | privateKey | pathLength | pathAndPacket
  | channelName | channelSecret | data | tag | auth | path | blePin | manualAddContacts
  | advertLocationPolicy | multiAcks | settingValue | reqData | key
  deriving DecidableEq, Repr

/-- A packed structure: its fields with their sizes, in declaration order. -/
abbrev Layout := List (Field × ℕ)

namespace Layout

/-- `sizeof` of a packed structure. -/
def sizeof (l : Layout) : ℕ := (l.map Prod.snd).sum

/-- `FIELD_SIZE(type, field)`. -/
def fieldSize (l : Layout) (f : Field) : ℕ := (l.lookup f).getD 0

end Layout

/-! ## The argument structures -/

/-- `companion_cmd_app_start_args_t` -/
def appStartArgs : Layout := [(.reserved, 7), (.appName, maxPayloadSize - 1 * 7)]

/-- `companion_cmd_send_txt_msg_args_t` -/
def sendTxtMsgArgs : Layout :=
  [(.txtType, 1), (.attempt, 1), (.msgTimestamp, 4), (.pubKeyPrefix, 6),
    (.text, maxPayloadSize - 1 * 8 - 4)]

/-- `companion_cmd_send_channel_txt_msg_args_t` -/
def sendChannelTxtMsgArgs : Layout :=
  [(.txtType, 1), (.channelIdx, 1), (.msgTimestamp, 4), (.text, maxPayloadSize - 1 * 8 - 4)]

/-- `companion_cmd_get_contacts_args_t` -/
def getContactsArgs : Layout := [(.since, 4)]

/-- `companion_cmd_set_device_time_args_t` -/
def setDeviceTimeArgs : Layout := [(.timestamp, 4)]

/-- `companion_cmd_set_advert_name_args_t` -/
def setAdvertNameArgs : Layout := [(.advertName, 32)]

/-- `companion_contact_t` -/
def contact : Layout :=
  [(.publicKey, 32), (.type, 1), (.flags, 1), (.outPathLen, 1), (.outPath, 64), (.name, 32),
    (.lastAdvertTimestamp, 4), (.gpsLatitude, 4), (.gpsLongitude, 4), (.lastModified, 4)]

/-- `companion_cmd_set_radio_params_args_t` -/
def setRadioParamsArgs : Layout :=
  [(.frequency, 4), (.bandwidth, 4), (.spreadingFactor, 1), (.codingRate, 1)]

/-- `companion_cmd_set_radio_tx_power_args_t` -/
def setRadioTxPowerArgs : Layout := [(.txPower, 1)]

/-- `companion_cmd_reset_path_args_t` -/
def resetPathArgs : Layout := [(.pubKey, 32)]

/-- `companion_cmd_set_advert_latlon_args_t` -/
def setAdvertLatlonArgs : Layout := [(.latitude, 4), (.longitude, 4), (.altitude, 4)]

/-- `companion_cmd_remove_contact_args_t` -/
def removeContactArgs : Layout := [(.pubKey, 32)]

/-- `companion_cmd_share_contact_args_t` -/
def shareContactArgs : Layout := [(.pubKey, 32)]

/-- `companion_cmd_export_contact_args_t` -/
def exportContactArgs : Layout := [(.pubKey, 32)]

/-- `companion_cmd_import_contact_args_t` -/
def importContactArgs : Layout := [(.advertPacket, maxPayloadSize)]

/-- `companion_cmd_reboot_args_t` -/
def rebootArgs : Layout := [(.magic, 6)]

/-- `companion_cmd_set_tuning_params_args_t` -/
def setTuningParamsArgs : Layout := [(.rx, 4), (.af, 4)]

/-- `companion_cmd_device_query_args_t` -/
def deviceQueryArgs : Layout := [(.appTargetVersion, 1)]

/-- `companion_cmd_import_private_key_args_t` -/
def importPrivateKeyArgs : Layout := [(.privateKey, 64)]

/-- `companion_cmd_send_raw_data_args_t` -/
def sendRawDataArgs : Layout := [(.pathLength, 1), (.pathAndPacket, maxPayloadSize - 1)]

/-- `companion_cmd_login_args_t` -/
def loginArgs : Layout := [(.pubKey, 32)]

/-- `companion_cmd_status_req_args_t` -/
def statusReqArgs : Layout := [(.pubKey, 32)]

/-- `companion_cmd_has_connection_args_t` -/
def hasConnectionArgs : Layout := [(.pubKey, 32)]

/-- `companion_cmd_logout_args_t` -/
def logoutArgs : Layout := [(.pubKey, 32)]

/-- `companion_cmd_get_contact_by_key_args_t` -/
def getContactByKeyArgs : Layout := [(.pubKey, 32)]

/-- `companion_cmd_get_channel_args_t` -/
def getChannelArgs : Layout := [(.channelIdx, 1)]

/-- `companion_cmd_set_channel_args_t` -/
def setChannelArgs : Layout := [(.channelIdx, 1), (.channelName, 32), (.channelSecret, 16)]

/-- `companion_cmd_sign_data_args_t` -/
def signDataArgs : Layout := [(.data, maxPayloadSize)]

/-- `companion_cmd_send_trace_path_args_t` -/
def sendTracePathArgs : Layout :=
  [(.tag, 4), (.auth, 4), (.flags, 1), (.path, maxPayloadSize - 4 * 2 - 1)]

/-- `companion_cmd_set_device_pin_args_t` -/
def setDevicePinArgs : Layout := [(.blePin, 4)]

/-- `companion_cmd_set_other_params_args_t` -/
def setOtherParamsArgs : Layout :=
  [(.manualAddContacts, 1), (.flags, 1), (.advertLocationPolicy, 1), (.multiAcks, 1)]

/-- `companion_cmd_send_telemetry_req_args_t` -/
def sendTelemetryReqArgs : Layout := [(.reserved, 3), (.pubKey, 32)]

/-- `companion_cmd_set_custom_var_args_t` -/
def setCustomVarArgs : Layout := [(.settingValue, maxPayloadSize)]

/-- `companion_cmd_get_advert_path_args_t` -/
def getAdvertPathArgs : Layout := [(.reserved, 1), (.pubKey, 32)]

/-- `companion_cmd_send_binary_req_args_t` -/
def sendBinaryReqArgs : Layout := [(.pubKey, 32), (.reqData, maxPayloadSize - 32)]

/-- `companion_cmd_factory_reset_args_t` -/
def factoryResetArgs : Layout := [(.magic, 5)]

/-- `companion_cmd_send_path_discovery_req_args_t` -/
def sendPathDiscoveryReqArgs : Layout := [(.reserved, 1), (.pubKey, 32)]

/-- `companion_cmd_flood_scope_args_t` -/
def floodScopeArgs : Layout := [(.reserved, 1), (.key, 16)]

/-- `companion_cmd_send_control_data_args_t` -/
def sendControlDataArgs : Layout := [(.data, maxPayloadSize)]

/-! ## The argument union -/

/-- The members of the argument union of `companion_command_packet_t`. -/
def commandArgs : List Layout :=
  [appStartArgs, sendTxtMsgArgs, sendChannelTxtMsgArgs, getContactsArgs, setDeviceTimeArgs,
    setAdvertNameArgs, contact, setRadioParamsArgs, setRadioTxPowerArgs, resetPathArgs,
    setAdvertLatlonArgs, removeContactArgs, shareContactArgs, exportContactArgs,
    importContactArgs, rebootArgs, setTuningParamsArgs, deviceQueryArgs, importPrivateKeyArgs,
    sendRawDataArgs, loginArgs, statusReqArgs, hasConnectionArgs, logoutArgs,
    getContactByKeyArgs, getChannelArgs, setChannelArgs, signDataArgs, sendTracePathArgs,
    setDevicePinArgs, setOtherParamsArgs, sendTelemetryReqArgs, setCustomVarArgs,
    getAdvertPathArgs, sendBinaryReqArgs, factoryResetArgs, sendPathDiscoveryReqArgs,
    floodScopeArgs, sendControlDataArgs]

/-- The size of the argument union: that of its largest member. -/
def argsSize : ℕ := (commandArgs.map Layout.sizeof).foldr max 0

-- The union holds exactly one payload.
example : argsSize = maxPayloadSize := by decide

/-- Every member fits in the union. -/
theorem sizeof_le_argsSize {l : Layout} (h : l ∈ commandArgs) : l.sizeof ≤ argsSize := by
  have hall : ∀ l ∈ commandArgs, l.sizeof ≤ argsSize := by decide
  exact hall l h

end MeshcoreC
