import MeshcoreC.Companion.SampleServer
import MeshcoreC.Companion.CommandTable

/-! # What the sample server answers

A peer sees the bytes that the server writes, and nothing else of it. What they are is a function of
the frames the server has received, frame by frame.

* **`packetCallback_sends`** — the callback transmits the replies of its reaction to the command,
  whatever the server has done before, and stores inside its buffer.
* **`Reaction.replies_head_injective`** — the first reply tells the reaction.
* **`bodyReaction_eq_error_iff`** — the commands that get anything but an error. -/

namespace MeshcoreC

open Buffers Wire

/-! ## Reactions -/

/-- What the server makes of a command. An error is one reaction, whatever the error is. -/
inductive Reaction
  | error | selfInfo | sent (txtType : UInt8) | contacts | ok | noMoreMessages | deviceInfo
  | customVars
  deriving DecidableEq, Repr

/-- The reaction to a command packet with the parser's verdict. -/
def reactionTo (packet : CommandPacket) (error : ParserError) : Reaction :=
  if error ≠ .none then .error
  else if packet.command = Command.appStart.value then .selfInfo
  else if packet.command = Command.sendTxtMsg.value then
    .sent (view packet.args (sendTxtMsgArgs.offset .txtType))
  else if packet.command = Command.getContacts.value then .contacts
  else if packet.command = Command.sendSelfAdvert.value then .ok
  else if packet.command = Command.syncNextMessage.value then .noMoreMessages
  else if packet.command = Command.deviceQuery.value then .deviceInfo
  else if packet.command = Command.getChannel.value then .error
  else if packet.command = Command.getCustomVars.value then .customVars
  else if packet.command = Command.setFloodScope.value then .ok
  else .error

/-- A reply: its code and its arguments. -/
def reply (code : ResponseCode) (args : List UInt8) : List UInt8 := code.value.toUInt8 :: args

/-- The arguments of the device's description of itself. -/
def selfInfoBytes : List UInt8 :=
  [1, 22, 22] ++ List.replicate 32 0 ++ leBytes 4 0 ++ leBytes 4 0 ++ [0, 0, 0, 0] ++
    leBytes 4 868000 ++ leBytes 4 62500 ++ [8, 8] ++ asciiBytes "Roadrunner"

/-- The arguments of the device information: its texts are filled up with zeros. -/
def deviceInfoBytes : List UInt8 :=
  [8, 50, 40, 0, 0, 0, 0] ++ (asciiBytes "5 Jan 2026" ++ List.replicate 2 0) ++
    (asciiBytes "Acme Corporation" ++ List.replicate 24 0) ++
    (asciiBytes "v1.11.0" ++ List.replicate 13 0)

/-- The replies to a command. Only the contacts take more than one. -/
def Reaction.replies : Reaction → List (List UInt8)
  | error => [reply .err []]
  | selfInfo => [reply .selfInfo selfInfoBytes]
  | sent txtType => [reply .sent ([txtType, 0x12, 0x34, 0x56, 0x78] ++ leBytes 4 10000)]
  | contacts =>
      reply .contactsStart (leBytes 4 MeshcoreC.contacts.length) ::
        MeshcoreC.contacts.map (fun c => reply .contact c.bytes) ++
        [reply .endOfContacts (leBytes 4 0)]
  | ok => [reply .ok []]
  | noMoreMessages => [reply .noMoreMessages []]
  | deviceInfo => [reply .deviceInfo deviceInfoBytes]
  | customVars => [reply .customVars []]

/-- **The first reply tells the reaction.** -/
theorem Reaction.replies_head_injective {o o' : Reaction}
    (h : o.replies.head? = o'.replies.head?) : o = o' := by
  cases o <;> cases o' <;> simp_all [replies, reply, ResponseCode.value]

/-- Every reaction is answered. -/
theorem Reaction.replies_ne_nil (o : Reaction) : o.replies ≠ [] := by
  cases o <;> exact List.cons_ne_nil _ _

/-! ## Sending -/

/-- The frame of a reply. -/
def responseFrame (content : List UInt8) : List UInt8 :=
  responseStartByte :: (commandFrame content).tail

/-- The length of a frame. -/
theorem length_responseFrame (content : List UInt8) :
    (responseFrame content).length = content.length + 3 := rfl

/-- Between two states, the server has transmitted frames with the given contents. For each of them
it has stored its bytes and one more behind it, for which there is room in the transmit buffer. -/
structure Sends (s s' : ServerState) (contents : List (List UInt8)) : Prop where
  written : s'.written = s.written ++ contents.map responseFrame
  stores : s'.stores = s.stores ++
    contents.flatMap fun content => List.range ((responseFrame content).length + 1)
  room : ∀ content ∈ contents, (responseFrame content).length + 1 ≤ maxFrameSize

namespace Sends

variable {s s' s'' : ServerState} {contents contents' : List (List UInt8)}

/-- Nothing sent. -/
theorem refl (s : ServerState) : Sends s s [] :=
  ⟨(List.append_nil _).symm, (List.append_nil _).symm, List.forall_mem_nil _⟩

/-- One thing sent after the other. -/
theorem trans (h : Sends s s' contents) (h' : Sends s' s'' contents') :
    Sends s s'' (contents ++ contents') := by
  refine ⟨?_, ?_, List.forall_mem_append.mpr ⟨h.room, h'.room⟩⟩
  · rw [h'.written, h.written, List.map_append, List.append_assoc]
  · rw [h'.stores, h.stores, List.flatMap_append, List.append_assoc]

/-- What is sent fits the frame of a response. -/
theorem length_le (h : Sends s s' contents) : ∀ content ∈ contents, content.length ≤ 169 := by
  intro content hmem
  have hroom := h.room content hmem
  rw [length_responseFrame] at hroom
  unfold maxFrameSize at hroom
  omega

/-- The same question asked by the code and by the specification. -/
theorem ite (c : Prop) [Decidable c] {t t' : ServerState} {o o' : Reaction}
    (h : Sends s t o.replies) (h' : Sends s t' o'.replies) :
    Sends s (if c then t else t') (if c then o else o').replies := by
  by_cases hc : c
  · rwa [if_pos hc, if_pos hc]
  · rwa [if_neg hc, if_neg hc]

end Sends

/-- **A response transmits its frame.** The store behind the frame is inside the buffer when there
is room for it. -/
theorem respond_sends (s : ServerState) (packet : ResponsePacket) {argsLength : UInt16}
    {content : List UInt8} (hcontent : packet.content argsLength = content)
    (hroom : content.length + 4 ≤ maxFrameSize) :
    Sends s (s.respond packet argsLength) [content] := by
  have hlength := packet.length_content argsLength
  rw [hcontent] at hlength
  have hfits : argsLength.toNat ≤ responseArgsSize := by
    rw [responseArgsSize_eq]
    unfold maxFrameSize at hroom
    omega
  obtain ⟨r, hr, hframe⟩ := response_framed packet hfits maxFrameSize s.txBuffer
  obtain ⟨r', hr', -, -, hstores⟩ := response_wrote packet hfits maxFrameSize s.txBuffer
  obtain rfl : r = r' := hr.symm.trans hr'
  have hbehind : argsLength.toNat + 5 = (responseFrame content).length + 1 := by
    rw [length_responseFrame]
    omega
  refine ⟨?_, ?_, ?_⟩
  · rw [ServerState.respond, hr, ServerState.transmit, hframe, hcontent]
    rfl
  · rw [ServerState.respond, hr, ServerState.transmit, List.flatMap_singleton, hstores, hbehind]
  · rw [List.forall_mem_singleton, length_responseFrame]
    exact hroom

/-! ## The contents of the packets -/

namespace ResponsePacket

variable {packet : ResponsePacket} {args bytes : List UInt8}

@[simp] theorem put_response (packet : ResponsePacket) (pos : ℕ) (bytes : List UInt8) :
    (packet.put pos bytes).response = packet.response := by
  rw [put]

@[simp] theorem setResponse_response (packet : ResponsePacket) (code : ResponseCode) :
    (packet.setResponse code).response = code.value := rfl

/-- The arguments of a packet are a list of bytes and then zeros. -/
def Filled (packet : ResponsePacket) (args : List UInt8) : Prop :=
  Holds (view packet.args) responseArgsSize args

/-- A cleared packet holds nothing. -/
theorem filled_zero (code : ResponseCode) : (zero.setResponse code).Filled [] := by
  intro i hi
  exact view_replicate_zero responseArgsSize i

/-- Bytes put behind what a packet holds are appended. -/
theorem Filled.put (h : packet.Filled args) {pos : ℕ} (hpos : pos = args.length) :
    (packet.put pos bytes).Filled (args ++ bytes) := by
  intro i hi
  rw [ResponsePacket.put, view_of_lt _ hi, Vector.getElem_ofFn, hpos]
  exact Holds.store h bytes i hi

/-- What is not written holds zeros. -/
theorem Filled.zeros (h : packet.Filled args) (k : ℕ) :
    packet.Filled (args ++ List.replicate k 0) := Holds.append_zeros h k

/-- One field after the other, each of the given size, with the bytes that are put at its start. -/
def putFields (packet : ResponsePacket) (pos : ℕ) (fields : List (ℕ × List UInt8)) :
    ResponsePacket :=
  (fields.foldl (fun p field => (p.1.put p.2 field.2, p.2 + field.1)) (packet, pos)).1

/-- The bytes of fields, each filled up with zeros. -/
def fieldBytes (fields : List (ℕ × List UInt8)) : List UInt8 :=
  fields.flatMap fun field => field.2 ++ List.replicate (field.1 - field.2.length) 0

/-- **Fields that are assigned in declaration order fill the packet.** -/
theorem Filled.putFields (h : packet.Filled args) {fields : List (ℕ × List UInt8)}
    (hfields : ∀ field ∈ fields, field.2.length ≤ field.1) {pos : ℕ} (hpos : pos = args.length) :
    (packet.putFields pos fields).Filled (args ++ fieldBytes fields) := by
  induction fields generalizing packet args pos with
  | nil => rwa [fieldBytes, List.flatMap_nil, List.append_nil]
  | cons field fields ih =>
      have hsize : field.2.length ≤ field.1 := hfields field List.mem_cons_self
      have hput : (packet.put pos field.2).Filled
          (args ++ field.2 ++ List.replicate (field.1 - field.2.length) 0) :=
        (h.put hpos).zeros (field.1 - field.2.length)
      have hnext : pos + field.1
          = (args ++ field.2 ++ List.replicate (field.1 - field.2.length) 0).length := by
        rw [List.length_append, List.length_append, List.length_replicate]
        omega
      have hrest := ih hput (fun field hmem => hfields field (List.mem_cons_of_mem _ hmem)) hnext
      rw [ResponsePacket.putFields, List.foldl_cons, fieldBytes, List.flatMap_cons,
        ← List.append_assoc, ← List.append_assoc]
      exact hrest

/-- A packet whose fields are assigned in declaration order, from the start of the union on. -/
theorem filled_of_fields {code : ResponseCode} {fields : List (ℕ × List UInt8)}
    (hpacket : packet = (zero.setResponse code).putFields 0 fields)
    (hfields : ∀ field ∈ fields, field.2.length ≤ field.1) : packet.Filled (fieldBytes fields) := by
  rw [hpacket]
  exact (filled_zero code).putFields hfields rfl

@[simp] theorem putFields_response (packet : ResponsePacket) (pos : ℕ)
    (fields : List (ℕ × List UInt8)) :
    (packet.putFields pos fields).response = packet.response := by
  induction fields generalizing packet pos with
  | nil => rfl
  | cons field fields ih => exact (ih (packet.put pos field.2) _).trans (packet.put_response _ _)

/-- The content of a packet, up to the length that is given. -/
theorem Filled.content (h : packet.Filled args) {argsLength : UInt16} {bytes : List UInt8}
    (hargs : bytes <+: args) (hlength : argsLength.toNat = bytes.length)
    (hfits : args.length ≤ responseArgsSize) :
    packet.content argsLength = packet.response.toUInt8 :: bytes := by
  obtain ⟨rest, rfl⟩ := hargs
  have hslice := h.slice_zero hfits
  rw [List.length_append, slice_add, ← hlength] at hslice
  rw [ResponsePacket.content, (List.append_inj hslice (by rw [length_slice, hlength])).1]

/-- The content of a packet whose arguments have just been overwritten from their start on. -/
theorem content_put_zero (packet : ResponsePacket) {argsLength : UInt16} {bytes : List UInt8}
    (hlength : argsLength.toNat = bytes.length) (hfits : bytes.length ≤ responseArgsSize) :
    (packet.put 0 bytes).content argsLength = packet.response.toUInt8 :: bytes := by
  have hslice := slice_store_append (view packet.args) 0 0 bytes
  rw [Nat.zero_add, Nat.zero_add] at hslice
  rw [content, put, slice_view_ofFn _ (hlength.trans_le hfits), hlength, hslice]
  rfl

/-- The content of a packet whose fields are assigned in declaration order. -/
theorem content_of_fields {code : ResponseCode} {fields : List (ℕ × List UInt8)}
    (hpacket : packet = (zero.setResponse code).putFields 0 fields)
    (hfields : ∀ field ∈ fields, field.2.length ≤ field.1) {argsLength : UInt16}
    {bytes : List UInt8} (hargs : bytes <+: fieldBytes fields)
    (hlength : argsLength.toNat = bytes.length)
    (hfits : (fieldBytes fields).length ≤ responseArgsSize) :
    packet.content argsLength = reply code bytes := by
  rw [(filled_of_fields hpacket hfields).content hargs hlength hfits, hpacket, putFields_response]
  rfl

/-- Without arguments, the content is the code. -/
theorem content_zero (packet : ResponsePacket) : packet.content 0 = [packet.response.toUInt8] := rfl

end ResponsePacket

/-- An error. Its code is stored in the arguments, of which there are none. -/
theorem errPacket_content (code : ErrorCode) : (errPacket code).content 0 = reply .err [] := by
  rw [errPacket, ResponsePacket.assign, ResponsePacket.content_zero, ResponsePacket.put_response]
  rfl

/-- The fields of the device's description of itself. -/
def selfInfoFields : List (ℕ × List UInt8) :=
  [(1, [1]), (1, [22]), (1, [22]), (32, List.replicate 32 0), (4, leBytes 4 0), (4, leBytes 4 0),
    (1, [0]), (1, [0]), (1, [0]), (1, [0]), (4, leBytes 4 868000), (4, leBytes 4 62500), (1, [8]),
    (1, [8]), (112, asciiBytes "Roadrunner" ++ [0])]

/-- The assignments of the source, as one list of fields. -/
theorem selfInfoPacket_eq : selfInfoPacket
    = (ResponsePacket.zero.setResponse .selfInfo).putFields 0 selfInfoFields := rfl

/-- No field is longer than its place. -/
theorem selfInfoFields_fit : ∀ field ∈ selfInfoFields, field.2.length ≤ field.1 := by decide

/-- The name is as long as it is written, since a zero follows it. -/
theorem nodeNameLength_selfInfoPacket : nodeNameLength selfInfoPacket = 10 := by
  have hfilled := ResponsePacket.filled_of_fields selfInfoPacket_eq selfInfoFields_fit
  have hmemory : ∀ i < 112, selfInfoPacket.argsMemory (57 + i)
      = ((ResponsePacket.fieldBytes selfInfoFields)[57 + i]?).getD 0 := by
    intro i hi
    have hlt : 57 + i < responseArgsSize := by
      rw [responseArgsSize_eq]
      omega
    have hargs := slice_view_append selfInfoPacket.args selfInfoPacket.padding le_rfl
    exact (eq_of_slice_eq hargs hlt).trans (hfilled (57 + i) hlt)
  have hname : ∀ i < 10, ((ResponsePacket.fieldBytes selfInfoFields)[57 + i]?).getD 0 ≠ 0 := by
    decide
  refine strnlen_eq (by decide) ?_ ?_
  · exact hmemory 10 (by decide)
  · intro i hi
    exact ne_of_eq_of_ne (hmemory i (by omega)) (hname i hi)

/-- The description of the device goes up to the end of its name. -/
theorem selfInfoPacket_content {argsLength : UInt16}
    (h : argsLength.toNat = selfInfoBytes.length) :
    selfInfoPacket.content argsLength = reply .selfInfo selfInfoBytes :=
  ResponsePacket.content_of_fields selfInfoPacket_eq selfInfoFields_fit
    ⟨List.replicate 102 0, by decide +kernel⟩ h (by decide +kernel)

/-- The fields of the confirmation of a message. -/
def sentFields (txtType : UInt8) : List (ℕ × List UInt8) :=
  [(1, [txtType]), (1, [0x12]), (1, [0x34]), (1, [0x56]), (1, [0x78]), (4, leBytes 4 10000)]

/-- The confirmation of a message. -/
theorem sentPacket_content (txtType : UInt8) {argsLength : UInt16} (h : argsLength.toNat = 9) :
    (sentPacket txtType).content argsLength
      = reply .sent ([txtType, 0x12, 0x34, 0x56, 0x78] ++ leBytes 4 10000) := by
  have hfields : ∀ field ∈ sentFields txtType, field.2.length ≤ field.1 := by
    simp [sentFields]
  have hpacket : sentPacket txtType
      = (ResponsePacket.zero.setResponse .sent).putFields 0 (sentFields txtType) := rfl
  have hfits : (ResponsePacket.fieldBytes (sentFields txtType)).length ≤ responseArgsSize := by
    rw [responseArgsSize_eq]
    simp [ResponsePacket.fieldBytes, sentFields]
  exact ResponsePacket.content_of_fields hpacket hfields List.prefix_rfl h hfits

/-- The fields of the device information. -/
def deviceInfoFields : List (ℕ × List UInt8) :=
  [(1, [8]), (1, [50]), (1, [40]), (1, [0]), (1, [0]), (1, [0]), (1, [0]),
    (12, asciiBytes "5 Jan 2026" ++ [0]), (40, asciiBytes "Acme Corporation" ++ [0]),
    (20, asciiBytes "v1.11.0" ++ [0])]

/-- The device information, texts and zeros. -/
theorem deviceInfoPacket_content {argsLength : UInt16} (h : argsLength.toNat = 79) :
    deviceInfoPacket.content argsLength = reply .deviceInfo deviceInfoBytes := by
  have hpacket : deviceInfoPacket
      = (ResponsePacket.zero.setResponse .deviceInfo).putFields 0 deviceInfoFields := rfl
  have hbytes : deviceInfoBytes <+: ResponsePacket.fieldBytes deviceInfoFields :=
    ⟨[], by decide⟩
  exact ResponsePacket.content_of_fields hpacket (by decide) hbytes h (by decide)

/-! ## The callback -/

/-- A contact has the size of its structure. -/
theorem CompanionContact.length_bytes (c : CompanionContact) : c.bytes.length = contact.sizeof := by
  have hsize : contact.sizeof = 147 := by decide
  rw [hsize]
  simp [bytes]

/-- **The loop over the contacts** sends one after the other. The packet it leaves behind holds the
last of them. -/
theorem sendContacts_sends (cs : List CompanionContact) (s : ServerState)
    {packet : ResponsePacket} (hcode : packet.response = ResponseCode.contact.value) :
    Sends s (sendContacts s packet cs).1 (cs.map fun c => reply .contact c.bytes) := by
  induction cs generalizing s packet with
  | nil => exact .refl s
  | cons c cs ih =>
      have hsize : (UInt16.ofNat contact.sizeof).toNat = contact.sizeof := by decide
      have hcontent := packet.content_put_zero (hsize.trans c.length_bytes.symm)
        (c.length_bytes.trans_le (by decide))
      rw [hcode] at hcontent
      have hroom : (reply .contact c.bytes).length + 4 ≤ maxFrameSize := by
        rw [reply, List.length_cons, c.length_bytes]
        decide
      have hrest := ih (s.respond (packet.put 0 c.bytes) (UInt16.ofNat contact.sizeof))
        ((packet.put_response 0 c.bytes).trans hcode)
      rw [sendContacts, List.map_cons]
      exact (respond_sends s _ hcontent hroom).trans hrest

/-- A packet that is overwritten from the start of its arguments with a number. -/
theorem respond_number_sends (s : ServerState) {packet : ResponsePacket} {code : ResponseCode}
    (hcode : packet.response = code.value) (n : ℕ) :
    Sends s (s.respond (packet.put 0 (leBytes 4 n)) 4) [reply code (leBytes 4 n)] := by
  have hlength := length_leBytes 4 n
  have hcontent : (packet.put 0 (leBytes 4 n)).content 4 = packet.response.toUInt8 :: leBytes 4 n :=
    packet.content_put_zero hlength.symm (by rw [hlength]; decide)
  rw [hcode] at hcontent
  refine respond_sends s _ hcontent ?_
  rw [reply, List.length_cons, hlength]
  decide

/-- The contacts are announced, sent and closed. -/
theorem answerGetContacts_sends (s : ServerState) :
    Sends s (answerGetContacts s) Reaction.contacts.replies := by
  have hannounced := respond_number_sends s
    (ResponsePacket.zero.setResponse_response .contactsStart) contacts.length
  have hlisted := sendContacts_sends contacts
    (s.respond ((ResponsePacket.zero.setResponse .contactsStart).put 0
      (leBytes 4 contacts.length)) 4)
    (((ResponsePacket.zero.setResponse .contactsStart).put 0
      (leBytes 4 contacts.length)).setResponse_response .contact)
  exact (hannounced.trans hlisted).trans
    (respond_number_sends _ (ResponsePacket.setResponse_response _ .endOfContacts) 0)

/-- **The callback sends the replies of its reaction**, whatever the server has done before. -/
theorem packetCallback_sends (s : ServerState) (packet : CommandPacket) (error : ParserError) :
    Sends s (packetCallback s packet error) (reactionTo packet error).replies := by
  have hcode : ∀ code, Sends s (s.respond (ResponsePacket.zero.setResponse code) 0)
      [reply code []] := by
    intro code
    exact respond_sends s _ (ResponsePacket.content_zero _) (by simp [reply, maxFrameSize])
  have herror : ∀ code, Sends s (s.respond (errPacket code) 0) Reaction.error.replies := by
    intro code
    exact respond_sends s _ (errPacket_content code) (by decide)
  have hvars : customVarsPacket.content 0 = reply .customVars [] := by
    rw [customVarsPacket, ResponsePacket.assign, ResponsePacket.content_zero,
      ResponsePacket.put_response]
    rfl
  unfold packetCallback reactionTo
  refine .ite _ (herror _) (.ite _ ?_ (.ite _ ?_ (.ite _ ?_ (.ite _ (hcode .ok)
    (.ite _ (hcode .noMoreMessages) (.ite _ ?_ (.ite _ (herror .notFound) (.ite _ ?_
      (.ite _ (hcode .ok) (herror .unsupportedCmd))))))))))
  · rw [nodeNameLength_selfInfoPacket]
    exact respond_sends s _ (selfInfoPacket_content (by decide)) (by decide)
  · exact respond_sends s _ (sentPacket_content _ (by decide)) (by simp [reply, maxFrameSize])
  · exact answerGetContacts_sends s
  · exact respond_sends s _ (deviceInfoPacket_content (by decide)) (by decide)
  · exact respond_sends s _ hvars (by decide)

/-! ## The reaction to a frame -/

/-- The reaction to the body of a frame. -/
def bodyReaction (body : List UInt8) : Reaction :=
  reactionTo (parsedFrom CommandPacket.zero body).1 (parsedFrom CommandPacket.zero body).2

/-- The packet that was parsed before makes no difference, not even to an empty body. -/
theorem reactionTo_parsedFrom (packet : CommandPacket) (body : List UInt8) :
    reactionTo (parsedFrom packet body).1 (parsedFrom packet body).2 = bodyReaction body := by
  cases body with
  | nil => rfl
  | cons command arguments =>
      have hcongr : mcCompanionParseCommand (command :: arguments) packet
          = mcCompanionParseCommand (command :: arguments) CommandPacket.zero :=
        mcCompanionParseCommand_congr (List.cons_ne_nil _ _) _ _
      rw [bodyReaction, parsedFrom, parsedFrom, hcongr]

/-- The commands that the server does anything about. -/
def answeredCommands : List Command :=
  [.appStart, .sendTxtMsg, .getContacts, .sendSelfAdvert, .syncNextMessage, .deviceQuery,
    .getCustomVars, .setFloodScope]

/-- A question that leads to something other than an error is to be answered with no. -/
theorem ite_eq_error_iff {c : Prop} [Decidable c] {o o' : Reaction} (h : o ≠ .error) :
    (if c then o else o') = .error ↔ ¬ c ∧ o' = .error := by
  by_cases hc : c
  · simp [hc, h]
  · simp [hc]

/-- A packet without an error is answered exactly when its command is one of the list. -/
theorem reactionTo_eq_error_iff (packet : CommandPacket) :
    reactionTo packet .none = .error ↔ ∀ c ∈ answeredCommands, packet.command ≠ c.value := by
  have hchannel : packet.command = Command.getChannel.value →
      packet.command ≠ Command.getCustomVars.value ∧
        packet.command ≠ Command.setFloodScope.value := by
    intro h
    rw [h]
    decide
  have hall : (∀ c ∈ answeredCommands, packet.command ≠ c.value) ↔
      packet.command ≠ Command.appStart.value ∧ packet.command ≠ Command.sendTxtMsg.value ∧
      packet.command ≠ Command.getContacts.value ∧ packet.command ≠ Command.sendSelfAdvert.value ∧
      packet.command ≠ Command.syncNextMessage.value ∧
      packet.command ≠ Command.deviceQuery.value ∧
      packet.command ≠ Command.getCustomVars.value ∧
      packet.command ≠ Command.setFloodScope.value := by
    simp only [answeredCommands, List.forall_mem_cons, List.not_mem_nil, false_implies,
      implies_true, and_true]
  rw [hall, reactionTo, if_neg (not_not.mpr rfl)]
  iterate 6 rw [ite_eq_error_iff (by simp), ← ne_eq, and_congr_right_iff]; intro _
  -- the channel has a branch of its own, in front of the last two commands of the list
  split
  · exact iff_of_true rfl (hchannel ‹_›)
  · rw [ite_eq_error_iff (by simp), ite_eq_error_iff (by simp)]
    simp

/-- **Which frames get anything but an error**: those with a command of the list and a number of
arguments inside its window. -/
theorem bodyReaction_eq_error_iff (body : List UInt8) :
    bodyReaction body = .error ↔
      ∀ command arguments, body = command :: arguments → FitsTable body →
        ∀ c ∈ answeredCommands, command.toUInt32 ≠ c.value := by
  cases body with
  | nil =>
      refine iff_of_true rfl ?_
      intro command arguments hbody
      cases hbody
  | cons command arguments =>
      have hone : (∀ command' arguments', command :: arguments = command' :: arguments' →
          FitsTable (command :: arguments) → ∀ c ∈ answeredCommands,
            command'.toUInt32 ≠ c.value) ↔
          (FitsTable (command :: arguments) →
            ∀ c ∈ answeredCommands, command.toUInt32 ≠ c.value) := by
        constructor
        · intro h
          exact h command arguments rfl
        · rintro h command' arguments' heq
          obtain ⟨rfl, rfl⟩ := List.cons.inj heq
          exact h
      rw [hone, bodyReaction, parsedFrom]
      rcases parse_cases command arguments CommandPacket.zero with
        ⟨hfits, -, hparse⟩ | ⟨hmisses, hparse⟩ | ⟨hfits, -, hparse⟩
      · rw [hparse, reactionTo_eq_error_iff]
        exact ⟨fun h _ => h, fun h => h hfits⟩
      · rw [hparse]
        exact iff_of_true rfl fun hfits => absurd hmisses hfits.not_missesWindow
      · rw [hparse]
        exact iff_of_true rfl fun h => absurd h hfits

end MeshcoreC
