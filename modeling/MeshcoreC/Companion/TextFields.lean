import MeshcoreC.Companion.Callbacks

/-! # Texts in command packets

The server reads the text fields of an accepted command as C strings, since the packet carries no
length. Whether such a field holds a terminating zero is nowhere checked: it follows from the zero
fill, the largest argument length of the row, the size of the structure and the largest frame, or it
does not.

* **`textsTerminated_of_accepted_iff`** — the two commands, and the texts in them, for which a frame
  fills the field to its last byte.
* **`textsTerminated_iff`** — the same for all that is handed over in a session. -/

namespace MeshcoreC

open Buffers Framing

/-- Where a field begins in its packed structure. -/
def Layout.offset (l : Layout) (f : Field) : ℕ :=
  Layout.sizeof (l.takeWhile fun entry => entry.1 ≠ f)

/-- The commands that carry a text, with their structure and its text field. -/
def textFields : List (Command × Layout × Field) :=
  [(.appStart, appStartArgs, .appName), (.sendTxtMsg, sendTxtMsgArgs, .text),
    (.sendChannelTxtMsg, sendChannelTxtMsgArgs, .text),
    (.setAdvertName, setAdvertNameArgs, .advertName),
    (.setCustomVar, setCustomVarArgs, .settingValue)]

/-- The bytes of a field in the argument union of a packet. -/
def CommandPacket.field (packet : CommandPacket) (l : Layout) (f : Field) : List UInt8 :=
  slice (view packet.args) (l.offset f) (l.fieldSize f)

/-- The text of the packet's command, if it has one, ends inside its field. -/
def TextTerminated (packet : CommandPacket) : Prop :=
  ∀ command l f, (command, l, f) ∈ textFields → packet.command = command.value →
    0 ∈ packet.field l f

/-- The body of a channel message or of a new name whose text has the size of its field and no zero
byte. -/
def FullText (body : List UInt8) : Prop :=
  (∃ header text, body = 3 :: (header ++ text) ∧ header.length = 6 ∧ text.length = 157 ∧
    0 ∉ text) ∨
  ∃ text, body = 8 :: text ∧ text.length = 32 ∧ 0 ∉ text

/-- The padded arguments, element by element. -/
theorem view_paddedArgs (arguments : List UInt8) {i : ℕ} (h : i < argsSize) :
    view (paddedArgs arguments) i = (arguments[i]?).getD 0 := by
  rw [view_of_lt _ h, paddedArgs, getElem_blit, Vector.getElem_replicate]

/-- A last field of a structure holds a zero unless the arguments fill it without one. -/
theorem zero_mem_slice_paddedArgs_iff {arguments : List UInt8} {pos len : ℕ}
    (hfit : pos + len ≤ argsSize) (hlen : 0 < len) (hle : arguments.length ≤ pos + len) :
    0 ∈ slice (view (paddedArgs arguments)) pos len ↔
      (arguments.length = pos + len → 0 ∈ arguments.drop pos) := by
  by_cases hfull : arguments.length = pos + len
  · -- the field is the end of the arguments
    have hslice : slice (view (paddedArgs arguments)) pos len = arguments.drop pos := by
      apply List.ext_getElem
      · rw [length_slice, List.length_drop]
        omega
      · intro i hi hi'
        rw [length_slice] at hi
        rw [getElem_slice, view_paddedArgs _ (by omega), List.getElem_drop,
          List.getElem?_eq_getElem (by omega), Option.getD_some]
    rw [hslice]
    simp [hfull]
  · -- the last byte of the field is padding
    have hzero : view (paddedArgs arguments) (pos + (len - 1)) = 0 := by
      rw [view_paddedArgs _ (by omega), List.getElem?_eq_none (by omega), Option.getD_none]
    refine iff_of_true ?_ (fun h => absurd h hfull)
    rw [← hzero, slice]
    exact List.mem_map_of_mem (List.mem_range'_1.mpr (by omega))

/-- Every text is the last field of its structure, which is a member of the union. -/
theorem textFields_spec {command : Command} {l : Layout} {f : Field}
    (h : (command, l, f) ∈ textFields) :
    l ∈ commandArgs ∧ 0 < l.fieldSize f ∧ l.offset f + l.fieldSize f = l.sizeof := by
  have hall : ∀ entry ∈ textFields, entry.2.1 ∈ commandArgs ∧
      0 < entry.2.1.fieldSize entry.2.2 ∧
      entry.2.1.offset entry.2.2 + entry.2.1.fieldSize entry.2.2 = entry.2.1.sizeof := by
    decide
  exact hall _ h

/-- No command with a text may have more arguments than its structure. -/
theorem maxArgumentLength_le_sizeof {command : Command} {l : Layout} {f : Field}
    (h : (command, l, f) ∈ textFields) {definition : CommandDefinition}
    (hdef : definitionOf command.value = some definition) :
    definition.maxArgumentLength ≤ l.sizeof := by
  have hall : ∀ entry ∈ textFields, ∀ d ∈ companionCommandDefinitions,
      d.command.value = entry.1.value → d.maxArgumentLength ≤ entry.2.1.sizeof := by
    decide
  have hrow : definition.command.value = command.value := by
    simpa using List.find?_some hdef
  exact hall _ h definition (List.mem_of_find?_eq_some hdef) hrow

/-- The text in a packet holds a zero unless the arguments fill its structure without one. -/
theorem zero_mem_field_iff {command : Command} {l : Layout} {f : Field}
    (h : (command, l, f) ∈ textFields) {arguments : List UInt8}
    (hle : arguments.length ≤ l.sizeof) (value : UInt32) :
    0 ∈ CommandPacket.field ⟨value, paddedArgs arguments⟩ l f ↔
      (arguments.length = l.sizeof → 0 ∈ arguments.drop (l.offset f)) := by
  obtain ⟨hmem, hpos, hlast⟩ := textFields_spec h
  rw [← hlast] at hle ⊢
  exact zero_mem_slice_paddedArgs_iff (hlast.trans_le (sizeof_le_argsSize hmem)) hpos hle

/-- **The two texts that are not terminated.** Of the commands that fit a frame, those whose text
fills its field are channel messages of 157 bytes and names of 32 bytes. -/
theorem textTerminated_of_accepted_iff {body : List UInt8} {packet : CommandPacket}
    (hframe : body.length ≤ 169)
    (h : mcCompanionParseCommand body CommandPacket.zero = (.none, packet)) :
    TextTerminated packet ↔ ¬ FullText body := by
  obtain ⟨command, arguments, definition, rfl, hdef, -, hmax, rfl⟩ :=
    mcCompanionParseCommand_accepted h
  rw [List.length_cons] at hframe
  constructor
  · rintro hterminated (⟨header, text, hbody, hheader, htext, hzero⟩ | ⟨text, hbody, htext, hzero⟩)
    · obtain ⟨rfl, rfl⟩ := List.cons.inj hbody
      have hlength : (header ++ text).length = 163 := by
        rw [List.length_append, hheader, htext]
      have hmem : (.sendChannelTxtMsg, sendChannelTxtMsgArgs, .text) ∈ textFields := by decide
      have hdrop := (zero_mem_field_iff hmem hlength.le _).mp (hterminated _ _ _ hmem rfl) hlength
      rw [show sendChannelTxtMsgArgs.offset .text = header.length from hheader.symm,
        List.drop_left] at hdrop
      exact hzero hdrop
    · obtain ⟨rfl, rfl⟩ := List.cons.inj hbody
      have hmem : (.setAdvertName, setAdvertNameArgs, .advertName) ∈ textFields := by decide
      exact hzero ((zero_mem_field_iff hmem htext.le _).mp (hterminated _ _ _ hmem rfl) htext)
  · intro hfull command' l f hmem hcommand
    replace hcommand : command.toUInt32 = command'.value := hcommand
    rw [hcommand] at hdef
    have hle := maxArgumentLength_le_sizeof hmem hdef
    rw [zero_mem_field_iff hmem (hmax.trans hle)]
    intro hlength
    by_contra hzero
    simp only [textFields, List.mem_cons, Prod.mk.injEq, List.not_mem_nil, or_false] at hmem
    rcases hmem with ⟨rfl, rfl, rfl⟩ | ⟨rfl, rfl, rfl⟩ | ⟨rfl, rfl, rfl⟩ | ⟨rfl, rfl, rfl⟩ |
      ⟨rfl, rfl, rfl⟩
    · -- the row stops four bytes short of the structure
      have hrow : definitionOf Command.appStart.value = some ⟨.appStart, 7, 165⟩ := rfl
      obtain rfl := Option.some.inj (hrow.symm.trans hdef)
      have hsizeof : appStartArgs.sizeof = 169 := rfl
      omega
    · -- the frame stops one byte short of the structure
      have hsizeof : sendTxtMsgArgs.sizeof = 169 := rfl
      omega
    · have hsizeof : sendChannelTxtMsgArgs.sizeof = 163 := rfl
      obtain rfl : command = 3 := UInt8.toUInt32_inj.mp hcommand
      refine hfull (.inl ⟨arguments.take 6, arguments.drop 6, ?_, ?_, ?_, hzero⟩)
      · rw [List.take_append_drop]
      · rw [List.length_take]
        omega
      · rw [List.length_drop]
        omega
    · obtain rfl : command = 8 := UInt8.toUInt32_inj.mp hcommand
      exact hfull (.inr ⟨arguments, rfl, hlength, hzero⟩)
    · -- the frame stops one byte short of the structure
      have hsizeof : setCustomVarArgs.sizeof = 169 := rfl
      omega

/-- Commands with such a text fit a frame, and are accepted. -/
theorem accepted_of_fullText {body : List UInt8} (h : FullText body) :
    body.length ≤ 169 ∧
      ∃ packet, mcCompanionParseCommand body CommandPacket.zero = (.none, packet) := by
  rcases h with ⟨header, text, rfl, hheader, htext, -⟩ | ⟨text, rfl, htext, -⟩
  · have hlength : (header ++ text).length = 163 := by rw [List.length_append, hheader, htext]
    have hrow : definitionOf (3 : UInt8).toUInt32 = some ⟨.sendChannelTxtMsg, 6, 163⟩ := rfl
    refine ⟨by rw [List.length_cons]; omega, _, mcCompanionParseCommand_of_row hrow ?_ ?_ _⟩
    · rw [hlength]
      decide
    · exact hlength.le
  · have hrow : definitionOf (8 : UInt8).toUInt32 = some ⟨.setAdvertName, 1, 32⟩ := rfl
    refine ⟨by rw [List.length_cons]; omega, _, mcCompanionParseCommand_of_row hrow ?_ ?_ _⟩
    · rw [htext]
      decide
    · exact htext.le

/-- **Texts handed to the server are terminated, except full ones.** While a stream is fed to a
fresh receiver in any chunks, every packet handed over without an error has its text terminated
inside its field, unless the stream has, behind whole segments, the frame of a channel message whose
157 bytes of text hold no zero, or of a name whose 32 bytes hold none. -/
theorem textsTerminated_iff (chunks : List (List UInt8)) :
    (∀ packet, CallsBack ReaderState.initial chunks (packet, .none) → TextTerminated packet) ↔
      ¬ ∃ segs body rest, (∀ g ∈ segs, Segment.Valid companionFormat g) ∧ FullText body ∧
        chunks.flatten = segmentBytes companionFormat segs ++ commandFrame body ++ rest := by
  simp only [callsBack_accepted_iff]
  constructor
  · rintro hterminated ⟨segs, body, rest, hsegs, hfull, hw⟩
    obtain ⟨hle, packet, hparse⟩ := accepted_of_fullText hfull
    have htext := hterminated packet ⟨segs, body, rest, hsegs, hle, hparse, hw⟩
    exact (textTerminated_of_accepted_iff hle hparse).mp htext hfull
  · rintro hnot packet ⟨segs, body, rest, hsegs, hle, hparse, hw⟩
    rw [textTerminated_of_accepted_iff hle hparse]
    intro hfull
    exact hnot ⟨segs, body, rest, hsegs, hfull, hw⟩

/-- A name of 32 letters has no terminator in `advert_name`. -/
theorem not_textsTerminated_longName :
    ¬ ∀ packet, CallsBack ReaderState.initial [commandFrame (8 :: List.replicate 32 65)]
      (packet, .none) → TextTerminated packet := by
  have hfull : FullText (8 :: List.replicate 32 65) :=
    .inr ⟨List.replicate 32 65, rfl, List.length_replicate, by decide⟩
  obtain ⟨hle, packet, hparse⟩ := accepted_of_fullText hfull
  intro h
  refine (textTerminated_of_accepted_iff hle hparse).mp (h packet ?_) hfull
  exact callsBack_accepted_iff.mpr ⟨[], _, [], by simp, hle, hparse, by simp⟩

end MeshcoreC
