import MeshcoreC.Companion.CommandPackets

/-! # The parser and its table

The loop over the table returns at the first row with the command, but which row that is does not
depend on the order: no command has two rows.

* **`definitionOf_eq_some_iff`** — the row that is found is any row with the command.
* **`parse_cases`** — what a command that is not empty can come to.
* **`parseCommand_iff_table`** — the verdict of the parser and the packet it leaves, in terms of the
  rows alone. -/

namespace MeshcoreC

open Buffers

/-! ## Looking a row up -/

/-- In a table without repeated keys, a search finds any row with the key. -/
theorem find?_key_eq_some_iff {α κ : Type*} [DecidableEq κ] {key : α → κ} {rows : List α}
    (hrows : (rows.map key).Nodup) {k : κ} {row : α} :
    rows.find? (fun r => key r = k) = some row ↔ row ∈ rows ∧ key row = k := by
  constructor
  · intro h
    exact ⟨List.mem_of_find?_eq_some h, by simpa using List.find?_some h⟩
  · rintro ⟨hmem, hkey⟩
    induction rows with
    | nil => exact absurd hmem List.not_mem_nil
    | cons first rest ih =>
        rw [List.map_cons, List.nodup_cons] at hrows
        rcases List.mem_cons.mp hmem with rfl | hrest
        · rw [List.find?_cons_of_pos (by simpa using hkey)]
        · have hne : key first ≠ k := by
            intro hfirst
            exact hrows.1 (List.mem_map.mpr ⟨row, hrest, hkey.trans hfirst.symm⟩)
          rw [List.find?_cons_of_neg (by simpa using hne)]
          exact ih hrows.2 hrest

/-- **No command has two rows.** -/
theorem nodup_commands :
    (companionCommandDefinitions.map fun definition => definition.command.value).Nodup := by
  decide

/-- The row that the loop stops at is any row with the command. -/
theorem definitionOf_eq_some_iff {command : UInt32} {definition : CommandDefinition} :
    definitionOf command = some definition ↔
      definition ∈ companionCommandDefinitions ∧ definition.command.value = command :=
  find?_key_eq_some_iff nodup_commands

/-- The loop passes the end of the table when no row has the command. -/
theorem definitionOf_eq_none_iff {command : UInt32} :
    definitionOf command = none ↔
      ∀ definition ∈ companionCommandDefinitions, definition.command.value ≠ command := by
  rw [definitionOf, List.find?_eq_none]
  simp

/-! ## Verdicts -/

/-- The number of argument bytes is inside the window of the row. -/
def CommandDefinition.Admits (definition : CommandDefinition) (length : ℕ) : Prop :=
  definition.minArgumentLength ≤ length ∧ length ≤ definition.maxArgumentLength

/-- The data is not empty, and some row has its first byte as command and its length, less one,
inside the window. -/
def FitsTable (data : List UInt8) : Prop :=
  ∃ command arguments, data = command :: arguments ∧
    ∃ definition ∈ companionCommandDefinitions,
      definition.command.value = command.toUInt32 ∧ definition.Admits arguments.length

/-- The data is not empty, and some row has its first byte as command and its length, less one,
outside the window. -/
def MissesWindow (data : List UInt8) : Prop :=
  ∃ command arguments, data = command :: arguments ∧
    ∃ definition ∈ companionCommandDefinitions,
      definition.command.value = command.toUInt32 ∧ ¬ definition.Admits arguments.length

/-- Data that fits a row misses the window of none, since there is only one row to look at. -/
theorem FitsTable.not_missesWindow {data : List UInt8} (h : FitsTable data) :
    ¬ MissesWindow data := by
  rintro ⟨command', arguments', hdata, definition', hmem', hcommand', hmisses⟩
  obtain ⟨command, arguments, rfl, definition, hmem, hcommand, hadmits⟩ := h
  obtain ⟨rfl, rfl⟩ := List.cons.inj hdata
  have hrow := definitionOf_eq_some_iff.mpr ⟨hmem, hcommand⟩
  have hrow' := definitionOf_eq_some_iff.mpr ⟨hmem', hcommand'⟩
  obtain rfl := Option.some.inj (hrow.symm.trans hrow')
  exact hmisses hadmits

/-- The packet of a command that was rejected. -/
def rejectedPacket (command : UInt8) : CommandPacket :=
  { CommandPacket.zero with command := command.toUInt32 }

/-- **What a command that is not empty can come to.** -/
theorem parse_cases (command : UInt8) (arguments : List UInt8) (old : CommandPacket) :
    (FitsTable (command :: arguments) ∧ arguments.length ≤ argsSize ∧
      mcCompanionParseCommand (command :: arguments) old
        = (.none, ⟨command.toUInt32, paddedArgs arguments⟩)) ∨
    (MissesWindow (command :: arguments) ∧
      mcCompanionParseCommand (command :: arguments) old
        = (.invalidArguments, rejectedPacket command)) ∨
    (¬ FitsTable (command :: arguments) ∧ ¬ MissesWindow (command :: arguments) ∧
      mcCompanionParseCommand (command :: arguments) old
        = (.invalidCommand, rejectedPacket command)) := by
  have hparse := mcCompanionParseCommand_cons command arguments old
  cases hrow : definitionOf command.toUInt32 with
  | none =>
      simp only [hrow] at hparse
      refine .inr (.inr ⟨?_, ?_, hparse⟩)
      all_goals
        rintro ⟨command', arguments', hdata, definition, hmem, hcommand, -⟩
        obtain ⟨rfl, rfl⟩ := List.cons.inj hdata
        exact definitionOf_eq_none_iff.mp hrow definition hmem hcommand
  | some definition =>
      simp only [hrow] at hparse
      obtain ⟨hmem, hcommand⟩ := definitionOf_eq_some_iff.mp hrow
      by_cases hadmits : definition.Admits arguments.length
      · obtain ⟨hmin, hmax⟩ := hadmits
        rw [if_neg (by omega)] at hparse
        exact .inl ⟨⟨_, _, rfl, definition, hmem, hcommand, hmin, hmax⟩,
          hmax.trans (maxArgumentLength_le hrow), hparse⟩
      · have hwindow : arguments.length < definition.minArgumentLength ∨
            definition.maxArgumentLength < arguments.length := by
          rw [CommandDefinition.Admits] at hadmits
          omega
        rw [if_pos hwindow] at hparse
        exact .inr (.inl ⟨⟨_, _, rfl, definition, hmem, hcommand, hadmits⟩, hparse⟩)

/-- The verdict of the parser, in terms of the rows. -/
theorem verdict_iff (data : List UInt8) (old : CommandPacket) :
    ((mcCompanionParseCommand data old).1 = .none ↔ FitsTable data) ∧
    ((mcCompanionParseCommand data old).1 = .invalidArguments ↔ MissesWindow data) ∧
    ((mcCompanionParseCommand data old).1 = .invalidCommand ↔
      ¬ FitsTable data ∧ ¬ MissesWindow data) := by
  cases data with
  | nil =>
      have hfits : ¬ FitsTable [] := by
        rintro ⟨command, arguments, hdata, -⟩
        cases hdata
      have hmisses : ¬ MissesWindow [] := by
        rintro ⟨command, arguments, hdata, -⟩
        cases hdata
      simp [hfits, hmisses]
  | cons command arguments =>
      rcases parse_cases command arguments old with
        ⟨hfits, -, hparse⟩ | ⟨hmisses, hparse⟩ | ⟨hfits, hmisses, hparse⟩
      · simp [hparse, hfits, hfits.not_missesWindow]
      · have hfits : ¬ FitsTable (command :: arguments) := fun h => h.not_missesWindow hmisses
        simp [hparse, hfits, hmisses]
      · simp [hparse, hfits, hmisses]

/-- The packet the parser leaves behind a command that is not empty. -/
theorem parsed_packet (command : UInt8) (arguments : List UInt8) (old : CommandPacket) :
    (mcCompanionParseCommand (command :: arguments) old).2.command = command.toUInt32 ∧
    ((mcCompanionParseCommand (command :: arguments) old).1 = .none →
      arguments.length ≤ argsSize ∧
      (mcCompanionParseCommand (command :: arguments) old).2.args.toList
        = arguments ++ List.replicate (argsSize - arguments.length) 0) ∧
    ((mcCompanionParseCommand (command :: arguments) old).1 ≠ .none →
      (mcCompanionParseCommand (command :: arguments) old).2.args.toList
        = List.replicate argsSize 0) := by
  have hzero : (rejectedPacket command).args.toList = List.replicate argsSize 0 :=
    Vector.toList_replicate
  rcases parse_cases command arguments old with
    ⟨-, hlength, hparse⟩ | ⟨-, hparse⟩ | ⟨-, -, hparse⟩
  · rw [hparse]
    exact ⟨rfl, fun _ => ⟨hlength, toList_paddedArgs hlength⟩, fun hne => absurd rfl hne⟩
  · rw [hparse]
    refine ⟨rfl, ?_, fun _ => hzero⟩
    intro hnone
    cases hnone
  · rw [hparse]
    refine ⟨rfl, ?_, fun _ => hzero⟩
    intro hnone
    cases hnone

/-- **The parser accepts exactly the table, and nothing of the earlier packet is left.** Data with a
row and a length inside its window is accepted, data with a row and a length outside is an error in
the arguments, everything else is an error in the command. The packet is left alone by empty data;
otherwise it has the command and, followed by zeros, the arguments that were accepted, which always
fit, or none. -/
theorem parseCommand_iff_table (data : List UInt8) (old : CommandPacket) :
    ((mcCompanionParseCommand data old).1 = .none ↔ FitsTable data) ∧
    ((mcCompanionParseCommand data old).1 = .invalidArguments ↔ MissesWindow data) ∧
    ((mcCompanionParseCommand data old).1 = .invalidCommand ↔
      ¬ FitsTable data ∧ ¬ MissesWindow data) ∧
    (data = [] → (mcCompanionParseCommand data old).2 = old) ∧
    ∀ command arguments, data = command :: arguments →
      (mcCompanionParseCommand data old).2.command = command.toUInt32 ∧
      ((mcCompanionParseCommand data old).1 = .none → arguments.length ≤ 169 ∧
        (mcCompanionParseCommand data old).2.args.toList
          = arguments ++ List.replicate (169 - arguments.length) 0) ∧
      ((mcCompanionParseCommand data old).1 ≠ .none →
        (mcCompanionParseCommand data old).2.args.toList = List.replicate 169 0) ∧
      ∀ old', mcCompanionParseCommand data old' = mcCompanionParseCommand data old := by
  have hsize : argsSize = 169 := by decide
  obtain ⟨hnone, harguments, hcommand⟩ := verdict_iff data old
  refine ⟨hnone, harguments, hcommand, ?_, ?_⟩
  · rintro rfl
    rw [mcCompanionParseCommand_nil]
  · rintro command arguments rfl
    obtain ⟨hpacket, haccepted, hrejected⟩ := parsed_packet command arguments old
    simp only [hsize] at haccepted hrejected
    refine ⟨hpacket, haccepted, hrejected, ?_⟩
    intro old'
    exact mcCompanionParseCommand_congr (List.cons_ne_nil _ _) old' old

end MeshcoreC
