import MeshcoreC.Companion.CommandParser

/-! # What a command packet keeps of a command

The packet handed to the callback has the command and a zero-padded argument union, but no argument
length. Two accepted commands give the same packet exactly when they differ in zero bytes at the end
of their arguments; a byte other than zero is as frequent in the packet as in the command. -/

namespace MeshcoreC

open Buffers

/-- The padded arguments are the arguments and zeros. -/
theorem toList_paddedArgs {arguments : List UInt8} (h : arguments.length ≤ argsSize) :
    (paddedArgs arguments).toList
      = arguments ++ List.replicate (argsSize - arguments.length) 0 := by
  rw [paddedArgs, toList_blit _ _ h, Vector.toList_replicate, List.drop_replicate]

/-- Padded arguments agree exactly when the arguments agree up to zeros at the end. -/
theorem paddedArgs_eq_iff {a b : List UInt8} (ha : a.length ≤ argsSize) (hb : b.length ≤ argsSize) :
    paddedArgs a = paddedArgs b ↔
      ∃ arguments j k, a = arguments ++ List.replicate j 0 ∧
        b = arguments ++ List.replicate k 0 := by
  rw [← Vector.toList_inj, toList_paddedArgs ha, toList_paddedArgs hb]
  exact append_replicate_eq_iff ha hb

section Accepted

variable {d₁ d₂ : List UInt8} {old₁ old₂ packet₁ packet₂ : CommandPacket}

/-- The packets of accepted commands agree exactly when the commands agree up to zeros at the end
of the arguments. -/
theorem packet_eq_iff_padding (h₁ : mcCompanionParseCommand d₁ old₁ = (.none, packet₁))
    (h₂ : mcCompanionParseCommand d₂ old₂ = (.none, packet₂)) :
    packet₁ = packet₂ ↔
      ∃ command arguments j k, d₁ = command :: arguments ++ List.replicate j 0 ∧
        d₂ = command :: arguments ++ List.replicate k 0 := by
  obtain ⟨c₁, a₁, def₁, rfl, hdef₁, -, hmax₁, rfl⟩ := mcCompanionParseCommand_accepted h₁
  obtain ⟨c₂, a₂, def₂, rfl, hdef₂, -, hmax₂, rfl⟩ := mcCompanionParseCommand_accepted h₂
  -- both argument lists fit the union, so padding is all that happens to them
  have hargs := paddedArgs_eq_iff (hmax₁.trans (maxArgumentLength_le hdef₁))
    (hmax₂.trans (maxArgumentLength_le hdef₂))
  constructor
  · intro heq
    obtain ⟨hcommand, hpadded⟩ := CommandPacket.mk.inj heq
    obtain ⟨arguments, j, k, rfl, rfl⟩ := hargs.mp hpadded
    obtain rfl := UInt8.toUInt32_inj.mp hcommand
    exact ⟨c₁, arguments, j, k, rfl, rfl⟩
  · rintro ⟨command, arguments, j, k, hd₁, hd₂⟩
    rw [List.cons_append, List.cons.injEq] at hd₁ hd₂
    obtain ⟨rfl, rfl⟩ := hd₁
    obtain ⟨rfl, rfl⟩ := hd₂
    rw [hargs.mpr ⟨arguments, j, k, rfl, rfl⟩]

/-- Accepted commands with the same packet contain every byte other than zero equally often. -/
theorem count_eq_of_packet_eq (h₁ : mcCompanionParseCommand d₁ old₁ = (.none, packet₁))
    (h₂ : mcCompanionParseCommand d₂ old₂ = (.none, packet₂)) (heq : packet₁ = packet₂) {b : UInt8}
    (hb : b ≠ 0) : d₁.count b = d₂.count b := by
  obtain ⟨command, arguments, j, k, rfl, rfl⟩ := (packet_eq_iff_padding h₁ h₂).mp heq
  have hzeros : ∀ n, (List.replicate n (0 : UInt8)).count b = 0 := by
    intro n
    rw [List.count_replicate, if_neg]
    simpa using hb.symm
  rw [List.count_append, List.count_append, hzeros, hzeros]

/-- **Parsing forgets the number of trailing zero argument bytes, and nothing else.** Accepted
commands with the same packet have the same command byte and the same arguments up to zeros at the
end; where they are equally long, they are equal. -/
theorem commandPacket_eq_iff (h₁ : mcCompanionParseCommand d₁ old₁ = (.none, packet₁))
    (h₂ : mcCompanionParseCommand d₂ old₂ = (.none, packet₂)) :
    (packet₁ = packet₂ ↔
      ∃ command arguments j k, d₁ = command :: arguments ++ List.replicate j 0 ∧
        d₂ = command :: arguments ++ List.replicate k 0) ∧
    (packet₁ = packet₂ → d₁.length = d₂.length → d₁ = d₂) := by
  have hpadding := packet_eq_iff_padding h₁ h₂
  refine ⟨hpadding, ?_⟩
  intro heq hlength
  obtain ⟨command, arguments, j, k, rfl, rfl⟩ := hpadding.mp heq
  rw [List.length_append, List.length_append, List.length_replicate, List.length_replicate]
    at hlength
  rw [Nat.add_left_cancel hlength]

end Accepted

/-- Two byte strings to sign, `1` and `1 0`: the device is asked to sign the same packet. -/
theorem commandPacket_eq_iff_signData :
    mcCompanionParseCommand [34, 1] CommandPacket.zero
        = (.none, ⟨34, paddedArgs [1]⟩) ∧
      mcCompanionParseCommand [34, 1, 0] CommandPacket.zero
        = (.none, ⟨34, paddedArgs [1, 0]⟩) ∧
      (⟨34, paddedArgs [1]⟩ : CommandPacket) = ⟨34, paddedArgs [1, 0]⟩ := by
  have hshort : mcCompanionParseCommand [34, 1] CommandPacket.zero
      = (.none, ⟨34, paddedArgs [1]⟩) := rfl
  have hlong : mcCompanionParseCommand [34, 1, 0] CommandPacket.zero
      = (.none, ⟨34, paddedArgs [1, 0]⟩) := rfl
  exact ⟨hshort, hlong, (commandPacket_eq_iff hshort hlong).1.mpr ⟨34, [1], 0, 1, rfl, rfl⟩⟩

/-- The parser is not injective on the commands it accepts. -/
theorem commandPacket_not_injective :
    ¬ ∀ d₁ d₂ packet, mcCompanionParseCommand d₁ CommandPacket.zero = (.none, packet) →
      mcCompanionParseCommand d₂ CommandPacket.zero = (.none, packet) → d₁ = d₂ := by
  intro h
  have hpadded : paddedArgs [1] = paddedArgs [1, 0] :=
    (paddedArgs_eq_iff (by decide) (by decide)).mpr ⟨[1], 0, 1, rfl, rfl⟩
  have hshort : mcCompanionParseCommand [34, 1] CommandPacket.zero
      = (.none, ⟨34, paddedArgs [1]⟩) := rfl
  have hlong : mcCompanionParseCommand [34, 1, 0] CommandPacket.zero
      = (.none, ⟨34, paddedArgs [1]⟩) := by
    rw [hpadded]
    rfl
  exact absurd (h [34, 1] [34, 1, 0] _ hshort hlong) (by decide)

end MeshcoreC
