import MeshcoreC.Mesh.Advert

/-! # What the advertisement encoder writes

The bytes of an advertisement are its fixed part and the optional fields that are valid, one behind
the other (`Advert.wire`); `writes_advert` says that the encoder writes exactly these. -/

namespace MeshcoreC.Mesh

open Buffers EarlyReturn Wire

/-! ## The bytes -/

/-- Key, timestamp, signature and flags. -/
def Advert.fixedPart (a : Advert) : List UInt8 :=
  slice (view a.pubKey) 0 pubKeySize ++ (leBytes 4 a.timestamp.toNat ++
    (slice (view a.signature) 0 signatureSize ++ [a.flags]))

/-- The bytes of the position, if it is valid. -/
def Advert.positionPart (a : Advert) : List UInt8 :=
  if a.positionValid then
    leBytes 4 a.positionLat.toUInt32.toNat ++ leBytes 4 a.positionLon.toUInt32.toNat
  else []

/-- The bytes of an extra field, if it is valid. -/
def extraPart (valid : Bool) (extra : UInt16) : List UInt8 :=
  if valid then leBytes 2 extra.toNat else []

/-- The number of characters of the name. -/
def Advert.nameLen (a : Advert) : ℕ := strnlen (view a.name) maxNameSize

/-- The characters of the name, if it is valid. -/
def Advert.namePart (a : Advert) : List UInt8 :=
  if a.nameValid then slice (view a.name) 0 a.nameLen else []

/-- The bytes of an advertisement. -/
def Advert.wire (a : Advert) : List UInt8 :=
  a.fixedPart ++ (a.positionPart ++ (extraPart a.extra1Valid a.extra1 ++
    (extraPart a.extra2Valid a.extra2 ++ a.namePart)))

variable (a : Advert)

@[simp] theorem Advert.length_fixedPart : a.fixedPart.length = 101 := by
  simp [Advert.fixedPart, pubKeySize, signatureSize]

@[simp] theorem Advert.length_positionPart :
    a.positionPart.length = if a.positionValid then 8 else 0 := by
  unfold Advert.positionPart
  split_ifs
  · simp
  · rfl

@[simp] theorem length_extraPart (valid : Bool) (extra : UInt16) :
    (extraPart valid extra).length = if valid then 2 else 0 := by
  unfold extraPart
  split_ifs
  · simp
  · rfl

@[simp] theorem Advert.length_namePart :
    a.namePart.length = if a.nameValid then a.nameLen else 0 := by
  unfold Advert.namePart
  split_ifs
  · simp
  · rfl

/-- A name has at most 32 characters. -/
theorem Advert.nameLen_le : a.nameLen ≤ 32 := strnlen_le _ _

/-- The size that the fields add up to. -/
theorem Advert.length_wire :
    a.wire.length = 101 + (if a.positionValid then 8 else 0) + (if a.extra1Valid then 2 else 0) +
      (if a.extra2Valid then 2 else 0) + (if a.nameValid then a.nameLen else 0) := by
  simp only [Advert.wire, List.length_append, Advert.length_fixedPart, Advert.length_positionPart,
    length_extraPart, Advert.length_namePart]
  omega

/-- The bytes of every advertisement fit a payload, with room to spare. -/
theorem Advert.length_wire_le : a.wire.length ≤ 145 := by
  have hname := a.nameLen_le
  rw [Advert.length_wire]
  split_ifs <;> omega

/-! ## The encoder -/

section Parts

variable {a} {s : WireState OutBuffer} {cap : ℕ} {bytes : List UInt8}

/-- The fixed part is the first to be written. -/
theorem exec_putFixedPart (h : Encodes cap [] s) :
    ∃ s', exec (putFixedPart a) s = (some (), s') ∧ Encodes cap a.fixedPart s' := by
  obtain ⟨s₁, hrun₁, h₁, -⟩ := h.exec_copyArray a.pubKey (n := pubKeySize) (by decide)
  obtain ⟨s₂, hrun₂, h₂, -⟩ :=
    h₁.exec_put (length_leBytes 4 a.timestamp.toNat) (by simp [pubKeySize])
  obtain ⟨s₃, hrun₃, h₃, -⟩ := h₂.exec_copyArray a.signature (n := signatureSize)
    (by simp [pubKeySize, signatureSize])
  obtain ⟨s₄, hrun₄, h₄⟩ := h₃.exec_putLast (show [a.flags].length = 1 from rfl)
    (by simp [pubKeySize, signatureSize])
  refine ⟨s₄, ?_, ?_⟩
  · rw [putFixedPart, hrun₁, hrun₂, hrun₃, hrun₄]
  · simpa only [Advert.fixedPart, List.nil_append, List.append_assoc] using h₄

/-- The position is written behind the fixed part. -/
theorem exec_putPosition (h : Encodes cap bytes s) (hlt : bytes.length + 8 < 256) :
    ∃ s', exec (putPosition a) s = (some (), s') ∧ Encodes cap (bytes ++ a.positionPart) s' := by
  rw [putPosition, exec_whenever, Advert.positionPart]
  by_cases hvalid : a.positionValid
  · rw [if_pos hvalid, if_pos hvalid]
    obtain ⟨s₁, hrun₁, h₁, -⟩ :=
      h.exec_put (length_leBytes 4 a.positionLat.toUInt32.toNat) (by omega)
    obtain ⟨s₂, hrun₂, h₂⟩ :=
      h₁.exec_putLast (length_leBytes 4 a.positionLon.toUInt32.toNat) (by simp; omega)
    refine ⟨s₂, ?_, ?_⟩
    · rw [hrun₁, hrun₂]
    · rwa [List.append_assoc] at h₂
  · rw [if_neg hvalid, if_neg hvalid, List.append_nil]
    exact ⟨s, rfl, h⟩

/-- The extra fields are written one after the other. -/
theorem exec_putExtra (h : Encodes cap bytes s) (valid : Bool) (extra : UInt16)
    (hlt : bytes.length + 2 < 256) :
    ∃ s', exec (putExtra valid extra) s = (some (), s') ∧
      Encodes cap (bytes ++ extraPart valid extra) s' := by
  rw [putExtra, exec_whenever, extraPart]
  by_cases hvalid : valid
  · rw [if_pos hvalid, if_pos hvalid]
    exact h.exec_putLast (length_leBytes 2 extra.toNat) hlt
  · rw [if_neg hvalid, if_neg hvalid, List.append_nil]
    exact ⟨s, rfl, h⟩

/-- The name is written last. -/
theorem exec_putName (h : Encodes cap bytes s) (hlt : bytes.length + 32 < 256) :
    ∃ s', exec (putName a) s = (some (), s') ∧ Encodes cap (bytes ++ a.namePart) s' := by
  have hname := a.nameLen_le
  rw [putName, exec_whenever, Advert.namePart]
  by_cases hvalid : a.nameValid
  · rw [if_pos hvalid, if_pos hvalid]
    exact h.exec_copyArrayLast a.name (n := a.nameLen) (by omega)
  · rw [if_neg hvalid, if_neg hvalid, List.append_nil]
    exact ⟨s, rfl, h⟩

end Parts

/-- **What the encoder writes**, for every advertisement. -/
theorem writes_advert : Writes (meshcoreAdvertSerialize a) maxPayloadSize a.wire := by
  apply writes_of_exec
  intro mem
  -- the position stays below 256 in front of every part
  have hparts : (a.fixedPart ++ a.positionPart).length ≤ 109 ∧
      (extraPart a.extra1Valid a.extra1).length ≤ 2 ∧
      (extraPart a.extra2Valid a.extra2).length ≤ 2 := by
    simp only [List.length_append, Advert.length_fixedPart, Advert.length_positionPart,
      length_extraPart]
    refine ⟨?_, ?_, ?_⟩
    all_goals split_ifs <;> omega
  obtain ⟨hpart₁, hpart₂, hpart₃⟩ := hparts
  have h₀ := encodes_clear (s := ⟨0, ⟨mem, none⟩, []⟩) rfl maxPayloadSize
  obtain ⟨s₁, hrun₁, h₁⟩ := exec_putFixedPart (a := a) h₀
  obtain ⟨s₂, hrun₂, h₂⟩ := exec_putPosition (a := a) h₁ (by simp)
  obtain ⟨s₃, hrun₃, h₃⟩ := exec_putExtra h₂ a.extra1Valid a.extra1 (by omega)
  obtain ⟨s₄, hrun₄, h₄⟩ := exec_putExtra h₃ a.extra2Valid a.extra2
    (by rw [List.length_append]; omega)
  obtain ⟨s₅, hrun₅, h₅⟩ := exec_putName (a := a) h₄
    (by rw [List.length_append, List.length_append]; omega)
  have hwire : a.fixedPart ++ a.positionPart ++ extraPart a.extra1Valid a.extra1 ++
      extraPart a.extra2Valid a.extra2 ++ a.namePart = a.wire := by
    simp only [Advert.wire, List.append_assoc]
  rw [hwire] at h₅
  refine ⟨s₅, ?_, h₅⟩
  rw [advertSerializeBody, exec_clear_bind, exec_bind_of_some hrun₁, exec_bind_of_some hrun₂,
    exec_bind_of_some hrun₃, exec_bind_of_some hrun₄, exec_bind_of_some hrun₅]

end MeshcoreC.Mesh
