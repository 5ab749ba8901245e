import MeshcoreC.Mesh.Advert

/-! # What the advertisement decoder computes

Behind the fixed part of 100 bytes and the flags byte, each optional field moves the start of the
next one (`extra1Start`, `extra2Start`, `nameStart`). Every part of the decoder has one lemma for
the case that it succeeds and one for the case that it rejects.

* **`Passes`** — no check rejects; `yields_advert` and `rejects_advert` decide the decoder by it.
* **`passes_iff_of_le`**, **`passes_iff_of_lt`** — what that means for payloads with a flags byte,
  and for those that are too short and pass all the same. -/

namespace MeshcoreC.Mesh

open Buffers EarlyReturn Wire

/-! ## The layout of a payload -/

/-- The number of bytes of a field that is there only if its flag is set. -/
def optional (flags flag : UInt8) (n : ℕ) : ℕ := if flags &&& flag ≠ 0 then n else 0

/-- Where the first extra field starts. -/
def extra1Start (flags : UInt8) : ℕ := 101 + optional flags advertFlagHasPosition 8

/-- Where the second extra field starts. -/
def extra2Start (flags : UInt8) : ℕ := extra1Start flags + optional flags advertFlagFeat1 2

/-- Where the name starts. -/
def nameStart (flags : UInt8) : ℕ := extra2Start flags + optional flags advertFlagFeat2 2

/-- A 32-bit number in memory. -/
def readUInt32 (data : Memory) (pos : ℕ) : UInt32 := UInt32.ofNat (ofLeBytes (slice data pos 4))

/-- A 16-bit number in memory. -/
def readUInt16 (data : Memory) (pos : ℕ) : UInt16 := UInt16.ofNat (ofLeBytes (slice data pos 2))

/-- Key, timestamp and signature, put into an advertisement. -/
def withFixedPart (data : Memory) (a : Advert) : Advert :=
  { a with
    pubKey := blit a.pubKey (slice data 0 pubKeySize)
    timestamp := readUInt32 data 32
    signature := blit a.signature (slice data 36 signatureSize) }

/-- A position, put into an advertisement. -/
def withPosition (data : Memory) (pos : ℕ) (a : Advert) : Advert :=
  { a with
    positionLat := Int32.ofUInt32 (readUInt32 data pos)
    positionLon := Int32.ofUInt32 (readUInt32 data (pos + 4))
    positionValid := true }

/-- A first extra field, put into an advertisement. -/
def withExtra1 (data : Memory) (pos : ℕ) (a : Advert) : Advert :=
  { a with extra1 := readUInt16 data pos, extra1Valid := true }

/-- A second extra field, put into an advertisement. -/
def withExtra2 (data : Memory) (pos : ℕ) (a : Advert) : Advert :=
  { a with extra2 := readUInt16 data pos, extra2Valid := true }

/-- A name with its terminator, put into an advertisement. -/
def withName (data : Memory) (pos len : ℕ) (a : Advert) : Advert :=
  { a with name := (blit a.name (slice data pos len)).setIfInBounds len 0, nameValid := true }

/-- The advertisement an accepted payload with a flags byte stands for. -/
def decodedAdvert (data : Memory) (size : ℕ) : Advert :=
  let flags := data 100
  let a := { withFixedPart data Advert.zero with role := (flags &&& 0x0F).toUInt32 }
  let a := if flags &&& advertFlagHasPosition ≠ 0 then withPosition data 101 a else a
  let a := if flags &&& advertFlagFeat1 ≠ 0 then withExtra1 data (extra1Start flags) a else a
  let a := if flags &&& advertFlagFeat2 ≠ 0 then withExtra2 data (extra2Start flags) a else a
  if flags &&& advertFlagName ≠ 0 then
    withName data (nameStart flags) (size - nameStart flags) a
  else a

/-- A flag that starts clear and is set under a condition. -/
theorem ite_eq_decide (c : Prop) [Decidable c] : (if c then true else false) = decide c := by
  simp

/-- That advertisement, field by field. -/
theorem decodedAdvert_fields (data : Memory) (n : ℕ) :
    decodedAdvert data n =
      { withFixedPart data Advert.zero with
        role := (data 100 &&& 0x0F).toUInt32
        nameValid := decide (data 100 &&& advertFlagName ≠ 0)
        name := if data 100 &&& advertFlagName ≠ 0 then
            (blit (Vector.replicate nameCapacity 0)
              (slice data (nameStart (data 100)) (n - nameStart (data 100)))).setIfInBounds
              (n - nameStart (data 100)) 0
          else Vector.replicate nameCapacity 0
        positionValid := decide (data 100 &&& advertFlagHasPosition ≠ 0)
        positionLat := if data 100 &&& advertFlagHasPosition ≠ 0 then
            Int32.ofUInt32 (readUInt32 data 101) else 0
        positionLon := if data 100 &&& advertFlagHasPosition ≠ 0 then
            Int32.ofUInt32 (readUInt32 data (101 + 4)) else 0
        extra1Valid := decide (data 100 &&& advertFlagFeat1 ≠ 0)
        extra1 := if data 100 &&& advertFlagFeat1 ≠ 0 then
            readUInt16 data (extra1Start (data 100)) else 0
        extra2Valid := decide (data 100 &&& advertFlagFeat2 ≠ 0)
        extra2 := if data 100 &&& advertFlagFeat2 ≠ 0 then
            readUInt16 data (extra2Start (data 100)) else 0 } := by
  apply Advert.ext
  all_goals
    simp only [decodedAdvert, withName, withExtra1, withExtra2, withPosition, withFixedPart,
      apply_ite Advert.pubKey, apply_ite Advert.timestamp, apply_ite Advert.signature,
      apply_ite Advert.role, apply_ite Advert.nameValid, apply_ite Advert.name,
      apply_ite Advert.positionValid, apply_ite Advert.positionLat, apply_ite Advert.positionLon,
      apply_ite Advert.extra1Valid, apply_ite Advert.extra1, apply_ite Advert.extra2Valid,
      apply_ite Advert.extra2, ite_self]
  case nameValid => exact ite_eq_decide _
  case positionValid => exact ite_eq_decide _
  case extra1Valid => exact ite_eq_decide _
  case extra2Valid => exact ite_eq_decide _
  all_goals rfl

/-! ## The parts of the decoder -/

variable (data : Memory) (size flags : UInt8)

/-- The fixed part is copied from the start of the payload. -/
theorem exec_readFixedPart {s : WireState Advert} (hpos : s.position = 0) :
    ∃ s', exec (readFixedPart data) s = (some (), s') ∧ s'.position = 100 ∧
      s'.target = withFixedPart data s.target := by
  rw [readFixedPart]
  simp only [exec_position_bind, exec_copyIn_bind, exec_advance_bind, exec_advance]
  refine ⟨_, rfl, ?_, ?_⟩
  · simp only [WireState.advance_position, WireState.assign_position, WireState.log_position, hpos]
    rfl
  · simp only [WireState.advance_position, WireState.assign_position, WireState.log_position,
      WireState.advance_target, WireState.assign_target, WireState.log_target, hpos]
    rfl

/-- The check that `n` bytes are left at index `q` rejects. It lets pass a payload that ends before
`q`. -/
def Lacks (size q n : ℕ) : Prop := q ≤ size ∧ size < q + n

/-- The length of a name at index `q`, by an 8-bit subtraction. -/
def nameLength (size : UInt8) (q : ℕ) : ℕ := (size - UInt8.ofNat q).toNat

/-- A payload that reaches the name has the rest as its length. -/
theorem nameLength_of_le {size : UInt8} {q : ℕ} (h : q ≤ size.toNat) :
    nameLength size q = size.toNat - q := by
  have hlt := size.toNat_lt
  rw [nameLength, UInt8.toNat_sub, UInt8.toNat_ofNat']
  omega

/-- In a payload that ends before its name the length wraps around. -/
theorem nameLength_of_lt {size : UInt8} {q : ℕ} (h : size.toNat < q) (hq : q ≤ 256) :
    nameLength size q = 256 + size.toNat - q := by
  rw [nameLength, UInt8.toNat_sub, UInt8.toNat_ofNat']
  omega

section Fields

variable {s : WireState Advert} {q : ℕ} (hpos : s.position.toNat = q)

include hpos

/-- The check, in numbers. -/
theorem toSizeT_lt_iff_lacks {size : UInt8} {n : ℕ} (hn : n ≤ 2 ^ 63) :
    toSizeT (size.toNat - s.position.toNat) < n ↔ Lacks size.toNat q n := by
  rw [toSizeT_sub_lt_iff hn, hpos]
  rfl

/-- A position that moves on below 256 does not wrap around. -/
theorem toNat_advance {n : ℕ} (hlt : q + n < 256) :
    (s.position + UInt8.ofNat n).toNat = q + n := by
  rw [UInt8.toNat_add, hpos, UInt8.toNat_ofNat']
  omega

/-- The position is read, or there is none. -/
theorem exec_readPosition (hlt : q + 8 < 256)
    (hpass : flags &&& advertFlagHasPosition ≠ 0 → ¬ Lacks size.toNat q 8) :
    ∃ s', exec (readPosition data size flags) s = (some (), s') ∧
      s'.position.toNat = q + optional flags advertFlagHasPosition 8 ∧
      s'.target =
        if flags &&& advertFlagHasPosition ≠ 0 then withPosition data q s.target else s.target := by
  rw [readPosition, exec_whenever]
  unfold optional
  by_cases hflag : flags &&& advertFlagHasPosition ≠ 0
  · have hguard := mt (toSizeT_lt_iff_lacks hpos (by decide)).mp (hpass hflag)
    rw [if_pos hflag, if_pos hflag, if_pos hflag, exec_position_bind,
      exec_rejectIf_bind_of_neg hguard]
    simp only [exec_position_bind, exec_copyIn_bind, exec_advance_bind, exec_assign]
    have hmid := toNat_advance hpos (show q + 4 < 256 by omega)
    refine ⟨_, rfl, ?_, ?_⟩
    · simp only [WireState.assign_position, WireState.advance_position, WireState.log_position]
      rw [UInt8.toNat_add, hmid, UInt8.toNat_ofNat']
      omega
    · simp only [WireState.assign_target, WireState.advance_target, WireState.log_target,
        WireState.assign_position, WireState.advance_position, WireState.log_position, hmid, hpos,
        withPosition, readUInt32]
  · rw [if_neg hflag, if_neg hflag, if_neg hflag]
    exact ⟨s, rfl, hpos, rfl⟩

/-- A part of the position is missing. -/
theorem exec_readPosition_lacks (hflag : flags &&& advertFlagHasPosition ≠ 0)
    (hlacks : Lacks size.toNat q 8) : exec (readPosition data size flags) s = (none, s) := by
  have hguard := (toSizeT_lt_iff_lacks hpos (by decide)).mpr hlacks
  rw [readPosition, exec_whenever, if_pos hflag, exec_position_bind,
    exec_rejectIf_bind_of_pos hguard]

section Extra

variable (flag : UInt8) (setExtra : UInt16 → Advert → Advert) (setValid : Advert → Advert)

/-- An extra field is read, or there is none. -/
theorem exec_readExtra (hlt : q + 2 < 256)
    (hpass : flags &&& flag ≠ 0 → ¬ Lacks size.toNat q 2) :
    ∃ s', exec (readExtra data size flags flag setExtra setValid) s = (some (), s') ∧
      s'.position.toNat = q + optional flags flag 2 ∧
      s'.target =
        if flags &&& flag ≠ 0 then setValid (setExtra (readUInt16 data q) s.target)
        else s.target := by
  rw [readExtra, exec_whenever]
  unfold optional
  by_cases hflag : flags &&& flag ≠ 0
  · have hguard := mt (toSizeT_lt_iff_lacks hpos (by decide)).mp (hpass hflag)
    rw [if_pos hflag, if_pos hflag, if_pos hflag, exec_position_bind,
      exec_rejectIf_bind_of_neg hguard]
    simp only [exec_copyIn_bind, exec_advance_bind, exec_assign, hpos]
    refine ⟨_, rfl, ?_, rfl⟩
    exact toNat_advance hpos hlt
  · rw [if_neg hflag, if_neg hflag, if_neg hflag]
    exact ⟨s, rfl, hpos, rfl⟩

/-- A part of an extra field is missing. -/
theorem exec_readExtra_lacks (hflag : flags &&& flag ≠ 0) (hlacks : Lacks size.toNat q 2) :
    exec (readExtra data size flags flag setExtra setValid) s = (none, s) := by
  have hguard := (toSizeT_lt_iff_lacks hpos (by decide)).mpr hlacks
  rw [readExtra, exec_whenever, if_pos hflag, exec_position_bind,
    exec_rejectIf_bind_of_pos hguard]

end Extra

/-- The first extra field is read, or there is none. -/
theorem exec_readExtra1 (hlt : q + 2 < 256)
    (hpass : flags &&& advertFlagFeat1 ≠ 0 → ¬ Lacks size.toNat q 2) :
    ∃ s', exec (readExtra1 data size flags) s = (some (), s') ∧
      s'.position.toNat = q + optional flags advertFlagFeat1 2 ∧
      s'.target =
        if flags &&& advertFlagFeat1 ≠ 0 then withExtra1 data q s.target else s.target :=
  exec_readExtra data size flags hpos _ _ _ hlt hpass

/-- A first extra field that is not all there ends the decoder. -/
theorem exec_readExtra1_lacks (hflag : flags &&& advertFlagFeat1 ≠ 0)
    (hlacks : Lacks size.toNat q 2) : exec (readExtra1 data size flags) s = (none, s) :=
  exec_readExtra_lacks data size flags hpos _ _ _ hflag hlacks

/-- The second extra field is read, or there is none. -/
theorem exec_readExtra2 (hlt : q + 2 < 256)
    (hpass : flags &&& advertFlagFeat2 ≠ 0 → ¬ Lacks size.toNat q 2) :
    ∃ s', exec (readExtra2 data size flags) s = (some (), s') ∧
      s'.position.toNat = q + optional flags advertFlagFeat2 2 ∧
      s'.target =
        if flags &&& advertFlagFeat2 ≠ 0 then withExtra2 data q s.target else s.target :=
  exec_readExtra data size flags hpos _ _ _ hlt hpass

/-- The same for the second. -/
theorem exec_readExtra2_lacks (hflag : flags &&& advertFlagFeat2 ≠ 0)
    (hlacks : Lacks size.toNat q 2) : exec (readExtra2 data size flags) s = (none, s) :=
  exec_readExtra_lacks data size flags hpos _ _ _ hflag hlacks

/-- The length of the name, as the code computes it. -/
theorem toNat_sub_position : (size - s.position).toNat = nameLength size q := by
  rw [nameLength, ← hpos, UInt8.ofNat_toNat]

/-- The name is read, or there is none. -/
theorem exec_readName (hname : flags &&& advertFlagName ≠ 0 → nameLength size q ≤ 32) :
    ∃ s', exec (readName data size flags) s = (some (), s') ∧
      s'.target =
        if flags &&& advertFlagName ≠ 0 then withName data q (nameLength size q) s.target
        else s.target := by
  have hlength := toNat_sub_position size hpos
  rw [readName, exec_whenever]
  by_cases hflag : flags &&& advertFlagName ≠ 0
  · have hreject : ¬ maxNameSize < (size - s.position).toNat := by
      rw [hlength]
      exact not_lt.mpr (hname hflag)
    rw [if_pos hflag, if_pos hflag, exec_position_bind, exec_rejectIf_bind_of_neg hreject]
    simp only [exec_copyIn_bind, exec_assign_bind, exec_advance_bind, exec_assign, hpos, hlength]
    refine ⟨_, rfl, ?_⟩
    simp only [WireState.assign_target, WireState.advance_target, WireState.log_target, withName]
  · rw [if_neg hflag, if_neg hflag]
    exact ⟨s, rfl, rfl⟩

/-- The name is too long. -/
theorem exec_readName_long (hflag : flags &&& advertFlagName ≠ 0) (hlong : 32 < nameLength size q) :
    exec (readName data size flags) s = (none, s) := by
  have hreject : maxNameSize < (size - s.position).toNat := by
    rw [toNat_sub_position size hpos]
    exact hlong
  rw [readName, exec_whenever, if_pos hflag, exec_position_bind, exec_rejectIf_bind_of_pos hreject]

end Fields

/-! ## The whole decoder -/

/-- None of the checks behind the flags byte rejects. -/
structure Passes (data : Memory) (size : UInt8) : Prop where
  position : data 100 &&& advertFlagHasPosition ≠ 0 → ¬ Lacks size.toNat 101 8
  extra1 : data 100 &&& advertFlagFeat1 ≠ 0 → ¬ Lacks size.toNat (extra1Start (data 100)) 2
  extra2 : data 100 &&& advertFlagFeat2 ≠ 0 → ¬ Lacks size.toNat (extra2Start (data 100)) 2
  name : data 100 &&& advertFlagName ≠ 0 → nameLength size (nameStart (data 100)) ≤ 32

/-- A field takes at most its size. -/
theorem optional_le (flags flag : UInt8) (n : ℕ) : optional flags flag n ≤ n := by
  unfold optional
  split_ifs
  · exact le_rfl
  · exact Nat.zero_le n

/-- The fields start in this order, well below 256. -/
theorem starts_le (flags : UInt8) : 101 ≤ extra1Start flags ∧ extra1Start flags ≤ 109 ∧
    extra1Start flags ≤ extra2Start flags ∧ extra2Start flags ≤ 111 ∧
    extra2Start flags ≤ nameStart flags ∧ nameStart flags ≤ 113 := by
  have hposition := optional_le flags advertFlagHasPosition 8
  have hextra1 := optional_le flags advertFlagFeat1 2
  have hextra2 := optional_le flags advertFlagFeat2 2
  unfold nameStart extra2Start extra1Start
  omega

/-- The decoder on a payload that counts as having a flags byte, up to the first optional field. -/
theorem exec_advertFlags (hsize : size.toNat ≠ 100) (old : Advert) :
    ∃ s : WireState Advert, s.position.toNat = 101 ∧
      s.target = { withFixedPart data Advert.zero with
        role := (data 100 &&& 0x0F).toUInt32 } ∧
      exec (advertDeserializeBody data size) ⟨0, old, []⟩ =
        exec (do
          readPosition data size (data 100)
          readExtra1 data size (data 100)
          readExtra2 data size (data 100)
          readName data size (data 100)) s := by
  obtain ⟨s₁, hrun₁, hpos₁, htarget₁⟩ :=
    exec_readFixedPart data (s := WireState.assign (fun _ => Advert.zero) ⟨0, old, []⟩) rfl
  have hpos : s₁.position.toNat = 100 := by rw [hpos₁]; rfl
  have happData : 0 < size - s₁.position := by
    have hlt := size.toNat_lt
    rw [UInt8.lt_iff_toNat_lt, UInt8.toNat_sub, hpos]
    show 0 < (256 - 100 + size.toNat) % 256
    omega
  rw [WireState.assign_target] at htarget₁
  refine ⟨((s₁.log (.read 100 1)).advance 1).assign fun a =>
    { a with role := (data 100 &&& 0x0F).toUInt32 }, toNat_advance hpos (by decide), ?_, ?_⟩
  · rw [WireState.assign_target, WireState.advance_target, WireState.log_target, htarget₁]
  · rw [advertDeserializeBody, exec_assign_bind, exec_bind_of_some hrun₁, exec_position_bind,
      exec_whenever, if_pos happData, readAppData, exec_position_bind, exec_readByte_bind,
      exec_advance_bind, exec_assign_bind, hpos]

/-- **An accepted payload that counts as having a flags byte.** -/
theorem exec_advertAccepted (hsize : size.toNat ≠ 100) (hpass : Passes data size) (old : Advert) :
    ∃ s, exec (advertDeserializeBody data size) ⟨0, old, []⟩ = (some (), s) ∧
      s.target = decodedAdvert data size.toNat := by
  obtain ⟨-, hstart₁, -, hstart₂, -, hstart₃⟩ := starts_le (data 100)
  obtain ⟨s₂, hpos₂, htarget₂, hrun⟩ := exec_advertFlags data size hsize old
  obtain ⟨s₃, hrun₃, hpos₃, htarget₃⟩ :=
    exec_readPosition data size (data 100) hpos₂ (by decide) hpass.position
  change s₃.position.toNat = extra1Start (data 100) at hpos₃
  obtain ⟨s₄, hrun₄, hpos₄, htarget₄⟩ :=
    exec_readExtra1 data size (data 100) hpos₃ (by omega) hpass.extra1
  change s₄.position.toNat = extra2Start (data 100) at hpos₄
  obtain ⟨s₅, hrun₅, hpos₅, htarget₅⟩ :=
    exec_readExtra2 data size (data 100) hpos₄ (by omega) hpass.extra2
  obtain ⟨s₆, hrun₆, htarget₆⟩ := exec_readName data size (data 100) hpos₅ hpass.name
  refine ⟨s₆, ?_, ?_⟩
  · rw [hrun, exec_bind_of_some hrun₃, exec_bind_of_some hrun₄, exec_bind_of_some hrun₅, hrun₆]
  · -- a name that is not too long is one the payload reaches
    have hname : data 100 &&& advertFlagName ≠ 0 →
        nameLength size (nameStart (data 100)) = size.toNat - nameStart (data 100) := by
      intro hflag
      refine nameLength_of_le ?_
      by_contra hlt
      have hle := hpass.name hflag
      rw [nameLength_of_lt (not_le.mp hlt) (by omega)] at hle
      omega
    have hite : ∀ a : Advert, (if data 100 &&& advertFlagName ≠ 0 then
        withName data (nameStart (data 100)) (nameLength size (nameStart (data 100))) a else a) =
        if data 100 &&& advertFlagName ≠ 0 then
          withName data (nameStart (data 100)) (size.toNat - nameStart (data 100)) a else a := by
      intro a
      by_cases hflag : data 100 &&& advertFlagName ≠ 0
      · rw [if_pos hflag, if_pos hflag, hname hflag]
      · rw [if_neg hflag, if_neg hflag]
    rw [htarget₆, htarget₅, htarget₄, htarget₃, htarget₂]
    exact hite _

/-- **A rejected payload.** -/
theorem exec_advertRejected (hsize : size.toNat ≠ 100) (hpass : ¬ Passes data size)
    (old : Advert) : ∃ s, exec (advertDeserializeBody data size) ⟨0, old, []⟩ = (none, s) := by
  obtain ⟨-, hstart₁, -, hstart₂, -, -⟩ := starts_le (data 100)
  obtain ⟨s₂, hpos₂, -, hrun⟩ := exec_advertFlags data size hsize old
  -- the first check that rejects ends the run
  by_cases hposition : data 100 &&& advertFlagHasPosition ≠ 0 → ¬ Lacks size.toNat 101 8
  swap
  · push Not at hposition
    rw [hrun, exec_bind_of_none
      (exec_readPosition_lacks data size (data 100) hpos₂ hposition.1 hposition.2)]
    exact ⟨_, rfl⟩
  obtain ⟨s₃, hrun₃, hpos₃, -⟩ :=
    exec_readPosition data size (data 100) hpos₂ (by decide) hposition
  change s₃.position.toNat = extra1Start (data 100) at hpos₃
  rw [hrun, exec_bind_of_some hrun₃]
  by_cases hextra1 : data 100 &&& advertFlagFeat1 ≠ 0 →
      ¬ Lacks size.toNat (extra1Start (data 100)) 2
  swap
  · push Not at hextra1
    rw [exec_bind_of_none
      (exec_readExtra1_lacks data size (data 100) hpos₃ hextra1.1 hextra1.2)]
    exact ⟨_, rfl⟩
  obtain ⟨s₄, hrun₄, hpos₄, -⟩ :=
    exec_readExtra1 data size (data 100) hpos₃ (by omega) hextra1
  change s₄.position.toNat = extra2Start (data 100) at hpos₄
  rw [exec_bind_of_some hrun₄]
  by_cases hextra2 : data 100 &&& advertFlagFeat2 ≠ 0 →
      ¬ Lacks size.toNat (extra2Start (data 100)) 2
  swap
  · push Not at hextra2
    rw [exec_bind_of_none
      (exec_readExtra2_lacks data size (data 100) hpos₄ hextra2.1 hextra2.2)]
    exact ⟨_, rfl⟩
  obtain ⟨s₅, hrun₅, hpos₅, -⟩ :=
    exec_readExtra2 data size (data 100) hpos₄ (by omega) hextra2
  rw [exec_bind_of_some hrun₅]
  by_cases hname : data 100 &&& advertFlagName ≠ 0 → nameLength size (nameStart (data 100)) ≤ 32
  · exact absurd ⟨hposition, hextra1, hextra2, hname⟩ hpass
  · push Not at hname
    exact ⟨_, exec_readName_long data size (data 100) hpos₅ hname.1 hname.2⟩

/-- A payload of 100 bytes has no flags byte. -/
theorem exec_advertFixedPart (hsize : size.toNat = 100) (old : Advert) :
    ∃ s, exec (advertDeserializeBody data size) ⟨0, old, []⟩ = (some (), s) ∧
      s.target = withFixedPart data Advert.zero := by
  obtain ⟨s₁, hrun₁, hpos₁, htarget₁⟩ :=
    exec_readFixedPart data (s := WireState.assign (fun _ => Advert.zero) ⟨0, old, []⟩) rfl
  have happData : ¬ 0 < size - s₁.position := by
    have hsize' : size = 100 := UInt8.toNat_inj.mp hsize
    rw [hpos₁, hsize']
    decide
  refine ⟨s₁, ?_, htarget₁⟩
  rw [advertDeserializeBody, exec_assign_bind, exec_bind_of_some hrun₁, exec_position_bind,
    exec_whenever, if_neg happData]

/-! ## The decoder as a whole -/

variable {data size}

/-- A payload that passes all checks yields its advertisement. -/
theorem yields_advert (hsize : size.toNat ≠ 100) (hpass : Passes data size) :
    Yields (meshcoreAdvertDeserialize (some data) size) (decodedAdvert data size.toNat) :=
  yields_of_exec (exec_advertAccepted data size hsize hpass)

/-- A payload of 100 bytes yields its fixed part. -/
theorem yields_advertFixedPart (hsize : size.toNat = 100) :
    Yields (meshcoreAdvertDeserialize (some data) size) (withFixedPart data Advert.zero) :=
  yields_of_exec (exec_advertFixedPart data size hsize)

/-- Any other payload is rejected. -/
theorem rejects_advert (hsize : size.toNat ≠ 100) (hpass : ¬ Passes data size) :
    Rejects (meshcoreAdvertDeserialize (some data) size) :=
  rejects_of_exec (exec_advertRejected data size hsize hpass)

/-- A payload with a flags byte passes all checks exactly when it has every field that is announced,
and what is left is not too long for a name. -/
theorem passes_iff_of_le (hsize : 101 ≤ size.toNat) :
    Passes data size ↔ nameStart (data 100) ≤ size.toNat ∧
      (data 100 &&& advertFlagName ≠ 0 → size.toNat - nameStart (data 100) ≤ 32) := by
  obtain ⟨hmin₁, -, hmin₂, -, hmin₃, -⟩ := starts_le (data 100)
  constructor
  · rintro ⟨hposition, hextra1, hextra2, hname⟩
    -- each field that is announced is all there, so that the next one starts inside the payload
    have hreach : ∀ {q n : ℕ} {flag : UInt8}, q ≤ size.toNat →
        (data 100 &&& flag ≠ 0 → ¬ Lacks size.toNat q n) →
        q + optional (data 100) flag n ≤ size.toNat := by
      intro q n flag hq hpass
      unfold optional
      split_ifs with hflag
      · have hlacks := hpass hflag
        rw [Lacks] at hlacks
        omega
      · exact hq
    have h₁ : extra1Start (data 100) ≤ size.toNat := hreach hsize hposition
    have h₂ : extra2Start (data 100) ≤ size.toNat := hreach h₁ hextra1
    have h₃ : nameStart (data 100) ≤ size.toNat := hreach h₂ hextra2
    rw [nameLength_of_le h₃] at hname
    exact ⟨h₃, hname⟩
  · rintro ⟨hneed, hname⟩
    have hfits : ∀ {q n : ℕ} {flag : UInt8}, q + optional (data 100) flag n ≤ size.toNat →
        data 100 &&& flag ≠ 0 → ¬ Lacks size.toNat q n := by
      intro q n flag hle hflag
      rw [optional, if_pos hflag] at hle
      rw [Lacks]
      omega
    have h₂ : extra2Start (data 100) ≤ size.toNat := hmin₃.trans hneed
    have h₁ : extra1Start (data 100) ≤ size.toNat := hmin₂.trans h₂
    refine ⟨hfits h₁, hfits h₂, hfits hneed, ?_⟩
    rw [nameLength_of_le hneed]
    exact hname

/-- In a payload that is shorter than its fixed part, only a name is rejected: every other check is
passed because the payload ends before it. -/
theorem passes_iff_of_lt (hsize : size.toNat < 100) :
    Passes data size ↔ data 100 &&& advertFlagName = 0 := by
  obtain ⟨hmin₁, -, hmin₂, -, hmin₃, hmax₃⟩ := starts_le (data 100)
  have hlong : 32 < nameLength size (nameStart (data 100)) := by
    rw [nameLength_of_lt (by omega) (by omega)]
    omega
  constructor
  · intro hpass
    by_contra hflag
    have hname := hpass.name hflag
    omega
  · intro hflag
    have hbefore : ∀ {q n : ℕ}, 101 ≤ q → ¬ Lacks size.toNat q n := by
      intro q n hq
      rw [Lacks]
      omega
    exact ⟨fun _ => hbefore le_rfl, fun _ => hbefore hmin₁, fun _ => hbefore (hmin₁.trans hmin₂),
      fun hname => absurd hflag hname⟩

end MeshcoreC.Mesh
