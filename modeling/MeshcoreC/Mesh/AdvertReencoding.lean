import MeshcoreC.Mesh.AdvertEncoding
import MeshcoreC.Mesh.AdvertGrammar

/-! # Encoding a decoded advertisement

An advertisement carries a signature over its bytes, so it matters when decoding and encoding again
gives the same bytes. Up to the name they always do (`wire_decodedAdvert`); the name is cut at its
first zero byte, bytes behind the last field are lost if there is no name, and a flags byte is added
if there was none. `advert_reencodes_iff` says that nothing else can go wrong. -/

namespace MeshcoreC.Mesh

open Buffers Wire

/-! ## The decoded fields -/

/-- The flags byte is put together again from the role and the four flags. -/
theorem flagsByte_and (flags : UInt8) :
    flagsByte ((flags &&& 0x0F).toUInt32.toUInt8 &&& 0x0F)
      (decide (flags &&& advertFlagHasPosition ≠ 0)) (decide (flags &&& advertFlagFeat1 ≠ 0))
      (decide (flags &&& advertFlagFeat2 ≠ 0)) (decide (flags &&& advertFlagName ≠ 0)) = flags := by
  have hall : ∀ i : Fin 256, flagsByte ((UInt8.ofNat i &&& 0x0F).toUInt32.toUInt8 &&& 0x0F)
      (decide (UInt8.ofNat i &&& advertFlagHasPosition ≠ 0))
      (decide (UInt8.ofNat i &&& advertFlagFeat1 ≠ 0))
      (decide (UInt8.ofNat i &&& advertFlagFeat2 ≠ 0))
      (decide (UInt8.ofNat i &&& advertFlagName ≠ 0)) = UInt8.ofNat i := by
    decide +kernel
  have hflags := hall ⟨flags.toNat, flags.toNat_lt⟩
  rwa [UInt8.ofNat_toNat] at hflags

/-! ## The bytes of the decoded fields -/

/-- A 32-bit number that was read is written as the bytes it was read from. -/
theorem leBytes_readUInt32 (data : Memory) (pos : ℕ) :
    leBytes 4 (readUInt32 data pos).toNat = slice data pos 4 := by
  have hlt := ofLeBytes_lt (slice data pos 4)
  have hbytes := leBytes_ofLeBytes (slice data pos 4)
  rw [length_slice] at hlt hbytes
  have hnum : (readUInt32 data pos).toNat = ofLeBytes (slice data pos 4) := by
    rw [readUInt32, UInt32.toNat_ofNat']
    exact Nat.mod_eq_of_lt hlt
  rw [hnum, hbytes]

/-- The same for a 16-bit number. -/
theorem leBytes_readUInt16 (data : Memory) (pos : ℕ) :
    leBytes 2 (readUInt16 data pos).toNat = slice data pos 2 := by
  have hlt := ofLeBytes_lt (slice data pos 2)
  have hbytes := leBytes_ofLeBytes (slice data pos 2)
  rw [length_slice] at hlt hbytes
  have hnum : (readUInt16 data pos).toNat = ofLeBytes (slice data pos 2) := by
    rw [readUInt16, UInt16.toNat_ofNat']
    exact Nat.mod_eq_of_lt hlt
  rw [hnum, hbytes]

variable (data : Memory) (n : ℕ)

/-- The fixed part is as it was received. -/
theorem fixedPart_decodedAdvert : (decodedAdvert data n).fixedPart = slice data 0 101 := by
  have hkey := slice_view_blit (Vector.replicate pubKeySize 0) (length_slice data 0 pubKeySize).le
  have hsignature :=
    slice_view_blit (Vector.replicate signatureSize 0) (length_slice data 36 signatureSize).le
  rw [length_slice] at hkey hsignature
  have hflags : (decodedAdvert data n).flags = data 100 := by
    rw [decodedAdvert_fields]
    exact flagsByte_and (data 100)
  have hsplit : slice data 0 101 = slice data 0 pubKeySize ++ (slice data 32 4 ++
      (slice data 36 signatureSize ++ [data 100])) := rfl
  rw [Advert.fixedPart, hflags, hsplit, ← hkey, ← hsignature, ← leBytes_readUInt32]
  rw [decodedAdvert_fields]
  rfl

/-- An optional field that is there is as it was received. -/
theorem ite_eq_slice_optional {flags flag : UInt8} {pos k : ℕ} {bytes : List UInt8}
    (h : flags &&& flag ≠ 0 → bytes = slice data pos k) :
    (if decide (flags &&& flag ≠ 0) then bytes else [])
      = slice data pos (optional flags flag k) := by
  unfold optional
  by_cases hflag : flags &&& flag ≠ 0
  · rw [if_pos hflag, if_pos (decide_eq_true hflag), h hflag]
  · rw [if_neg hflag, if_neg (by simpa using hflag), slice_zero]

/-- The position is as it was received. -/
theorem positionPart_decodedAdvert : (decodedAdvert data n).positionPart
    = slice data 101 (optional (data 100) advertFlagHasPosition 8) := by
  rw [Advert.positionPart, decodedAdvert_fields]
  refine ite_eq_slice_optional data ?_
  intro hflag
  rw [if_pos hflag, if_pos hflag]
  show leBytes 4 (readUInt32 data 101).toNat ++ leBytes 4 (readUInt32 data (101 + 4)).toNat = _
  rw [leBytes_readUInt32, leBytes_readUInt32, ← slice_add]

/-- The extra fields are as they were received. -/
theorem extraPart_decodedAdvert {flags flag : UInt8} {pos : ℕ} :
    extraPart (decide (flags &&& flag ≠ 0))
      (if flags &&& flag ≠ 0 then readUInt16 data pos else 0)
      = slice data pos (optional flags flag 2) := by
  refine ite_eq_slice_optional data ?_
  intro hflag
  rw [if_pos hflag, leBytes_readUInt16]

/-- **Up to the name, the bytes are those that were received.** -/
theorem wire_decodedAdvert : (decodedAdvert data n).wire
    = slice data 0 (nameStart (data 100)) ++ (decodedAdvert data n).namePart := by
  have hextra1 : extraPart (decodedAdvert data n).extra1Valid (decodedAdvert data n).extra1
      = slice data (extra1Start (data 100)) (optional (data 100) advertFlagFeat1 2) := by
    rw [decodedAdvert_fields]
    exact extraPart_decodedAdvert data
  have hextra2 : extraPart (decodedAdvert data n).extra2Valid (decodedAdvert data n).extra2
      = slice data (extra2Start (data 100)) (optional (data 100) advertFlagFeat2 2) := by
    rw [decodedAdvert_fields]
    exact extraPart_decodedAdvert data
  rw [Advert.wire, fixedPart_decodedAdvert, positionPart_decodedAdvert, hextra1, hextra2, nameStart,
    slice_add, extra2Start, slice_add, extra1Start, slice_add]
  simp only [Nat.zero_add, List.append_assoc]

/-! ## The name -/

/-- The decoded name is written as it was received if and only if it has no zero byte. -/
theorem namePart_decodedAdvert_iff (hname : data 100 &&& advertFlagName ≠ 0)
    (hlen : n - nameStart (data 100) ≤ 32) :
    (decodedAdvert data n).namePart
        = slice data (nameStart (data 100)) (n - nameStart (data 100)) ↔
      ∀ i < n - nameStart (data 100), data (nameStart (data 100) + i) ≠ 0 := by
  generalize hk : n - nameStart (data 100) = k at hlen ⊢
  have harray : (decodedAdvert data n).name
      = blit (Vector.replicate nameCapacity 0) (slice data (nameStart (data 100)) k) := by
    have hterminated := blit_setIfInBounds (n := nameCapacity) (slice data (nameStart (data 100)) k)
    rw [length_slice] at hterminated
    rw [decodedAdvert_fields, hk]
    exact (if_pos hname).trans hterminated
  have hview : ∀ i, view (decodedAdvert data n).name i
      = if i < k then data (nameStart (data 100) + i) else 0 := by
    intro i
    rw [harray, view_blit_slice data (hlen.trans (by decide))]
  have hvalid : (decodedAdvert data n).nameValid = true := by
    rw [decodedAdvert_fields]
    exact decide_eq_true hname
  have hend : view (decodedAdvert data n).name k = 0 := by
    rw [hview, if_neg (lt_irrefl k)]
  -- the bytes are right as far as they go, so only the length decides
  have hlength : (decodedAdvert data n).namePart = slice data (nameStart (data 100)) k ↔
      (decodedAdvert data n).nameLen = k := by
    rw [Advert.namePart, if_pos hvalid]
    constructor
    · intro h
      have hlen := congrArg List.length h
      rwa [length_slice, length_slice] at hlen
    · intro h
      rw [h]
      apply List.ext_getElem
      · rw [length_slice, length_slice]
      · intro i hi hi'
        rw [length_slice] at hi
        rw [getElem_slice, getElem_slice, Nat.zero_add, hview, if_pos hi]
  rw [hlength, Advert.nameLen, strnlen_eq_iff (n := maxNameSize) hlen hend]
  refine forall₂_congr ?_
  intro i hi
  rw [hview, if_pos hi]

/-- The payloads that come back: those with a flags byte, and behind the fields it announces either
a name without zero bytes or nothing. -/
def Canonical (data : Memory) (size : ℕ) : Prop :=
  101 ≤ size ∧
    (data 100 &&& advertFlagName ≠ 0 ∧ (∀ i, nameStart (data 100) ≤ i → i < size → data i ≠ 0) ∨
      data 100 &&& advertFlagName = 0 ∧ size = nameStart (data 100))

variable {data : Memory} {size : UInt8}

/-- A payload with a flags byte comes back if and only if it is canonical. -/
theorem wire_decodedAdvert_iff (hsize : 101 ≤ size.toNat) (hpass : Passes data size) :
    (decodedAdvert data size.toNat).wire = slice data 0 size.toNat ↔
      Canonical data size.toNat := by
  obtain ⟨hneed, hlen⟩ := (passes_iff_of_le hsize).mp hpass
  have hsplit : slice data 0 size.toNat = slice data 0 (nameStart (data 100)) ++
      slice data (nameStart (data 100)) (size.toNat - nameStart (data 100)) := by
    have hadd := slice_add data 0 (nameStart (data 100)) (size.toNat - nameStart (data 100))
    rwa [Nat.zero_add, Nat.add_sub_cancel' hneed] at hadd
  rw [wire_decodedAdvert, hsplit, List.append_cancel_left_eq, Canonical, and_iff_right hsize]
  by_cases hname : data 100 &&& advertFlagName = 0
  · have hvalid : (decodedAdvert data size.toNat).nameValid = false := by
      rw [decodedAdvert_fields]
      exact decide_eq_false (not_not.mpr hname)
    have hpart : (decodedAdvert data size.toNat).namePart = [] := by
      rw [Advert.namePart, hvalid]
      rfl
    rw [hpart, or_iff_right fun h => h.1 hname, and_iff_right hname, eq_comm,
      ← List.length_eq_zero_iff, length_slice]
    omega
  · rw [namePart_decodedAdvert_iff data _ hname (hlen hname), or_iff_left fun h => hname h.1,
      and_iff_right hname]
    constructor
    · intro h i hstart hi
      have hne := h (i - nameStart (data 100)) (by omega)
      rwa [Nat.add_sub_cancel' hstart] at hne
    · intro h i hi
      exact h _ (Nat.le_add_right _ i) (by omega)

/-! ## Decoding and encoding again -/

/-- What the encoder leaves is the payload exactly when the bytes of the advertisement are. -/
theorem reencoded_iff (data : Memory) (size : UInt8) (a : Advert) (mem : Memory) :
    ∃ (out : Memory) (size' : UInt8), (meshcoreAdvertSerialize a (some mem)).code = 0 ∧
      (meshcoreAdvertSerialize a (some mem)).target = some ⟨out, some size'⟩ ∧
      ((size' = size ∧ slice out 0 size'.toNat = slice data 0 size.toNat) ↔
        a.wire = slice data 0 size.toNat) := by
  obtain ⟨out, size', hcode, htarget, hsize, hfront⟩ :=
    (writes_advert a).front (a.length_wire_le.trans (by decide)) mem
  refine ⟨out, size', hcode, htarget, ?_⟩
  rw [hfront, and_iff_right_iff_imp]
  intro h
  rw [← UInt8.toNat_inj, hsize, h, length_slice]

/-- **Encoding a decoded advertisement gives back the bytes it was decoded from if and only if they
are canonical**, and succeeds in any case. -/
theorem advert_reencodes_iff {old : Advert} (hsize : 100 ≤ size.toNat)
    (haccepted : (meshcoreAdvertDeserialize (some data) size (some old)).code = 0) :
    ∃ decoded, (meshcoreAdvertDeserialize (some data) size (some old)).target = some decoded ∧
      ∀ mem : Memory, ∃ (out : Memory) (size' : UInt8),
        (meshcoreAdvertSerialize decoded (some mem)).code = 0 ∧
        (meshcoreAdvertSerialize decoded (some mem)).target = some ⟨out, some size'⟩ ∧
        ((size' = size ∧ slice out 0 size'.toNat = slice data 0 size.toNat) ↔
          Canonical data size.toNat) := by
  by_cases h100 : size.toNat = 100
  · -- the flags byte that is added makes the output longer
    refine ⟨withFixedPart data Advert.zero, (yields_advertFixedPart h100 old).2, ?_⟩
    intro mem
    have hlength : (withFixedPart data Advert.zero).wire.length = 101 := by
      rw [Advert.length_wire]
      rfl
    have hne : (withFixedPart data Advert.zero).wire ≠ slice data 0 size.toNat := by
      intro h
      have hlen := congrArg List.length h
      rw [hlength, length_slice] at hlen
      omega
    have hnot : ¬ Canonical data size.toNat := by
      rintro ⟨h101, -⟩
      omega
    obtain ⟨out, size', hcode, htarget, hiff⟩ :=
      reencoded_iff data size (withFixedPart data Advert.zero) mem
    exact ⟨out, size', hcode, htarget, hiff.trans (iff_of_false hne hnot)⟩
  · have hpass : Passes data size := ((advert_code_eq_zero_iff old).mp haccepted).resolve_left h100
    refine ⟨decodedAdvert data size.toNat, (yields_advert h100 hpass old).2, ?_⟩
    intro mem
    obtain ⟨out, size', hcode, htarget, hiff⟩ :=
      reencoded_iff data size (decodedAdvert data size.toNat) mem
    exact ⟨out, size', hcode, htarget, hiff.trans (wire_decodedAdvert_iff (by omega) hpass)⟩

/-- A payload of 102 bytes whose name is the zero byte: it is accepted, and comes back as 101
bytes. -/
theorem advert_reencodes_iff_zeroName :
    ∃ decoded, (meshcoreAdvertDeserialize (some (store (fun _ => 0) 100 [0x80])) 102
        (some Advert.zero)).target = some decoded ∧
      ∃ (out : Memory) (size' : UInt8),
        (meshcoreAdvertSerialize decoded (some fun _ => 0)).code = 0 ∧
        (meshcoreAdvertSerialize decoded (some fun _ => 0)).target = some ⟨out, some size'⟩ ∧
        ¬ (size' = 102 ∧ slice out 0 size'.toNat
          = slice (store (fun _ => (0 : UInt8)) 100 [0x80]) 0 102) := by
  have hpass : Passes (store (fun _ => 0) 100 [0x80]) 102 :=
    (passes_iff_of_le (by decide)).mpr ⟨by decide, fun _ => by decide⟩
  obtain ⟨decoded, hdecoded, hencode⟩ :=
    advert_reencodes_iff (by decide) ((advert_code_eq_zero_iff Advert.zero).mpr (.inr hpass))
  obtain ⟨out, size', hcode, htarget, hiff⟩ := hencode fun _ => 0
  refine ⟨decoded, hdecoded, out, size', hcode, htarget, ?_⟩
  intro hback
  obtain ⟨-, ⟨-, hname⟩ | ⟨hname, -⟩⟩ := hiff.mp hback
  · exact hname 101 (by decide) (by decide) rfl
  · exact absurd hname (by decide)

end MeshcoreC.Mesh
