import MeshcoreC.Mesh.AdvertDecoding
import MeshcoreC.Mesh.AdvertEncoding

/-! # Decoding an encoded advertisement

The flags byte announces exactly the optional fields the encoder writes (`Advert.flags_spec`), so
the decoder finds every field where the encoder has put it, and `advert_roundTrips` follows for all
sixteen layouts at once. -/

namespace MeshcoreC.Mesh

open Buffers EarlyReturn Wire

/-! ## The flags byte -/

/-- The four flags and the role, read back from a flags byte. -/
theorem flagsByte_spec : ∀ (role : Fin 16) (positionValid extra1Valid extra2Valid nameValid : Bool),
    let flags := flagsByte (UInt8.ofNat role) positionValid extra1Valid extra2Valid nameValid
    (flags &&& advertFlagHasPosition ≠ 0 ↔ positionValid) ∧
    (flags &&& advertFlagFeat1 ≠ 0 ↔ extra1Valid) ∧
    (flags &&& advertFlagFeat2 ≠ 0 ↔ extra2Valid) ∧
    (flags &&& advertFlagName ≠ 0 ↔ nameValid) ∧ flags &&& 0x0F = UInt8.ofNat role := by
  decide

/-- The flags byte announces what the encoder writes, and has the low four bits of the role. -/
theorem Advert.flags_spec (a : Advert) :
    (a.flags &&& advertFlagHasPosition ≠ 0 ↔ a.positionValid) ∧
    (a.flags &&& advertFlagFeat1 ≠ 0 ↔ a.extra1Valid) ∧
    (a.flags &&& advertFlagFeat2 ≠ 0 ↔ a.extra2Valid) ∧
    (a.flags &&& advertFlagName ≠ 0 ↔ a.nameValid) ∧
    a.flags &&& 0x0F = a.role.toUInt8 &&& 0x0F := by
  have hlt : (a.role.toUInt8 &&& 0x0F).toNat < 16 := by
    rw [UInt8.toNat_and]
    exact Nat.lt_of_le_of_lt Nat.and_le_right (by decide)
  have hrole : UInt8.ofNat (a.role.toUInt8 &&& 0x0F).toNat = a.role.toUInt8 &&& 0x0F :=
    UInt8.ofNat_toNat
  have hspec := flagsByte_spec ⟨_, hlt⟩ a.positionValid a.extra1Valid a.extra2Valid a.nameValid
  -- `flags` is that flags byte by definition, with its role spelled as a number below 16
  simp only [hrole] at hspec
  exact hspec

/-- A role of at most four bits survives. -/
theorem role_and_mask {role : UInt32} (h : role.toNat ≤ 15) :
    (role.toUInt8 &&& 0x0F).toUInt32 = role := by
  apply UInt32.toNat_inj.mp
  rw [UInt8.toNat_toUInt32, UInt8.toNat_and, UInt32.toNat_toUInt8]
  show role.toNat % 2 ^ 8 &&& 2 ^ 4 - 1 = role.toNat
  rw [Nat.and_two_pow_sub_one_eq_mod]
  omega

/-! ## Numbers -/

/-- A 32-bit number is read from the bytes it was written as. -/
theorem readUInt32_of_slice {data : Memory} {pos : ℕ} {x : UInt32}
    (h : slice data pos 4 = leBytes 4 x.toNat) : readUInt32 data pos = x := by
  rw [readUInt32, h, ofLeBytes_leBytes_of_lt x.toNat_lt, UInt32.ofNat_toNat]

/-- The same for a 16-bit number. -/
theorem readUInt16_of_slice {data : Memory} {pos : ℕ} {x : UInt16}
    (h : slice data pos 2 = leBytes 2 x.toNat) : readUInt16 data pos = x := by
  rw [readUInt16, h, ofLeBytes_leBytes_of_lt x.toNat_lt, UInt16.ofNat_toNat]

/-! ## The decoded fields -/

/-- What decoding the bytes of an advertisement gives: the fields that are valid, the name up to its
terminator, and zeros. -/
def Advert.normalized (a : Advert) : Advert :=
  { a with
    name := if a.nameValid then
        blit (Vector.replicate nameCapacity 0) (slice (view a.name) 0 a.nameLen)
      else Vector.replicate nameCapacity 0
    positionLat := if a.positionValid then a.positionLat else 0
    positionLon := if a.positionValid then a.positionLon else 0
    extra1 := if a.extra1Valid then a.extra1 else 0
    extra2 := if a.extra2Valid then a.extra2 else 0 }

/-- The bytes of an advertisement in memory, part by part. -/
theorem Advert.slice_eq_wire_iff (a : Advert) {data : Memory} {n : ℕ} (hn : n = a.wire.length) :
    slice data 0 n = a.wire ↔ slice data 0 101 = a.fixedPart ∧
      slice data 101 a.positionPart.length = a.positionPart ∧
      slice data (101 + a.positionPart.length) (extraPart a.extra1Valid a.extra1).length
        = extraPart a.extra1Valid a.extra1 ∧
      slice data (101 + a.positionPart.length + (extraPart a.extra1Valid a.extra1).length)
        (extraPart a.extra2Valid a.extra2).length = extraPart a.extra2Valid a.extra2 ∧
      slice data (101 + a.positionPart.length + (extraPart a.extra1Valid a.extra1).length +
        (extraPart a.extra2Valid a.extra2).length) a.namePart.length = a.namePart := by
  rw [hn, wire, slice_eq_append_iff List.length_append, slice_eq_append_iff List.length_append,
    slice_eq_append_iff List.length_append, slice_eq_append_iff List.length_append,
    a.length_fixedPart, Nat.zero_add]

/-- The fixed part in memory, field by field. -/
theorem Advert.slice_eq_fixedPart_iff (a : Advert) {data : Memory} :
    slice data 0 101 = a.fixedPart ↔ slice data 0 32 = slice (view a.pubKey) 0 32 ∧
      slice data 32 4 = leBytes 4 a.timestamp.toNat ∧
      slice data 36 64 = slice (view a.signature) 0 64 ∧ data 100 = a.flags := by
  have hn : 101 = a.fixedPart.length := a.length_fixedPart.symm
  rw [hn, fixedPart, slice_eq_append_iff List.length_append,
    slice_eq_append_iff List.length_append, slice_eq_append_iff List.length_append]
  simp only [length_slice, length_leBytes, List.length_singleton, slice_one, List.cons.injEq,
    and_true, pubKeySize, signatureSize, Nat.zero_add, Nat.reduceAdd]

/-- A flag, as the decoder sees it. -/
theorem decide_eq_valid {c : Prop} [Decidable c] {valid : Bool} (hc : c ↔ valid) :
    decide c = valid := by
  cases valid with
  | true => exact decide_eq_true (hc.mpr rfl)
  | false => exact decide_eq_false (mt hc.mp Bool.false_ne_true)

/-- A field behind its flag: where the flag is set, it has the value that was encoded. -/
theorem ite_decoded {γ : Type} {c : Prop} [Decidable c] {valid : Bool} (hc : c ↔ valid)
    {decoded value : γ} (default : γ) (hdecoded : valid → decoded = value) :
    (if c then decoded else default) = if valid then value else default :=
  ite_congr (propext hc) hdecoded fun _ => rfl

section Fields

variable {a : Advert} {data : Memory} {pos : ℕ}

/-- The bytes of the position, if there are any, read back as its coordinates. -/
theorem readUInt32_of_positionPart (h : slice data pos a.positionPart.length = a.positionPart)
    (hvalid : a.positionValid) :
    Int32.ofUInt32 (readUInt32 data pos) = a.positionLat ∧
      Int32.ofUInt32 (readUInt32 data (pos + 4)) = a.positionLon := by
  have hpart : a.positionPart = leBytes 4 a.positionLat.toUInt32.toNat ++
      leBytes 4 a.positionLon.toUInt32.toNat := if_pos hvalid
  rw [hpart, slice_eq_append_iff List.length_append, length_leBytes, length_leBytes] at h
  rw [readUInt32_of_slice h.1, readUInt32_of_slice h.2]
  exact ⟨rfl, rfl⟩

/-- The bytes of an extra field, if there are any, read back as its value. -/
theorem readUInt16_of_extraPart {valid : Bool} {extra : UInt16}
    (h : slice data pos (extraPart valid extra).length = extraPart valid extra) (hvalid : valid) :
    readUInt16 data pos = extra := by
  have hpart : extraPart valid extra = leBytes 2 extra.toNat := if_pos hvalid
  rw [hpart, length_leBytes] at h
  exact readUInt16_of_slice h

/-- The characters of the name, if there is one, are put into the array with a terminator. -/
theorem blit_of_namePart (h : slice data pos a.namePart.length = a.namePart)
    (hvalid : a.nameValid) :
    (blit (Vector.replicate nameCapacity 0) (slice data pos a.namePart.length)).setIfInBounds
        a.namePart.length 0
      = blit (Vector.replicate nameCapacity 0) (slice (view a.name) 0 a.nameLen) := by
  have hpart : a.namePart = slice (view a.name) 0 a.nameLen := if_pos hvalid
  rw [h, blit_setIfInBounds, hpart]

end Fields

/-- Where the fields of an encoded advertisement start. -/
theorem Advert.starts_eq (a : Advert) :
    extra1Start a.flags = 101 + a.positionPart.length ∧
      extra2Start a.flags
        = 101 + a.positionPart.length + (extraPart a.extra1Valid a.extra1).length ∧
      nameStart a.flags = 101 + a.positionPart.length +
        (extraPart a.extra1Valid a.extra1).length + (extraPart a.extra2Valid a.extra2).length := by
  obtain ⟨hposition, hextra1, hextra2, -⟩ := a.flags_spec
  have h₁ : optional a.flags advertFlagHasPosition 8 = a.positionPart.length := by
    rw [optional, length_positionPart]
    exact if_congr hposition rfl rfl
  have h₂ : optional a.flags advertFlagFeat1 2 = (extraPart a.extra1Valid a.extra1).length := by
    rw [optional, length_extraPart]
    exact if_congr hextra1 rfl rfl
  have h₃ : optional a.flags advertFlagFeat2 2 = (extraPart a.extra2Valid a.extra2).length := by
    rw [optional, length_extraPart]
    exact if_congr hextra2 rfl rfl
  refine ⟨?_, ?_, ?_⟩
  · rw [extra1Start, h₁]
  · rw [extra2Start, extra1Start, h₁, h₂]
  · rw [nameStart, extra2Start, extra1Start, h₁, h₂, h₃]

/-- **The decoder finds every field where the encoder has put it.** -/
theorem Advert.decodedAdvert_eq (a : Advert) (hrole : a.role.toNat ≤ 15) {data : Memory} {n : ℕ}
    (h : slice data 0 n = a.wire) : data 100 = a.flags ∧ decodedAdvert data n = a.normalized := by
  have hn : n = a.wire.length := by rw [← h, length_slice]
  obtain ⟨hfixed, hposition, hextra1, hextra2, hname⟩ := (a.slice_eq_wire_iff hn).mp h
  obtain ⟨hkey, htimestamp, hsignature, hflags⟩ := a.slice_eq_fixedPart_iff.mp hfixed
  obtain ⟨hstart₁, hstart₂, hstart₃⟩ := a.starts_eq
  -- the name has no length of its own: it is what the other parts leave
  have hlen : n - nameStart a.flags = a.namePart.length := by
    rw [hn, hstart₃, wire]
    simp only [List.length_append, length_fixedPart]
    omega
  rw [← hstart₁] at hextra1
  rw [← hstart₂] at hextra2
  rw [← hstart₃] at hname
  have hkeyBlit : blit Advert.zero.pubKey (slice data 0 pubKeySize) = a.pubKey := by
    rw [show slice data 0 pubKeySize = slice (view a.pubKey) 0 pubKeySize from hkey]
    exact blit_slice_view _ _
  have hsignatureBlit :
      blit Advert.zero.signature (slice data 36 signatureSize) = a.signature := by
    rw [show slice data 36 signatureSize = slice (view a.signature) 0 signatureSize
      from hsignature]
    exact blit_slice_view _ _
  refine ⟨hflags, ?_⟩
  obtain ⟨hcPosition, hcExtra1, hcExtra2, hcName, hcRole⟩ := a.flags_spec
  rw [decodedAdvert_fields, hflags, hlen, hcRole, role_and_mask hrole, decide_eq_valid hcPosition,
    decide_eq_valid hcExtra1, decide_eq_valid hcExtra2, decide_eq_valid hcName,
    ite_decoded hcPosition 0 fun hvalid => (readUInt32_of_positionPart hposition hvalid).1,
    ite_decoded hcPosition 0 fun hvalid => (readUInt32_of_positionPart hposition hvalid).2,
    ite_decoded hcExtra1 0 (readUInt16_of_extraPart hextra1),
    ite_decoded hcExtra2 0 (readUInt16_of_extraPart hextra2),
    ite_decoded hcName (Vector.replicate nameCapacity 0) (blit_of_namePart hname)]
  simp only [withFixedPart, hkeyBlit, hsignatureBlit, readUInt32_of_slice htimestamp, normalized]

/-! ## The round trip -/

/-- The decoded advertisement has the fields of the original one: what is always there, the fields
whose flag is set (the name with its `n` characters), and zero in the fields whose flag is clear. -/
structure SameAdvert (a : Advert) (n : ℕ) (decoded : Advert) : Prop where
  pubKey : decoded.pubKey = a.pubKey
  timestamp : decoded.timestamp = a.timestamp
  signature : decoded.signature = a.signature
  role : decoded.role = a.role
  positionValid : decoded.positionValid = a.positionValid
  extra1Valid : decoded.extra1Valid = a.extra1Valid
  extra2Valid : decoded.extra2Valid = a.extra2Valid
  nameValid : decoded.nameValid = a.nameValid
  positionLat : decoded.positionLat = if a.positionValid then a.positionLat else 0
  positionLon : decoded.positionLon = if a.positionValid then a.positionLon else 0
  extra1 : decoded.extra1 = if a.extra1Valid then a.extra1 else 0
  extra2 : decoded.extra2 = if a.extra2Valid then a.extra2 else 0
  name : ∀ i, view decoded.name i = if a.nameValid ∧ i < n then view a.name i else 0

/-- The normalized advertisement has the fields of the original one. -/
theorem Advert.sameAdvert_normalized (a : Advert) : SameAdvert a a.nameLen a.normalized := by
  refine ⟨rfl, rfl, rfl, rfl, rfl, rfl, rfl, rfl, rfl, rfl, rfl, rfl, ?_⟩
  intro i
  show view (if a.nameValid then _ else _) i = _
  by_cases hvalid : a.nameValid = true
  · have hle : a.nameLen ≤ nameCapacity := a.nameLen_le.trans (by decide)
    rw [if_pos hvalid, view_blit_slice _ hle, Nat.zero_add]
    simp only [hvalid, true_and]
  · rw [if_neg hvalid, if_neg fun h => hvalid h.1]
    exact view_replicate_zero nameCapacity i

/-- The bytes of an advertisement are accepted, and decoded to its normalized form. -/
theorem Advert.deserialize_of_wire (a : Advert) (hrole : a.role.toNat ≤ 15) {data : Memory}
    {size : UInt8} (h : slice data 0 size.toNat = a.wire) (old : Advert) :
    (meshcoreAdvertDeserialize (some data) size (some old)).code = 0 ∧
      (meshcoreAdvertDeserialize (some data) size (some old)).target = some a.normalized := by
  have hsize : size.toNat = a.wire.length := by rw [← h, length_slice]
  obtain ⟨hflags, hdecoded⟩ := a.decodedAdvert_eq hrole h
  have hlength : a.wire.length = nameStart a.flags + a.namePart.length := by
    rw [a.starts_eq.2.2, wire]
    simp only [List.length_append, length_fixedPart]
    omega
  have hpart : a.namePart.length ≤ 32 := by
    have hname := a.nameLen_le
    rw [length_namePart]
    split_ifs <;> omega
  have hmin : 101 ≤ nameStart a.flags := by
    rw [a.starts_eq.2.2]
    omega
  rw [← hflags] at hlength hmin
  have hpass : Passes data size :=
    (passes_iff_of_le (by omega)).mpr ⟨by omega, fun _ => by omega⟩
  rw [← hdecoded]
  exact yields_advert (by omega) hpass old

/-- **Decoding undoes encoding.** For every role of four bits, every combination of optional fields
and every name of `n ≤ 32` characters, encoding succeeds with the size that the fields add up to,
and decoding these bytes succeeds and gives the same advertisement. -/
theorem advert_roundTrips {a : Advert} {n : ℕ} (hrole : a.role.toNat ≤ 15) (hn : n ≤ 32)
    (hzero : view a.name n = 0) (hne : ∀ i < n, view a.name i ≠ 0) (mem : Memory) :
    ∃ (out : Memory) (size : UInt8), (meshcoreAdvertSerialize a (some mem)).code = 0 ∧
      (meshcoreAdvertSerialize a (some mem)).target = some ⟨out, some size⟩ ∧
      size.toNat = 101 + (if a.positionValid then 8 else 0) + (if a.extra1Valid then 2 else 0) +
        (if a.extra2Valid then 2 else 0) + (if a.nameValid then n else 0) ∧
      size.toNat ≤ 145 ∧
      ∀ (data : Memory) (old : Advert), slice data 0 size.toNat = slice out 0 size.toNat →
        (meshcoreAdvertDeserialize (some data) size (some old)).code = 0 ∧
        ∃ decoded, (meshcoreAdvertDeserialize (some data) size (some old)).target = some decoded ∧
          SameAdvert a n decoded := by
  have hnameLen : a.nameLen = n := strnlen_eq hn hzero hne
  obtain ⟨out, size, hcode, htarget, hsize, hfront⟩ :=
    (writes_advert a).front (a.length_wire_le.trans (by decide)) mem
  refine ⟨out, size, hcode, htarget, ?_, ?_, ?_⟩
  · rw [hsize, a.length_wire, hnameLen]
  · rw [hsize]
    exact a.length_wire_le
  · intro data old hdata
    obtain ⟨hcode', hdecoded⟩ := a.deserialize_of_wire hrole (hdata.trans hfront) old
    refine ⟨hcode', a.normalized, hdecoded, ?_⟩
    rw [← hnameLen]
    exact a.sameAdvert_normalized

/-- A repeater with a name of two characters and a second extra field. -/
def repeaterAdvert : Advert :=
  { Advert.zero with
    role := 2
    nameValid := true
    name := blit (Vector.replicate nameCapacity 0) [82, 49]
    extra2Valid := true
    extra2 := 0x1234 }

/-- The repeater takes 105 bytes, and comes back from them. -/
theorem advert_roundTrips_repeater :
    ∃ (out : Memory) (size : UInt8),
      (meshcoreAdvertSerialize repeaterAdvert (some fun _ => 0)).code = 0 ∧
      (meshcoreAdvertSerialize repeaterAdvert (some fun _ => 0)).target = some ⟨out, some size⟩ ∧
      size.toNat = 105 ∧
      ∃ decoded, (meshcoreAdvertDeserialize (some out) size (some Advert.zero)).target
        = some decoded ∧ SameAdvert repeaterAdvert 2 decoded := by
  have hrole : repeaterAdvert.role.toNat ≤ 15 := by decide
  have hzero : view repeaterAdvert.name 2 = 0 := by decide
  have hne : ∀ i < 2, view repeaterAdvert.name i ≠ 0 := by decide
  obtain ⟨out, size, hcode, htarget, hsize, -, hdecode⟩ :=
    advert_roundTrips hrole (by decide) hzero hne fun _ => 0
  exact ⟨out, size, hcode, htarget, hsize, (hdecode out Advert.zero rfl).2⟩

end MeshcoreC.Mesh
