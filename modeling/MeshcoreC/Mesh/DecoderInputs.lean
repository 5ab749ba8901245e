import MeshcoreC.Mesh.Ack
import MeshcoreC.Mesh.AdvertDecoding
import MeshcoreC.Mesh.GroupText
import MeshcoreC.Mesh.PacketGrammar
import MeshcoreC.Mesh.Request

/-! # What the decoders depend on

A decoder is given a pointer and a size. Two of the five never use the memory behind the payload:
the packet decoder checks what it copies, and a request without a header is rejected afterwards.
The others copy their fixed fields first, and accept a payload that is shorter than these with
whatever is behind it. -/

namespace MeshcoreC.Mesh

open Buffers Wire

/-! ## Packets and requests -/

/-- Packets of every size are decoded from their own bytes. -/
theorem determined_packet (size : UInt8) : Determined meshcoreDeserialize size := by
  refine determined_of_yields (fun data => WellFormed data size.toNat)
    (fun _ hwf => meshcoreDeserialize_of_wellFormed hwf)
    (fun _ hwf => meshcoreDeserialize_of_not_wellFormed hwf) ?_
  intro data data' hslice hwf
  obtain ⟨p, hp⟩ := hwf.exists_packet
  -- both are the wire form of one packet
  obtain ⟨-, hmessage⟩ := p.wellFormed_of_slice_eq_wire hp
  obtain ⟨hwf', hmessage'⟩ := p.wellFormed_of_slice_eq_wire (hslice.symm.trans hp)
  exact ⟨hwf', hmessage.trans hmessage'.symm⟩

/-- Requests of every size are decoded from their own bytes. -/
theorem determined_request (size : UInt8) : Determined meshcoreRequestDeserialize size := by
  refine determined_of_yields (fun _ => 4 ≤ size.toNat ∧ size.toNat ≤ 184)
    (fun data h => yields_request data h) (fun data h => rejects_requestPayload data h) ?_
  intro data data' hslice hsize
  have hciphertext : 4 + (size - 4).toNat ≤ size.toNat := by
    have hlt := size.toNat_lt
    simp only [UInt8.toNat_sub, UInt8.reduceToNat]
    omega
  refine ⟨hsize, ?_⟩
  rw [decodedRequest, decodedRequest, eq_of_slice_eq hslice (show 0 < size.toNat by omega),
    eq_of_slice_eq hslice (show 1 < size.toNat by omega),
    slice_eq_of_slice_eq hslice (show 2 + cipherMacSize ≤ size.toNat from hsize.1),
    slice_eq_of_slice_eq hslice hciphertext]

/-! ## Acknowledgements and group texts -/

/-- Acknowledgements are decoded from their own bytes exactly from four bytes on. -/
theorem determined_ack_iff (size : UInt8) :
    Determined meshcoreAckDeserialize size ↔ 4 ≤ size.toNat := by
  constructor
  · intro hdetermined
    by_contra hsize
    -- the last byte of the checksum is behind the payload
    have hne : decodedAck (fun _ => 0) ≠ decodedAck (Function.update (fun _ => 0) 3 1) := by
      decide
    exact not_determined_of_yields (by omega) (yields_ack _ size) (yields_ack _ size) hne
      hdetermined
  · intro hsize
    refine determined_of_yields (fun _ => True) (fun data _ => yields_ack data size)
      (fun _ h => absurd trivial h) ?_
    intro data data' hslice _
    refine ⟨trivial, ?_⟩
    rw [decodedAck, decodedAck, slice_eq_of_slice_eq hslice (show 0 + 4 ≤ size.toNat from hsize)]

/-- Group texts are decoded from their own bytes exactly from three bytes on. -/
theorem determined_groupText_iff (size : UInt8) :
    Determined meshcoreGrpTxtDeserialize size ↔ 3 ≤ size.toNat := by
  constructor
  · intro hdetermined
    by_contra hsize
    -- the last byte of the MAC is behind the payload
    have hne : decodedGroupText (fun _ => 0) size
        ≠ decodedGroupText (Function.update (fun _ => 0) 2 1) size := by
      intro h
      have hmac : blit (Vector.replicate cipherMacSize 0) (slice (fun _ => (0 : UInt8)) 1 2)
          = blit (Vector.replicate cipherMacSize 0)
            (slice (Function.update (fun _ => 0) 2 1) 1 2) :=
        congrArg GroupText.mac h
      exact absurd hmac (by decide)
    exact not_determined_of_yields (by omega) (yields_groupText _ size) (yields_groupText _ size)
      hne hdetermined
  · intro hsize
    refine determined_of_yields (fun _ => True)
      (fun data _ => yields_groupText data size) (fun _ h => absurd trivial h) ?_
    intro data data' hslice _
    have hdata : 3 + (size - 3).toNat ≤ size.toNat := by
      rw [toNat_sub_three hsize]
      omega
    refine ⟨trivial, ?_⟩
    rw [decodedGroupText, decodedGroupText,
      eq_of_slice_eq hslice (show 0 < size.toNat by omega),
      slice_eq_of_slice_eq hslice (show 1 + cipherMacSize ≤ size.toNat from hsize),
      slice_eq_of_slice_eq hslice hdata]

/-! ## Advertisements -/

section Advert

variable {data data' : Memory}

/-- The fixed part is read from the first 100 bytes. -/
theorem withFixedPart_congr (h : slice data 0 100 = slice data' 0 100) (a : Advert) :
    withFixedPart data a = withFixedPart data' a := by
  rw [withFixedPart, withFixedPart, readUInt32, readUInt32,
    slice_eq_of_slice_eq h (show 0 + pubKeySize ≤ 100 by decide),
    slice_eq_of_slice_eq h (show 32 + 4 ≤ 100 by decide),
    slice_eq_of_slice_eq h (show 36 + signatureSize ≤ 100 by decide)]

/-- Payloads with the same `n` bytes, the flags byte among them, are decoded to the same
advertisement if they reach the name. -/
theorem decodedAdvert_congr {n : ℕ} (h : slice data 0 n = slice data' 0 n) (hn : 101 ≤ n)
    (hneed : nameStart (data 100) ≤ n) : decodedAdvert data n = decodedAdvert data' n := by
  have hflags : data 100 = data' 100 := eq_of_slice_eq h (by omega)
  have hfixed : slice data 0 100 = slice data' 0 100 := slice_eq_of_slice_eq h (by omega)
  obtain ⟨-, -, hmin₂, -, hmin₃, -⟩ := starts_le (data 100)
  -- a field that is announced ends in front of the name
  have hfield : ∀ {flag : UInt8} {pos k : ℕ}, pos + optional (data 100) flag k ≤ n →
      data 100 &&& flag ≠ 0 → pos + k ≤ n := by
    intro flag pos k hle hflag
    rwa [optional, if_pos hflag] at hle
  have hnumber : ∀ {flag : UInt8} {pos : ℕ}, pos + optional (data 100) flag 2 ≤ n →
      (if data 100 &&& flag ≠ 0 then readUInt16 data pos else 0)
        = if data 100 &&& flag ≠ 0 then readUInt16 data' pos else 0 := by
    intro flag pos hle
    refine ite_congr rfl ?_ fun _ => rfl
    intro hflag
    rw [readUInt16, readUInt16, slice_eq_of_slice_eq h (hfield hle hflag)]
  have hcoordinate : ∀ {pos : ℕ}, pos + 4 ≤ 101 + 8 →
      (if data 100 &&& advertFlagHasPosition ≠ 0 then Int32.ofUInt32 (readUInt32 data pos) else 0)
        = if data 100 &&& advertFlagHasPosition ≠ 0 then Int32.ofUInt32 (readUInt32 data' pos)
          else 0 := by
    intro pos hpos
    refine ite_congr rfl ?_ fun _ => rfl
    intro hflag
    have hend : 101 + 8 ≤ n := hfield (hmin₂.trans (hmin₃.trans hneed)) hflag
    rw [readUInt32, readUInt32, slice_eq_of_slice_eq h (hpos.trans hend)]
  rw [decodedAdvert_fields, decodedAdvert_fields, withFixedPart_congr hfixed, ← hflags,
    slice_eq_of_slice_eq h (show nameStart (data 100) + (n - nameStart (data 100)) ≤ n by omega),
    hcoordinate (show 101 + 4 ≤ 101 + 8 by decide),
    hcoordinate (show 101 + 4 + 4 ≤ 101 + 8 by decide), hnumber (hmin₃.trans hneed),
    hnumber hneed]

/-- Advertisements are decoded from their own bytes exactly when these hold the fixed part. -/
theorem determined_advert_iff (size : UInt8) :
    Determined meshcoreAdvertDeserialize size ↔ 100 ≤ size.toNat := by
  constructor
  · intro hdetermined
    by_contra hsize
    have hlt : size.toNat < 100 := not_le.mp hsize
    have hne100 : size.toNat ≠ 100 := hlt.ne
    -- the last byte of the signature is behind the payload, and so is a flags byte of zero
    have hpass : Passes (fun _ => 0) size := (passes_iff_of_lt hlt).mpr rfl
    have hpass' : Passes (Function.update (fun _ => 0) 99 1) size :=
      (passes_iff_of_lt hlt).mpr rfl
    have hne : decodedAdvert (fun _ => 0) size.toNat
        ≠ decodedAdvert (Function.update (fun _ => 0) 99 1) size.toNat := by
      intro h
      rw [decodedAdvert_fields, decodedAdvert_fields] at h
      have hsignature : blit (Vector.replicate signatureSize 0)
            (slice (fun _ => (0 : UInt8)) 36 signatureSize)
          = blit (Vector.replicate signatureSize 0)
            (slice (Function.update (fun _ => 0) 99 1) 36 signatureSize) :=
        congrArg Advert.signature h
      exact absurd (congrArg (fun v => v[63]) hsignature) (by decide)
    exact not_determined_of_yields (by omega) (yields_advert hne100 hpass)
      (yields_advert hne100 hpass') hne hdetermined
  · intro hsize
    by_cases h100 : size.toNat = 100
    · refine determined_of_yields (fun _ => True)
        (fun data _ => yields_advertFixedPart h100) (fun _ h => absurd trivial h) ?_
      intro data data' hslice _
      rw [h100] at hslice
      exact ⟨trivial, withFixedPart_congr hslice Advert.zero⟩
    · refine determined_of_yields (fun data => Passes data size) (fun _ => yields_advert h100)
        (fun _ => rejects_advert h100) ?_
      intro data data' hslice hpass
      have h101 : 101 ≤ size.toNat := by omega
      have hflags : data 100 = data' 100 := eq_of_slice_eq hslice (by omega)
      have hneed := (passes_iff_of_le h101).mp hpass
      refine ⟨(passes_iff_of_le h101).mpr ?_, decodedAdvert_congr hslice h101 hneed.1⟩
      rwa [← hflags]

end Advert

/-! ## The five decoders -/

/-- The five decoders. -/
inductive Decoder
  | packet
  | ack
  | request
  | groupText
  | advert
  deriving DecidableEq, Repr

/-- The decoder makes no use of the memory behind a payload of this size; in particular, it makes no
acknowledgement from a payload that is too short for a checksum. -/
def Decoder.UsesOnlyPayload : Decoder → UInt8 → Prop
  | .packet, size => Determined meshcoreDeserialize size
  | .ack, size => Determined meshcoreAckDeserialize size ∧
      (size.toNat < 4 → ∀ (data : Memory) (old : Ack),
        (meshcoreAckDeserialize (some data) size (some old)).code ≠ 0)
  | .request, size => Determined meshcoreRequestDeserialize size
  | .groupText, size => Determined meshcoreGrpTxtDeserialize size
  | .advert, size => Determined meshcoreAdvertDeserialize size

/-- The size of the fields a decoder copies with no check of the size before or after. -/
def Decoder.uncheckedSize : Decoder → ℕ
  | .packet => 0
  | .ack => 4
  | .request => 0
  | .groupText => 3
  | .advert => 100

/-- **A decoder uses only its payload exactly when that holds the fields it copies unchecked.** For
packets and requests this is always so. -/
theorem usesOnlyPayload_iff (decoder : Decoder) (size : UInt8) :
    decoder.UsesOnlyPayload size ↔ decoder.uncheckedSize ≤ size.toNat := by
  cases decoder with
  | packet => exact iff_of_true (determined_packet size) (Nat.zero_le _)
  | ack =>
      rw [Decoder.UsesOnlyPayload, determined_ack_iff]
      refine and_iff_left_of_imp ?_
      intro hsize hshort
      omega
  | request => exact iff_of_true (determined_request size) (Nat.zero_le _)
  | groupText => exact determined_groupText_iff size
  | advert => exact determined_advert_iff size

/-- An acknowledgement is made from three bytes and the byte behind them. -/
theorem not_usesOnlyPayload_shortAck :
    ¬ ∀ (decoder : Decoder) (size : UInt8), decoder.UsesOnlyPayload size := by
  intro h
  have hsize := (determined_ack_iff 3).mp (h .ack 3).1
  exact absurd hsize (by decide)

end MeshcoreC.Mesh
