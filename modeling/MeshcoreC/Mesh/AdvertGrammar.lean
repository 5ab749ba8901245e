import MeshcoreC.Mesh.AdvertDecoding

/-! # The grammar of advertisements

What a well-formed advertisement payload is, and which payloads the decoder accepts. From 100 bytes
on the two agree. Below that the decoder accepts whatever does not announce a name, in a flags byte
that is not part of the payload. -/

namespace MeshcoreC.Mesh

open Wire

/-- The payloads that are advertisements: the fixed part alone; or that, a flags byte, the fields it
announces, and behind them a name that is not too long, or bytes that are ignored. -/
def AdvertGrammar (data : Memory) (size : ℕ) : Prop :=
  size = 100 ∨ 101 ≤ size ∧
    101 + (optional (data 100) advertFlagHasPosition 8 + optional (data 100) advertFlagFeat1 2 +
      optional (data 100) advertFlagFeat2 2) ≤ size ∧
    (data 100 &&& advertFlagName ≠ 0 →
      size - 101 - (optional (data 100) advertFlagHasPosition 8 +
        optional (data 100) advertFlagFeat1 2 + optional (data 100) advertFlagFeat2 2) ≤ 32)

/-- The decoder accepts this payload if and only if it is an advertisement, and returns `-1`
otherwise. -/
def AcceptsGrammar (data : Memory) (size : UInt8) (old : Advert) : Prop :=
  ((meshcoreAdvertDeserialize (some data) size (some old)).code = 0 ↔
    AdvertGrammar data size.toNat) ∧
  ((meshcoreAdvertDeserialize (some data) size (some old)).code ≠ 0 →
    (meshcoreAdvertDeserialize (some data) size (some old)).code = -1)

variable {data : Memory} {size : UInt8}

/-- Where the name starts, as the sum of the fields in front of it. -/
theorem nameStart_eq (flags : UInt8) :
    nameStart flags = 101 + (optional flags advertFlagHasPosition 8 +
      optional flags advertFlagFeat1 2 + optional flags advertFlagFeat2 2) := by
  unfold nameStart extra2Start extra1Start
  omega

/-- What the decoder accepts. -/
theorem advert_code_eq_zero_iff (old : Advert) :
    (meshcoreAdvertDeserialize (some data) size (some old)).code = 0 ↔
      size.toNat = 100 ∨ Passes data size := by
  by_cases hsize : size.toNat = 100
  · exact iff_of_true (yields_advertFixedPart hsize old).1 (.inl hsize)
  · rw [or_iff_right hsize]
    exact code_eq_zero_iff_of_yields (yields_advert hsize) (rejects_advert hsize) old

/-- A payload that is not accepted is rejected with `-1`. -/
theorem advert_code_of_ne_zero {old : Advert}
    (h : (meshcoreAdvertDeserialize (some data) size (some old)).code ≠ 0) :
    (meshcoreAdvertDeserialize (some data) size (some old)).code = -1 := by
  obtain ⟨hsize, hpass⟩ := not_or.mp (mt (advert_code_eq_zero_iff old).mpr h)
  exact rejects_advert hsize hpass old

/-- From 100 bytes on the decoder accepts exactly the advertisements. -/
theorem advertGrammar_iff_of_le (hsize : 100 ≤ size.toNat) :
    AdvertGrammar data size.toNat ↔ size.toNat = 100 ∨ Passes data size := by
  rw [AdvertGrammar]
  by_cases h100 : size.toNat = 100
  · exact iff_of_true (.inl h100) (.inl h100)
  · have h101 : 101 ≤ size.toNat := by omega
    rw [or_iff_right h100, or_iff_right h100, passes_iff_of_le h101, nameStart_eq,
      and_iff_right h101, Nat.sub_sub]

/-- **The decoder accepts exactly its grammar, unless the payload is shorter than its fixed part and
the byte at index 100, which is not part of it, announces no name.** -/
theorem acceptsGrammar_iff (data : Memory) (size : UInt8) (old : Advert) :
    AcceptsGrammar data size old ↔
      100 ≤ size.toNat ∨ data 100 &&& advertFlagName ≠ 0 := by
  have hreject : (meshcoreAdvertDeserialize (some data) size (some old)).code ≠ 0 → _ :=
    advert_code_of_ne_zero
  rw [AcceptsGrammar, and_iff_left hreject, advert_code_eq_zero_iff]
  by_cases hsize : 100 ≤ size.toNat
  · rw [advertGrammar_iff_of_le hsize]
    exact iff_of_true Iff.rfl (.inl hsize)
  · have hnot : ¬ AdvertGrammar data size.toNat := by
      rintro (h | ⟨h, -⟩)
      · omega
      · omega
    have h100 : size.toNat ≠ 100 := by omega
    rw [or_iff_right h100, passes_iff_of_lt (not_le.mp hsize), iff_false_right hnot,
      or_iff_right hsize]

/-- The empty payload is accepted, when the memory behind it is zero. -/
theorem not_acceptsGrammar_empty :
    ¬ ∀ (data : Memory) (size : UInt8) (old : Advert), AcceptsGrammar data size old := by
  intro h
  have hcode : (meshcoreAdvertDeserialize (some fun _ => 0) 0 (some Advert.zero)).code = 0 :=
    (advert_code_eq_zero_iff _).mpr (.inr ((passes_iff_of_lt (by decide)).mpr rfl))
  rcases (h (fun _ => 0) 0 Advert.zero).1.mp hcode with h100 | ⟨h101, -⟩
  · exact absurd h100 (by decide)
  · exact absurd h101 (by decide)

end MeshcoreC.Mesh
