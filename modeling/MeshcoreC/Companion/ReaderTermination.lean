import MeshcoreC.Companion.FramedReceiver

/-! # When a read call returns

A call of `mc_companion_read_serial_command` loops forever on a header whose length makes the
16-bit frame length wrap around: the announced end is then below the position, no branch of the
loop consumes the next byte, and none resets the position. `returns_iff_no_wrapping_header` says
that nothing else can keep a call from returning, in any reachable state. -/

namespace MeshcoreC

open Buffers Loops Streams Framing

/-- The bytes of the current frame the receiver already holds, `rx_buffer[0 .. rx_position)`. -/
def ReaderState.heldBytes (s : ReaderState) : List UInt8 :=
  slice (view s.rxBuffer) 0 s.rxPosition.toNat

/-- The held bytes are those of the deframer state. -/
theorem bytes_pending {s : ReaderState} (hwf : s.WellFormed) :
    companionFormat.bytes s.pending = s.heldBytes := by
  have hsplit : ∀ k, slice (view s.rxBuffer) 0 (k + 1)
      = view s.rxBuffer 0 :: slice (view s.rxBuffer) 1 k := by
    intro k
    rw [Nat.add_comm, slice_add]
    rfl
  -- the first held byte is `'<'` by the invariant; the others are the state's by definition
  unfold ReaderState.pending ReaderState.heldBytes
  split_ifs with h0 h1 h2
  · rw [h0]; rfl
  · have hstart := hwf.start h0
    rw [h1, UInt16.toNat_one, hsplit, hstart]
    rfl
  · have hstart := hwf.start h0
    have htwo : s.rxPosition.toNat = 1 + 1 := by rw [h2]; rfl
    rw [htwo, hsplit, hstart, slice_one]
    rfl
  · have hstart := hwf.start h0
    have h3 := three_le_of_body h0 (not_or.mpr ⟨h1, h2⟩)
    obtain ⟨k, hk⟩ : ∃ k, s.rxPosition.toNat = (2 + k) + 1 := ⟨s.rxPosition.toNat - 3, by omega⟩
    have hk' : 2 + k + 1 - 3 = k := by omega
    rw [hk, hsplit, hstart, hk', slice_add]
    rfl

/-- A header wedges the receiver exactly when its length is one of the three that wrap. -/
theorem verdict_eq_wedge_iff (lo hi : UInt8) :
    companionFormat.verdict lo hi = .wedge ↔ 65533 ≤ lo.toNat + 256 * hi.toNat := by
  simp only [companionFormat]
  split_ifs with hbody hskip
  · simp only [false_iff]; omega
  · simp only [false_iff]; omega
  · simp only [true_iff]; omega

/-- A well-formed receiver returns on exactly the chunks that, behind the bytes it holds, do not
wedge the deframer. -/
theorem returns_iff_not_wedges {s : ReaderState} (hwf : s.WellFormed) (data : List UInt8) :
    Returns s data ↔ ¬ Wedges companionFormat (s.heldBytes ++ data) := by
  rw [returns_iff_run, Ne, run_eq_none_iff_deframer hwf, run_pending (open_of_wellFormed hwf),
    bytes_pending hwf, run_eq_none_iff]

/-- **A call returns exactly when it meets no wrapping header.** From any reachable state and on any
chunk, the call returns unless the bytes held and received read as complete segments (noise, skipped
headers, frames), then a header `'<' lo hi` with a length from 65533 on, then at least one more
byte. -/
theorem returns_iff_no_wrapping_header {s : ReaderState} (hs : Reachable s) (data : List UInt8) :
    Returns s data ↔
      ¬ ∃ segs lo hi b rest, (∀ g ∈ segs, Segment.Valid companionFormat g) ∧
        65533 ≤ lo.toNat + 256 * hi.toNat ∧
        s.heldBytes ++ data
          = segmentBytes companionFormat segs ++ startByte :: lo :: hi :: b :: rest := by
  rw [returns_iff_not_wedges (wellFormed_of_reachable hs), Wedges]
  simp only [verdict_eq_wedge_iff]
  rfl

/-- A fresh receiver that gets the header `'<' FF FF` and one more byte does not return. -/
theorem returns_iff_no_wrapping_header_initial :
    ¬ Returns ReaderState.initial [60, 255, 255, 0] := by
  intro h
  refine (returns_iff_no_wrapping_header Reachable.initial _).mp h
    ⟨[], 255, 255, 0, [], by simp, by decide, rfl⟩

/-- Length 65533 in a fresh receiver: the call never returns. -/
theorem not_returns_wrapping_header :
    ¬ ∀ s, Reachable s → ∀ data, Returns s data := by
  intro h
  have hwedges : Wedges companionFormat
      (ReaderState.initial.heldBytes ++ [60, 253, 255, 0]) :=
    ⟨[], 253, 255, 0, [], by simp, by decide, rfl⟩
  exact (returns_iff_not_wedges (ReaderState.wellFormed_of_idle rfl) _).mp
    (h ReaderState.initial .initial [60, 253, 255, 0]) hwedges

end MeshcoreC
