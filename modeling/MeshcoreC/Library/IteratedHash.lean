import Mathlib

/-! # Iterated hash functions

A hash function of the Merkle–Damgård kind compresses the blocks of a padded message one after the
other into a state. An implementation that is given the message in pieces keeps the state and the
symbols of a block that is not yet complete.

* **`absorb`** — the state after all complete blocks, and the symbols that are left over.
* **`absorb_append`** — what a longer message does from there, which makes pieces of any lengths as
  good as the whole message.
* **`hmac`** — keyed hashing, for any hash function. -/

namespace Hashes

variable {σ α : Type*}

/-! ## Blocks -/

/-- All complete blocks of `n` symbols are compressed; what is left over is shorter than a block. -/
def absorb (compress : σ → List α → σ) (n : ℕ) (s : σ) (message : List α) : σ × List α :=
  if _h : 0 < n ∧ n ≤ message.length then
    absorb compress n (compress s (message.take n)) (message.drop n)
  else (s, message)
termination_by message.length
decreasing_by
  rw [List.length_drop]
  omega

variable {compress : σ → List α → σ} {n : ℕ}

/-- Less than a block is left over as it is. -/
theorem absorb_of_lt {s : σ} {message : List α} (h : message.length < n) :
    absorb compress n s message = (s, message) := by
  rw [absorb, dif_neg (by omega)]

/-- The first block. -/
theorem absorb_block (hn : 0 < n) (s : σ) {block : List α} (hblock : block.length = n)
    (rest : List α) :
    absorb compress n s (block ++ rest) = absorb compress n (compress s block) rest := by
  rw [absorb, dif_pos ⟨hn, by rw [List.length_append]; omega⟩, List.take_left' hblock,
    List.drop_left' hblock]

/-- A message that is one block. -/
theorem absorb_singleton (hn : 0 < n) (s : σ) {block : List α} (hblock : block.length = n) :
    absorb compress n s block = (compress s block, []) := by
  have h : absorb compress n s (block ++ []) = absorb compress n (compress s block) [] :=
    absorb_block hn s hblock []
  rwa [List.append_nil, absorb_of_lt (show ([] : List α).length < n from hn)] at h

/-- **A message in two pieces**: what is left over of the first one is put in front of the second
one. -/
theorem absorb_append (hn : 0 < n) (s : σ) (message message' : List α) :
    absorb compress n s (message ++ message') =
      absorb compress n (absorb compress n s message).1
        ((absorb compress n s message).2 ++ message') := by
  induction hlen : message.length using Nat.strongRecOn generalizing s message with
  | _ k ih =>
      by_cases hle : n ≤ message.length
      · obtain ⟨block, rest, rfl, hblock⟩ : ∃ block rest, message = block ++ rest ∧
            block.length = n :=
          ⟨message.take n, message.drop n, (List.take_append_drop n message).symm, by simp [hle]⟩
        rw [List.append_assoc, absorb_block hn s hblock, absorb_block hn s hblock]
        apply ih rest.length _ _ _ rfl
        rw [List.length_append] at hlen
        omega
      · rw [absorb_of_lt (show message.length < n by omega)]

/-- What is left over is the end of the message behind its complete blocks. -/
theorem length_absorb (hn : 0 < n) (s : σ) (message : List α) :
    (absorb compress n s message).2.length = message.length % n := by
  induction hlen : message.length using Nat.strongRecOn generalizing s message with
  | _ k ih =>
      by_cases hle : n ≤ message.length
      · rw [absorb, dif_pos ⟨hn, hle⟩,
          ih (message.drop n).length (by rw [List.length_drop]; omega) _ _ rfl, List.length_drop,
          hlen, ← Nat.mod_eq_sub_mod (hlen ▸ hle)]
      · rw [absorb_of_lt (show message.length < n by omega), Nat.mod_eq_of_lt (by omega)]
        exact hlen

/-! ## Keyed hashing -/

section Keyed

variable [Zero α] [XorOp α]

/-- A key as a block: longer keys are hashed first. -/
def keyBlock (hash : List α → List α) (n : ℕ) (key : List α) : List α :=
  let key := if n < key.length then hash key else key
  key ++ List.replicate (n - key.length) 0

/-- **Keyed hashing**: the hash of the message behind one masked key is hashed behind another
one. -/
def hmac (hash : List α → List α) (n : ℕ) (ipad opad : α) (key message : List α) : List α :=
  let k := keyBlock hash n key
  hash (k.map (opad ^^^ ·) ++ hash (k.map (ipad ^^^ ·) ++ message))

end Keyed

end Hashes
