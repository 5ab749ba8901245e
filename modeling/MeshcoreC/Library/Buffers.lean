import Mathlib

/-! # Byte buffers

Memory seen through a pointer is a total function from indices, an array inside a structure is a
`Vector`. This file has the block operations C programs do on them.

* **`slice`** — the bytes at a range of indices, with its splitting and congruence lemmas.
* **`view`** — an array as memory; indices past its end read as zero.
* **`store` / `fill`** — `memcpy` and `memset` into memory.
* **`Holds`** — a buffer of some capacity holds a list of bytes followed by zeros; a `memcpy` at
  the end of the list appends to it (`Holds.store`).
* **`blit`** — `memcpy` to the front of an array.
* **`append_replicate_eq_iff`** — what padding to a common length forgets.
* **`strnlen`** — the length of a string in a bounded array.
* **`leBytes` / `ofLeBytes`** — fixed-width little-endian numbers. -/

namespace Buffers

variable {α : Type*}

/-! ## Slices of memory -/

/-- The `len` elements of memory from index `pos` on. -/
def slice (m : ℕ → α) (pos len : ℕ) : List α := (List.range' pos len).map m

@[simp] theorem length_slice (m : ℕ → α) (pos len : ℕ) : (slice m pos len).length = len := by
  simp [slice]

@[simp] theorem slice_zero (m : ℕ → α) (pos : ℕ) : slice m pos 0 = [] := rfl

@[simp] theorem getElem_slice (m : ℕ → α) (pos len i : ℕ) (h : i < (slice m pos len).length) :
    (slice m pos len)[i] = m (pos + i) := by
  simp [slice]

/-- A slice has the elements of memory at its indices, and nothing past its end. -/
theorem getElem?_slice (m : ℕ → α) (pos len i : ℕ) :
    (slice m pos len)[i]? = if i < len then some (m (pos + i)) else none := by
  by_cases h : i < len
  · rw [if_pos h, List.getElem?_eq_getElem (by simpa using h), getElem_slice]
  · rw [if_neg h, List.getElem?_eq_none (by simpa using h)]

/-- A slice of one element. -/
theorem slice_one (m : ℕ → α) (pos : ℕ) : slice m pos 1 = [m pos] := rfl

/-- A slice splits at any place. -/
theorem slice_add (m : ℕ → α) (pos a b : ℕ) :
    slice m pos (a + b) = slice m pos a ++ slice m (pos + a) b := by
  rw [slice, slice, slice, ← List.map_append, List.range'_append_1]

/-- A slice is a concatenation exactly when its two parts are the two lists. -/
theorem slice_eq_append_iff {m : ℕ → α} {pos n : ℕ} {a b : List α} (hn : n = a.length + b.length) :
    slice m pos n = a ++ b ↔
      slice m pos a.length = a ∧ slice m (pos + a.length) b.length = b := by
  rw [hn, slice_add]
  constructor
  · intro h
    exact List.append_inj h (length_slice ..)
  · rintro ⟨ha, hb⟩
    rw [ha, hb]

/-- Memories that agree on a range have the same slice there. -/
theorem slice_congr {m m' : ℕ → α} {pos len : ℕ} (h : ∀ i, pos ≤ i → i < pos + len → m i = m' i) :
    slice m pos len = slice m' pos len := by
  refine List.map_congr_left ?_
  intro i hi
  rw [List.mem_range'_1] at hi
  exact h i hi.1 hi.2

/-- Memories with the same front have the same slices inside it. -/
theorem slice_eq_of_slice_eq {m m' : ℕ → α} {n pos len : ℕ} (h : slice m 0 n = slice m' 0 n)
    (hle : pos + len ≤ n) : slice m pos len = slice m' pos len := by
  apply slice_congr
  intro i _ hi
  have hget := congrArg (fun l => l[i]?) h
  simpa only [getElem?_slice, if_pos (hi.trans_le hle), Nat.zero_add, Option.some.injEq] using hget

/-- Memories with the same front have the same elements in it. -/
theorem eq_of_slice_eq {m m' : ℕ → α} {n i : ℕ} (h : slice m 0 n = slice m' 0 n) (hi : i < n) :
    m i = m' i := by
  have hone := slice_eq_of_slice_eq h (show i + 1 ≤ n from hi)
  rw [slice_one, slice_one] at hone
  exact List.singleton_injective hone

/-- Writing past the end of a slice does not change it. -/
theorem slice_update_of_le (m : ℕ → α) (pos len p : ℕ) (x : α) (h : pos + len ≤ p) :
    slice (Function.update m p x) pos len = slice m pos len :=
  slice_congr fun i _ hi => Function.update_of_ne (by omega) x m

/-- Writing right behind a slice extends it. -/
theorem slice_update_succ (m : ℕ → α) (pos len : ℕ) (x : α) :
    slice (Function.update m (pos + len) x) pos (len + 1) = slice m pos len ++ [x] := by
  rw [slice_add, slice_update_of_le _ _ _ _ _ le_rfl, slice_one, Function.update_self]

/-! ## Arrays as memory -/

/-- An array seen as memory: past its end there are zeros. -/
def view [Zero α] {n : ℕ} (v : Vector α n) : ℕ → α := fun i => (v[i]?).getD 0

/-- Inside the array, the view is the array. -/
theorem view_of_lt [Zero α] {n : ℕ} (v : Vector α n) {i : ℕ} (h : i < n) : view v i = v[i] := by
  simp [view, h]

/-- The front of an array with something behind it. -/
theorem slice_view_append [Zero α] {m k n : ℕ} (v : Vector α m) (w : Vector α k) (h : n ≤ m) :
    slice (view (v ++ w)) 0 n = slice (view v) 0 n := by
  apply slice_congr
  intro i _ hi
  have hlt : i < m := by omega
  rw [view_of_lt _ (by omega), view_of_lt _ hlt, Vector.getElem_append_left hlt]

/-- A cleared array is zero everywhere. -/
theorem view_replicate_zero [Zero α] (n i : ℕ) : view (Vector.replicate n (0 : α)) i = 0 := by
  by_cases h : i < n
  · rw [view_of_lt _ h, Vector.getElem_replicate]
  · rw [view, Vector.getElem?_eq_none (not_lt.mp h), Option.getD_none]

/-- An element write in an array, seen as memory. -/
theorem view_setIfInBounds [Zero α] {n : ℕ} (v : Vector α n) {p : ℕ} (x : α) (h : p < n) :
    view (v.setIfInBounds p x) = Function.update (view v) p x := by
  funext i
  rw [view, Vector.getElem?_setIfInBounds, Function.update_apply]
  by_cases hp : p = i
  · subst hp
    simp [h]
  · rw [if_neg hp, if_neg (Ne.symm hp), view]

/-- `memcpy` of a block to the front of an array. What does not fit is lost. -/
def blit {n : ℕ} (dst : Vector α n) (src : List α) : Vector α n :=
  Vector.ofFn fun i => (src[i.val]?).getD dst[i]

@[simp] theorem getElem_blit {n : ℕ} (dst : Vector α n) (src : List α) (i : ℕ) (h : i < n) :
    (blit dst src)[i] = (src[i]?).getD dst[i] := by
  simp [blit]

/-- The elements of an array after a `memcpy` that fits. -/
theorem toList_blit {n : ℕ} (dst : Vector α n) (src : List α) (h : src.length ≤ n) :
    (blit dst src).toList = src ++ dst.toList.drop src.length := by
  apply List.ext_getElem
  · simp; omega
  · intro i hi _
    rw [Vector.getElem_toList, getElem_blit]
    by_cases hlt : i < src.length
    · rw [List.getElem_append_left hlt, List.getElem?_eq_getElem hlt]
      rfl
    · rw [List.getElem_append_right (not_lt.mp hlt), List.getElem?_eq_none (not_lt.mp hlt)]
      have hidx : src.length + (i - src.length) = i := by omega
      simp [hidx]

/-- Copying an array's own elements over another array gives that array. -/
theorem blit_slice_view [Zero α] {n : ℕ} (dst v : Vector α n) :
    blit dst (slice (view v) 0 n) = v := by
  apply Vector.ext
  intro i hi
  rw [getElem_blit, getElem?_slice, if_pos hi, Option.getD_some, Nat.zero_add, view_of_lt v hi]

/-- The front of an array after a `memcpy` that fits. -/
theorem slice_view_blit [Zero α] {n : ℕ} (dst : Vector α n) {src : List α} (h : src.length ≤ n) :
    slice (view (blit dst src)) 0 src.length = src := by
  apply List.ext_getElem
  · exact length_slice ..
  · intro i _ hi
    rw [getElem_slice, Nat.zero_add, view_of_lt _ (by omega), getElem_blit,
      List.getElem?_eq_getElem hi, Option.getD_some]

/-- The front of an array that was filled from memory. -/
theorem slice_view_ofFn [Zero α] (m : ℕ → α) {n len : ℕ} (h : len ≤ n) :
    slice (view (Vector.ofFn fun i : Fin n => m i)) 0 len = slice m 0 len := by
  apply slice_congr
  intro i _ hi
  rw [view_of_lt _ (by omega), Vector.getElem_ofFn]

/-- An array that was cleared and then received some bytes, element by element. -/
theorem view_blit_slice [Zero α] {n : ℕ} (m : ℕ → α) {pos len : ℕ} (hle : len ≤ n) (i : ℕ) :
    view (blit (Vector.replicate n 0) (slice m pos len)) i
      = if i < len then m (pos + i) else 0 := by
  by_cases hi : i < n
  · rw [view_of_lt _ hi, getElem_blit, getElem?_slice]
    by_cases hlen : i < len
    · rw [if_pos hlen, if_pos hlen, Option.getD_some]
    · rw [if_neg hlen, if_neg hlen, Option.getD_none, Vector.getElem_replicate]
  · rw [if_neg (by omega), view, Vector.getElem?_eq_none (not_lt.mp hi), Option.getD_none]

/-- The terminator behind a string in a cleared array is already there. -/
theorem blit_setIfInBounds [Zero α] {n : ℕ} (chars : List α) :
    (blit (Vector.replicate n (0 : α)) chars).setIfInBounds chars.length 0
      = blit (Vector.replicate n 0) chars := by
  apply Vector.ext
  intro i hi
  rw [Vector.getElem_setIfInBounds]
  split_ifs with heq
  · subst heq
    rw [getElem_blit, List.getElem?_eq_none le_rfl, Option.getD_none, Vector.getElem_replicate]
  · rfl

/-! ## Padding -/

/-- Two lists that padding makes equal differ in padding only. -/
theorem eq_append_replicate_of_append_eq {a b : List α} {z : α} {m n : ℕ}
    (h : a ++ List.replicate m z = b ++ List.replicate n z) (hle : a.length ≤ b.length) :
    ∃ k, b = a ++ List.replicate k z := by
  -- one list is the front of the other; by length it is `a` of `b`, or they are equal
  rcases List.append_eq_append_iff.mp h with ⟨c, rfl, hc⟩ | ⟨c, rfl, -⟩
  · refine ⟨c.length, ?_⟩
    have hall : ∀ x ∈ c, x = z := fun x hx =>
      List.eq_of_mem_replicate (hc ▸ List.mem_append_left _ hx)
    rw [← List.eq_replicate_of_mem hall]
  · have hnil : c = [] := by
      rw [List.length_append] at hle
      exact List.eq_nil_of_length_eq_zero (by omega)
    exact ⟨0, by simp [hnil]⟩

/-- **Padding to a common length forgets exactly the number of padding elements at the end.** -/
theorem append_replicate_eq_iff {a b : List α} {z : α} {n : ℕ} (ha : a.length ≤ n)
    (hb : b.length ≤ n) :
    a ++ List.replicate (n - a.length) z = b ++ List.replicate (n - b.length) z ↔
      ∃ l j k, a = l ++ List.replicate j z ∧ b = l ++ List.replicate k z := by
  constructor
  · intro h
    rcases Nat.le_total a.length b.length with hle | hle
    · obtain ⟨k, hk⟩ := eq_append_replicate_of_append_eq h hle
      exact ⟨a, 0, k, by simp, hk⟩
    · obtain ⟨k, hk⟩ := eq_append_replicate_of_append_eq h.symm hle
      exact ⟨b, k, 0, hk, by simp⟩
  · rintro ⟨l, j, k, rfl, rfl⟩
    rw [List.length_append, List.length_replicate] at ha hb
    simp only [List.append_assoc, List.length_append, List.length_replicate,
      List.replicate_append_replicate]
    congr 2
    omega

/-! ## Writing memory -/

/-- `memcpy(&m[pos], src, ...)`. -/
def store (m : ℕ → α) (pos : ℕ) (src : List α) : ℕ → α := fun i =>
  if pos ≤ i then (src[i - pos]?).getD (m i) else m i

/-- `memset(m, v, len)`. -/
def fill (m : ℕ → α) (v : α) (len : ℕ) : ℕ → α := fun i => if i < len then v else m i

/-- A `memcpy` over a block that is not longer hides it. -/
theorem store_store (m : ℕ → α) (pos : ℕ) {a b : List α} (h : a.length ≤ b.length) :
    store (store m pos a) pos b = store m pos b := by
  funext i
  unfold store
  by_cases hle : pos ≤ i
  · rw [if_pos hle, if_pos hle, if_pos hle]
    by_cases hlt : i - pos < b.length
    · rw [List.getElem?_eq_getElem hlt]
      rfl
    · rw [List.getElem?_eq_none (not_lt.mp hlt), List.getElem?_eq_none (by omega)]
      rfl
  · rw [if_neg hle, if_neg hle, if_neg hle]

/-- A `memcpy` right behind a slice appends to it. -/
theorem slice_store_append (m : ℕ → α) (pos len : ℕ) (src : List α) :
    slice (store m (pos + len) src) pos (len + src.length) = slice m pos len ++ src := by
  rw [slice_add]
  congr 1
  · apply slice_congr
    intro i _ hi
    rw [store, if_neg (by omega)]
  · apply List.ext_getElem
    · exact length_slice ..
    · intro i _ hi
      rw [getElem_slice, store, if_pos (by omega), Nat.add_sub_cancel_left,
        List.getElem?_eq_getElem hi, Option.getD_some]

/-- Reading back one stored element. -/
@[simp] theorem store_singleton_self (m : ℕ → α) (pos : ℕ) (x : α) : store m pos [x] pos = x := by
  simp [store]

/-- The first `cap` elements of memory are a list followed by zeros. -/
def Holds [Zero α] (m : ℕ → α) (cap : ℕ) (l : List α) : Prop :=
  ∀ i < cap, m i = (l[i]?).getD 0

/-- A cleared buffer holds nothing. -/
theorem holds_fill [Zero α] (m : ℕ → α) (cap : ℕ) : Holds (fill m 0 cap) cap [] := by
  intro i hi
  simp [fill, hi]

/-- **A `memcpy` at the end of what a buffer holds appends to it.** -/
theorem Holds.store [Zero α] {m : ℕ → α} {cap : ℕ} {l : List α} (h : Holds m cap l)
    (src : List α) : Holds (store m l.length src) cap (l ++ src) := by
  intro i hi
  rw [Buffers.store]
  by_cases hle : l.length ≤ i
  · rw [if_pos hle, List.getElem?_append_right hle, h i hi, List.getElem?_eq_none hle]
    rfl
  · rw [if_neg hle, h i hi, List.getElem?_append_left (not_le.mp hle)]

/-- A buffer that holds a list also holds it with zeros appended. -/
theorem Holds.append_zeros [Zero α] {m : ℕ → α} {cap : ℕ} {l : List α} (h : Holds m cap l)
    (k : ℕ) : Holds m cap (l ++ List.replicate k 0) := by
  intro i hi
  rw [h i hi]
  by_cases hlt : i < l.length
  · rw [List.getElem?_append_left hlt]
  · rw [List.getElem?_append_right (not_lt.mp hlt), List.getElem?_eq_none (not_lt.mp hlt),
      List.getElem?_replicate]
    split <;> rfl

/-- The front of a buffer is the list it holds. -/
theorem Holds.slice_zero [Zero α] {m : ℕ → α} {cap : ℕ} {l : List α} (h : Holds m cap l)
    (hcap : l.length ≤ cap) : slice m 0 l.length = l := by
  apply List.ext_getElem
  · exact length_slice ..
  · intro i hi hi'
    rw [getElem_slice, Nat.zero_add, h i (by omega), List.getElem?_eq_getElem hi']
    rfl

/-! ## Strings -/

/-- `strnlen`: the index of the first zero byte, but no more than `n`. -/
def strnlen [Zero α] [DecidableEq α] (m : ℕ → α) (n : ℕ) : ℕ := (slice m 0 n).findIdx (· = 0)

/-- The length is at most the bound. -/
theorem strnlen_le [Zero α] [DecidableEq α] (m : ℕ → α) (n : ℕ) : strnlen m n ≤ n :=
  List.findIdx_le_length.trans (length_slice m 0 n).le

/-- The length of a string whose first zero byte is known. -/
theorem strnlen_eq [Zero α] [DecidableEq α] {m : ℕ → α} {n k : ℕ} (hk : k ≤ n) (hzero : m k = 0)
    (hne : ∀ i < k, m i ≠ 0) : strnlen m n = k := by
  rw [strnlen]
  -- either the zero is inside the array, or the search ends at the bound
  rcases Nat.lt_or_eq_of_le hk with hlt | rfl
  · refine (List.findIdx_eq (by rwa [length_slice])).mpr ⟨?_, ?_⟩
    · simpa using hzero
    · intro i hi
      simpa using hne i hi
  · refine List.findIdx_eq_length.mpr ?_ |>.trans (length_slice ..)
    intro x hx
    obtain ⟨i, hi, rfl⟩ := List.mem_map.mp hx
    rw [List.mem_range'_1] at hi
    simpa using hne i (by omega)

/-- There is no zero byte in front of the end of a string. -/
theorem ne_zero_of_lt_strnlen [Zero α] [DecidableEq α] {m : ℕ → α} {n i : ℕ}
    (h : i < strnlen m n) : m i ≠ 0 := by
  have hlt : i < (slice m 0 n).length := h.trans_le List.findIdx_le_length
  have hne := List.not_of_lt_findIdx h
  rw [getElem_slice, Nat.zero_add] at hne
  simpa using hne

/-- A string ends at a zero byte exactly when this is the first one. -/
theorem strnlen_eq_iff [Zero α] [DecidableEq α] {m : ℕ → α} {n k : ℕ} (hk : k ≤ n)
    (hzero : m k = 0) : strnlen m n = k ↔ ∀ i < k, m i ≠ 0 := by
  constructor
  · intro h i hi
    exact ne_zero_of_lt_strnlen (hi.trans_eq h.symm)
  · exact strnlen_eq hk hzero

/-! ## Bit fields -/

/-- A shift and a mask of `w` ones select a bit field. -/
theorem shiftRight_and_mask (n k w : ℕ) : n >>> k &&& 2 ^ w - 1 = n / 2 ^ k % 2 ^ w := by
  rw [Nat.and_two_pow_sub_one_eq_mod, Nat.shiftRight_eq_div_pow]

/-! ## Little-endian numbers -/

/-- The `w` little-endian bytes of a number. -/
def leBytes : ℕ → ℕ → List UInt8
  | 0, _ => []
  | w + 1, n => UInt8.ofNat n :: leBytes w (n / 256)

/-- The number with the given little-endian bytes. -/
def ofLeBytes (bs : List UInt8) : ℕ := Nat.ofDigits 256 (bs.map UInt8.toNat)

@[simp] theorem length_leBytes (w n : ℕ) : (leBytes w n).length = w := by
  induction w generalizing n with
  | zero => rfl
  | succ w ih => rw [leBytes, List.length_cons, ih]

/-- Reading back `w` bytes gives the number modulo `256 ^ w`. -/
theorem ofLeBytes_leBytes (w n : ℕ) : ofLeBytes (leBytes w n) = n % 256 ^ w := by
  induction w generalizing n with
  | zero => simp [ofLeBytes, leBytes, Nat.mod_one]
  | succ w ih =>
      have hrest : Nat.ofDigits 256 ((leBytes w (n / 256)).map UInt8.toNat) = n / 256 % 256 ^ w :=
        ih (n / 256)
      rw [ofLeBytes, leBytes, List.map_cons, Nat.ofDigits_cons, hrest, pow_succ', Nat.mod_mul,
        UInt8.toNat_ofNat']

/-- The number with one byte more at the low end. -/
theorem ofLeBytes_cons (b : UInt8) (bs : List UInt8) :
    ofLeBytes (b :: bs) = b.toNat + 256 * ofLeBytes bs := by
  rw [ofLeBytes, List.map_cons, Nat.ofDigits_cons]
  rfl

/-- Some bytes make a number that fits them. -/
theorem ofLeBytes_lt (bs : List UInt8) : ofLeBytes bs < 256 ^ bs.length := by
  induction bs with
  | nil => exact Nat.one_pos
  | cons b bs ih =>
      have hb := b.toNat_lt
      rw [ofLeBytes_cons, List.length_cons, pow_succ']
      omega

/-- Writing the number some bytes make gives these bytes. -/
theorem leBytes_ofLeBytes (bs : List UInt8) : leBytes bs.length (ofLeBytes bs) = bs := by
  induction bs with
  | nil => rfl
  | cons b bs ih =>
      have hb := b.toNat_lt
      have hlow : UInt8.ofNat (b.toNat + 256 * ofLeBytes bs) = b := by
        rw [← UInt8.toNat_inj, UInt8.toNat_ofNat']
        omega
      have hrest : (b.toNat + 256 * ofLeBytes bs) / 256 = ofLeBytes bs := by omega
      rw [ofLeBytes_cons, List.length_cons, leBytes, hlow, hrest, ih]

/-- Little-endian numbers of at most `w` bytes read back exactly. -/
theorem ofLeBytes_leBytes_of_lt {w n : ℕ} (h : n < 256 ^ w) : ofLeBytes (leBytes w n) = n := by
  rw [ofLeBytes_leBytes, Nat.mod_eq_of_lt h]

end Buffers
