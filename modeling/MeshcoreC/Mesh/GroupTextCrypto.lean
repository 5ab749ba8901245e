import MeshcoreC.Crypto.AesChaining
import MeshcoreC.Crypto.AesStandard
import MeshcoreC.Crypto.HmacSha256
import MeshcoreC.Mesh.GroupTextStack

/-! # Authentic and secret group texts

The part of `meshcore-test/main.c` that checks the MAC of a received group text and decrypts its
data in place: block by block under the key, then a time stamp, a type and a text, which is
terminated behind the data.

* **`macVerified_iff`** — what the check compares.
* **`decryptBlocks_chained`** — the loop decrypts all complete blocks and leaves the rest.
* **`sealed_text_delivered`** — a text that is encrypted and authenticated with a key goes through
  both codecs, passes the check and is read again. -/

namespace MeshcoreC.Mesh

open Buffers Wire Loops Crypto

/-! ## The receiver -/

variable (u : Uninitialised) (ctx : AesCtx) (key : Block)

/-- The MAC that is calculated from the data: the front of `out`. -/
def calculatedMac (data : Memory) (dataLength : UInt8) : List UInt8 :=
  slice (hmacSha256 u (view key) aesKeylen data dataLength.toNat u.memory cipherMacSize).2 0
    cipherMacSize

/-- `memcmp(out, grp_txt.mac, MESHCORE_CIPHER_MAC_SIZE) == 0`. -/
def macVerified (g : GroupText) : Bool :=
  calculatedMac u key g.dataMemory g.dataLength == slice (view g.mac) 0 cipherMacSize

/-- The loop over the complete blocks of `decrypted.data`. -/
def decryptBlocks (data : Memory) (dataLength : UInt8) : Memory :=
  (List.range' 0 (dataLength.toNat / 16)).foldl
    (fun data i =>
      putBlock data (aesBlocklen * i) (aesEcbDecrypt ctx (blockAt data (aesBlocklen * i))))
    data

/-- `meshcore_grp_txt_decrypted_t`: the memory from `data` on, and what the pointer `text` points
to, as an index of it. -/
structure DecryptedText where
  dataLength : UInt8
  data : Memory
  timestamp : UInt32
  textType : UInt8
  text : ℕ

/-- The decryption. The byte behind the text is found by arithmetic of type `size_t`, which wraps
around when the data is shorter than the fields in front of the text. -/
def decryptGroupText (g : GroupText) : DecryptedText :=
  -- `decrypted.data` is behind `data`, seven bytes of padding and `decrypted.data_length`
  let data := store (fun i => view g.behindData (8 + i)) 0 (slice g.dataMemory 0 g.dataLength.toNat)
  let data := decryptBlocks (aesInitCtx ctx key) data g.dataLength
  let timestamp := UInt32.ofNat (ofLeBytes (slice data 0 4))
  let position := 4
  let textType := data position
  let position := position + 1
  let textLength := toSizeT (g.dataLength.toNat - position)
  let data := Function.update data ((position + textLength) % 2 ^ 64) 0
  { dataLength := g.dataLength, data := data, timestamp := timestamp, textType := textType,
    text := position }

/-- The string that `text` points to: the bytes up to a zero, of which there is one behind the
data. -/
def DecryptedText.string (d : DecryptedText) : List UInt8 :=
  (slice d.data d.text (d.dataLength.toNat + 1)).takeWhile (· ≠ 0)

/-! ## The check -/

/-- A MAC of two bytes. -/
theorem length_calculatedMac (data : Memory) (dataLength : UInt8) :
    (calculatedMac u key data dataLength).length = 2 := length_slice ..

/-- The calculated bytes are the front of keyed hashing, whatever uninitialised memory holds. -/
theorem calculatedMac_eq (data : Memory) (dataLength : UInt8) :
    calculatedMac u key data dataLength =
      (Hashes.hmac Sha2.digest 64 0x36 0x5c (slice (view key) 0 16)
        (slice data 0 dataLength.toNat)).take 2 := by
  have hlt := dataLength.toNat_lt
  have hhash := hmacSha256_standard u (view key) data u.memory cipherMacSize
    (show aesKeylen < 2 ^ 32 by norm_num) (show 64 + dataLength.toNat < 2 ^ 32 by omega)
  have hfront := slice_store_zero u.memory ((Hashes.hmac Sha2.digest 64 0x36 0x5c
    (slice (view key) 0 16) (slice data 0 dataLength.toNat)).take 2)
  have hlen : ((Hashes.hmac Sha2.digest 64 0x36 0x5c (slice (view key) 0 16)
      (slice data 0 dataLength.toNat)).take 2).length = 2 := by
    rw [List.length_take, Hashes.hmac, Sha2.length_digest]
    rfl
  rw [hlen] at hfront
  rw [calculatedMac, hhash]
  exact hfront

/-- **What the check compares**: the first two bytes of keyed hashing of the data. -/
theorem macVerified_iff (g : GroupText) :
    macVerified u key g = true ↔
      slice (view g.mac) 0 2 = (Hashes.hmac Sha2.digest 64 0x36 0x5c (slice (view key) 0 16)
        (slice g.dataMemory 0 g.dataLength.toNat)).take 2 := by
  rw [macVerified, beq_iff_eq, calculatedMac_eq]
  exact eq_comm

/-! ## The decryption -/

/-- **The loop decrypts all complete blocks** and leaves the rest alone. -/
theorem decryptBlocks_chained (data : Memory) (dataLength : UInt8) :
    Chained (List.map (aesEcbDecrypt ctx)) (dataLength.toNat / 16) data
      (decryptBlocks ctx data dataLength) := by
  rw [decryptBlocks]
  have hloop := range'_induction (a := 0) (n := dataLength.toNat / 16) (b := data)
    (P := fun n out => Chained (List.map (aesEcbDecrypt ctx)) n data out)
    (f := fun data i =>
      putBlock data (aesBlocklen * i) (aesEcbDecrypt ctx (blockAt data (aesBlocklen * i))))
    (fun n _ _ out h => by
      have hblock : blockAt out (aesBlocklen * n) = blocksOf data n := h.rest n le_rfl
      rw [hblock]
      apply h.succ _ (blocksOf_putBlock ..)
      rw [List.map_append, List.map_singleton])
    (.zero rfl)
  rwa [Nat.zero_add] at hloop

/-- Where the terminating zero is put. -/
theorem text_end (dataLength : UInt8) :
    (5 + toSizeT ((dataLength.toNat : ℤ) - (5 : ℕ))) % 2 ^ 64 = dataLength.toNat := by
  have hlt := dataLength.toNat_lt
  rw [toSizeT]
  omega

/-- Memories that agree on some blocks, byte by byte. -/
theorem blocksOf_congr {data data' : Memory} {n k : ℕ} (h : ∀ i < 16 * n, data i = data' i)
    (hk : k < n) : blocksOf data k = blocksOf data' k := by
  apply Vector.ext
  intro i hi
  rw [aesBlocklen] at hi
  rw [getElem_blocksOf _ _ hi, getElem_blocksOf _ _ hi, h _ (by omega)]

/-- Memories with the same blocks agree on them. -/
theorem eq_of_blocksOf {data data' : Memory} {n i : ℕ}
    (h : ∀ k < n, blocksOf data k = blocksOf data' k) (hi : i < 16 * n) : data i = data' i := by
  rw [eq_view_blocksOf data, eq_view_blocksOf data', h _ (by omega)]

/-- **Encrypted blocks are decrypted**, whatever the contexts held before the key. -/
theorem decryptBlocks_encrypted (ctx' : AesCtx) {data plain : Memory} {dataLength : UInt8}
    (h : ∀ k < dataLength.toNat / 16,
      blocksOf data k = aesEcbEncrypt (aesInitCtx ctx' key) (blocksOf plain k))
    {i : ℕ} (hi : i < 16 * (dataLength.toNat / 16)) :
    decryptBlocks (aesInitCtx ctx key) data dataLength i = plain i := by
  have hkeys : (aesInitCtx ctx key).roundKey = (aesInitCtx ctx' key).roundKey :=
    keyExpansion_congr ..
  have hchained := decryptBlocks_chained (aesInitCtx ctx key) data dataLength
  apply eq_of_blocksOf _ hi
  intro k hk
  have hfront := congrArg (fun l => l[k]?) hchained.front
  simp only [List.getElem?_map, getElem?_slice, if_pos hk, Nat.zero_add, Option.map_some,
    Option.some.injEq] at hfront
  rw [hfront, h k hk, aesEcbDecrypt, aesEcbEncrypt, hkeys, invCipher_cipher]

/-! ## Sealed texts -/

/-- The fields of a text, as they are encrypted. -/
def plainText (timestamp : UInt32) (textType : UInt8) (text : List UInt8) : List UInt8 :=
  leBytes 4 timestamp.toNat ++ [textType] ++ text

/-- The plain bytes, with zeros up to whole blocks. -/
def plainMemory (timestamp : UInt32) (textType : UInt8) (text : List UInt8) : Memory :=
  store (fun _ => 0) 0 (plainText timestamp textType text)

/-- **A sealed text**: the plain bytes are encrypted block by block, and the MAC is calculated from
the result. -/
def sealText (channelHash : UInt8) (timestamp : UInt32) (textType : UInt8) (text : List UInt8) :
    GroupText :=
  let plain := plainMemory timestamp textType text
  let length := 16 * blockCount (5 + text.length)
  let data : Vector UInt8 groupDataCapacity := Vector.ofFn fun i =>
    if i.val < length then
      view (aesEcbEncrypt (aesInitCtx ctx key) (blocksOf plain (i / 16))) (i % 16)
    else 0
  { channelHash := channelHash
    mac := blit (Vector.replicate cipherMacSize 0)
      (calculatedMac u key (view data) (UInt8.ofNat length))
    dataLength := UInt8.ofNat length
    data := data
    behindData := Vector.replicate sizeofBehindData 0 }

section Sealed

variable (channelHash : UInt8) (timestamp : UInt32) (textType : UInt8) {text : List UInt8}

/-- The time stamp comes first. -/
theorem getElem?_plainText_time {i : ℕ} (hi : i < 4) :
    (plainText timestamp textType text)[i]? = (leBytes 4 timestamp.toNat)[i]? := by
  rw [plainText, List.append_assoc, List.getElem?_append_left (by simpa using hi)]

/-- The type is behind it. -/
theorem getElem?_plainText_type :
    (plainText timestamp textType text)[4]? = some textType := by
  simp [plainText]

/-- The text is behind both. -/
theorem getElem?_plainText_text (i : ℕ) :
    (plainText timestamp textType text)[5 + i]? = text[i]? := by
  rw [plainText, List.getElem?_append_right (by simp)]
  simp

/-- A text of at most 171 bytes fits the data with the fields in front of it and its padding. -/
theorem toNat_dataLength_sealText (hlen : text.length ≤ 171) :
    (sealText u ctx key channelHash timestamp textType text).dataLength.toNat =
      16 * blockCount (5 + text.length) := by
  have hfit : 16 * blockCount (5 + text.length) < 256 := by
    unfold blockCount
    omega
  exact UInt8.toNat_ofNat_of_lt' hfit

/-- The data of a sealed text is inside the array. -/
theorem dataLength_sealText_le (hlen : text.length ≤ 171) :
    (sealText u ctx key channelHash timestamp textType text).dataLength.toNat ≤ 181 := by
  rw [toNat_dataLength_sealText u ctx key channelHash timestamp textType hlen, blockCount]
  omega

/-- The blocks of a sealed text. -/
theorem blocksOf_sealText (hlen : text.length ≤ 171) {k : ℕ}
    (hk : k < blockCount (5 + text.length)) :
    blocksOf (view (sealText u ctx key channelHash timestamp textType text).data) k =
      aesEcbEncrypt (aesInitCtx ctx key) (blocksOf (plainMemory timestamp textType text) k) := by
  have hfit : 16 * blockCount (5 + text.length) ≤ 176 := by
    unfold blockCount
    omega
  apply Vector.ext
  intro i hi
  rw [aesBlocklen] at hi
  have hlt : 16 * k + i < groupDataCapacity := by
    show 16 * k + i < 181
    omega
  rw [getElem_blocksOf _ _ hi, view_of_lt _ hlt, sealText, Vector.getElem_ofFn,
    if_pos (show 16 * k + i < 16 * blockCount (5 + text.length) by omega),
    show (16 * k + i) / 16 = k by omega, show (16 * k + i) % 16 = i by omega, view_of_lt _ hi]

/-- The MAC in a sealed text is that of its data. -/
theorem slice_mac_sealText :
    slice (view (sealText u ctx key channelHash timestamp textType text).mac) 0 2 =
      calculatedMac u key (view (sealText u ctx key channelHash timestamp textType text).data)
        (sealText u ctx key channelHash timestamp textType text).dataLength := by
  have hblit := slice_view_blit (Vector.replicate cipherMacSize (0 : UInt8))
    (length_calculatedMac u key
      (view (sealText u ctx key channelHash timestamp textType text).data)
      (sealText u ctx key channelHash timestamp textType text).dataLength).le
  rwa [length_calculatedMac] at hblit

/-- A received group text has the data that was sent. -/
theorem SameGroupText.dataMemory_eq {g g' : GroupText} (h : SameGroupText g g')
    (hle : g.dataLength.toNat ≤ 181) {i : ℕ} (hi : i < g.dataLength.toNat) :
    g'.dataMemory i = view g.data i := by
  have hdata : g'.dataMemory i = view g'.data i := by
    have hslice := g'.slice_dataMemory (by rwa [h.dataLength])
    rw [h.dataLength] at hslice
    exact eq_of_slice_eq hslice hi
  rw [hdata, h.data i hi]

/-- **A received sealed text passes the check**, with the same key. -/
theorem macVerified_sealText (u' : Uninitialised) (hlen : text.length ≤ 171) {g : GroupText}
    (h : SameGroupText (sealText u ctx key channelHash timestamp textType text) g) :
    macVerified u' key g = true := by
  have hfit := dataLength_sealText_le u ctx key channelHash timestamp textType hlen
  have hdata : slice g.dataMemory 0
        (sealText u ctx key channelHash timestamp textType text).dataLength.toNat
      = slice (view (sealText u ctx key channelHash timestamp textType text).data) 0
        (sealText u ctx key channelHash timestamp textType text).dataLength.toNat := by
    apply slice_congr
    intro i _ hi
    exact h.dataMemory_eq hfit (by omega)
  rw [macVerified_iff, h.mac, slice_mac_sealText, calculatedMac_eq, h.dataLength, hdata]

/-- The plain bytes, one by one. -/
theorem plainMemory_eq (text : List UInt8) (i : ℕ) :
    plainMemory timestamp textType text i =
      ((plainText timestamp textType text)[i]?).getD 0 := by
  rw [plainMemory, store, if_pos (Nat.zero_le i), Nat.sub_zero]

/-- The string in memory that agrees with the plain bytes up to a zero behind them. -/
theorem takeWhile_slice {data : Memory} {n : ℕ} (hn : text.length < n)
    (htext : ∀ b ∈ text, b ≠ 0) (hdata : ∀ i < text.length, data (5 + i) = (text[i]?).getD 0)
    (hend : data (5 + text.length) = 0) : (slice data 5 n).takeWhile (· ≠ 0) = text := by
  obtain ⟨k, rfl⟩ := Nat.exists_eq_add_of_lt hn
  have hfront : slice data 5 text.length = text := by
    apply List.ext_getElem (length_slice ..)
    intro i hi hi'
    rw [getElem_slice, hdata i hi', List.getElem?_eq_getElem hi', Option.getD_some]
  have hone : slice data (5 + text.length) 1 = [0] := by rw [slice_one, hend]
  rw [Nat.add_assoc, Nat.add_comm k 1, slice_add, slice_add, hfront, hone,
    List.takeWhile_append_of_pos (by simpa using htext)]
  simp

/-- The data behind the decryption loop is the plain bytes. -/
theorem decrypted_eq (ctx' : AesCtx) (hlen : text.length ≤ 171) {g : GroupText} {old : Memory}
    (h : SameGroupText (sealText u ctx key channelHash timestamp textType text) g) {i : ℕ}
    (hi : i < 16 * blockCount (5 + text.length)) :
    decryptBlocks (aesInitCtx ctx' key) (store old 0 (slice g.dataMemory 0 g.dataLength.toNat))
        g.dataLength i = plainMemory timestamp textType text i := by
  have hlength := toNat_dataLength_sealText u ctx key channelHash timestamp textType hlen
  have hfit := dataLength_sealText_le u ctx key channelHash timestamp textType hlen
  have hblocks : g.dataLength.toNat / 16 = blockCount (5 + text.length) := by
    rw [h.dataLength, hlength, Nat.mul_div_cancel_left _ (by decide)]
  apply decryptBlocks_encrypted ctx' key ctx _ (by rwa [hblocks])
  intro k hk
  rw [hblocks] at hk
  rw [← blocksOf_sealText u ctx key channelHash timestamp textType hlen hk]
  apply blocksOf_congr (n := blockCount (5 + text.length)) _ hk
  intro j hj
  have hjlt : j < (sealText u ctx key channelHash timestamp textType text).dataLength.toNat := by
    rwa [hlength]
  rw [store, if_pos (Nat.zero_le j), Nat.sub_zero, getElem?_slice,
    if_pos (by rwa [h.dataLength]), Option.getD_some, Nat.zero_add, h.dataMemory_eq hfit hjlt]

/-- **A received sealed text is decrypted** to its fields, with the same key. -/
theorem decryptGroupText_sealText (ctx' : AesCtx) (hlen : text.length ≤ 171)
    (htext : ∀ b ∈ text, b ≠ 0) {g : GroupText}
    (h : SameGroupText (sealText u ctx key channelHash timestamp textType text) g) :
    (decryptGroupText ctx' key g).timestamp = timestamp ∧
      (decryptGroupText ctx' key g).textType = textType ∧
      (decryptGroupText ctx' key g).string = text := by
  have hlength := toNat_dataLength_sealText u ctx key channelHash timestamp textType hlen
  have hcount : 5 + text.length ≤ 16 * blockCount (5 + text.length) := by
    rw [blockCount]
    omega
  have hplain : ∀ i < 16 * blockCount (5 + text.length),
      decryptBlocks (aesInitCtx ctx' key) (store (fun i => view g.behindData (8 + i)) 0
        (slice g.dataMemory 0 g.dataLength.toNat)) g.dataLength i
      = ((plainText timestamp textType text)[i]?).getD 0 := fun i hi => by
    rw [decrypted_eq u ctx key channelHash timestamp textType ctx' hlen h hi, plainMemory_eq]
  have hend := text_end g.dataLength
  rw [h.dataLength, hlength] at hend
  refine ⟨?_, ?_, ?_⟩
  · have htime : slice (decryptBlocks (aesInitCtx ctx' key)
        (store (fun i => view g.behindData (8 + i)) 0 (slice g.dataMemory 0 g.dataLength.toNat))
        g.dataLength) 0 4 = leBytes 4 timestamp.toNat := by
      apply List.ext_getElem (by simp)
      intro i hi hi'
      rw [length_slice] at hi
      rw [getElem_slice, Nat.zero_add, hplain i (by omega), getElem?_plainText_time _ _ hi,
        List.getElem?_eq_getElem hi', Option.getD_some]
    show UInt32.ofNat (ofLeBytes _) = timestamp
    rw [htime, ofLeBytes_leBytes_of_lt timestamp.toNat_lt]
    exact UInt32.ofNat_toNat
  · show decryptBlocks _ _ _ 4 = textType
    rw [hplain 4 (by omega), getElem?_plainText_type, Option.getD_some]
  · have hdata : (decryptGroupText ctx' key g).data = Function.update (decryptBlocks
        (aesInitCtx ctx' key) (store (fun i => view g.behindData (8 + i)) 0
          (slice g.dataMemory 0 g.dataLength.toNat)) g.dataLength)
        (16 * blockCount (5 + text.length)) 0 := by
      rw [← hend, ← hlength, ← h.dataLength]
      rfl
    rw [DecryptedText.string, hdata]
    apply takeWhile_slice (n := g.dataLength.toNat + 1)
    · rw [h.dataLength, hlength]
      omega
    · exact htext
    · intro i hi
      rw [Function.update_of_ne (by omega), hplain _ (by omega), getElem?_plainText_text]
    · -- the zero is one of the padding, or the one behind the data
      by_cases hfull : 5 + text.length = 16 * blockCount (5 + text.length)
      · rw [← hfull, Function.update_self]
      · rw [Function.update_of_ne hfull, hplain _ (by omega), getElem?_plainText_text,
          List.getElem?_eq_none le_rfl, Option.getD_none]

/-- **A sealed text is delivered.** A text of at most 171 bytes without a zero, sealed with a key
and sent in a group text packet over a route without transport codes, is received as a group text
that passes the check of the MAC and is decrypted to the same time stamp, type and text, with the
same key, whatever the memory of both sides held before. -/
theorem sealed_text_delivered (u' : Uninitialised) (ctx' : AesCtx) (hlen : text.length ≤ 171)
    (htext : ∀ b ∈ text, b ≠ 0) {m : Message} (htype : m.type = payloadTypeGrpTxt)
    (hroute : WithoutCodes m.route) (hversion : m.version.toNat < 4)
    (hpath : m.pathLength.toNat ≤ 64) :
    ∃ packet, Sends (sealText u ctx key channelHash timestamp textType text) m packet ∧
      ∀ (data : Memory) (size : UInt8), slice data 0 size.toNat = packet →
        ∃ m' g, Yields (meshcoreDeserialize (some data) size) m' ∧
          Yields (meshcoreGrpTxtDeserialize (some (view m'.payload)) m'.payloadLength) g ∧
          g.channelHash = channelHash ∧ macVerified u' key g = true ∧
          (decryptGroupText ctx' key g).timestamp = timestamp ∧
          (decryptGroupText ctx' key g).textType = textType ∧
          (decryptGroupText ctx' key g).string = text := by
  have hfit := dataLength_sealText_le u ctx key channelHash timestamp textType hlen
  refine ⟨_, sends_of_le hfit hpath, ?_⟩
  intro data size hpacket
  obtain ⟨m', g, hmessage, hgroup, -, -, -, -, -, hsame⟩ :=
    receives_sent hfit htype hroute hversion hpath hpacket
  exact ⟨m', g, hmessage, hgroup, hsame.channelHash,
    macVerified_sealText u ctx key channelHash timestamp textType u' hlen hsame,
    decryptGroupText_sealText u ctx key channelHash timestamp textType ctx' hlen htext hsame⟩

end Sealed

/-- The word "hi" under a key of zeros, over a flood route, between two sides whose memory held
different bytes. -/
theorem sealed_text_delivered_hi :
    ∃ packet, Sends (sealText (.filled 0) ⟨Vector.replicate 176 0, Vector.replicate 16 0⟩
        (Vector.replicate 16 0) 0x11 1762380264 0 [0x68, 0x69])
        { Message.zero with type := 5, route := 1 } packet ∧
      ∀ (data : Memory) (size : UInt8), slice data 0 size.toNat = packet →
        ∃ m' g, Yields (meshcoreDeserialize (some data) size) m' ∧
          Yields (meshcoreGrpTxtDeserialize (some (view m'.payload)) m'.payloadLength) g ∧
          g.channelHash = 0x11 ∧ macVerified (.filled 1) (Vector.replicate 16 0) g = true ∧
          (decryptGroupText ⟨Vector.replicate 176 1, Vector.replicate 16 1⟩ (Vector.replicate 16 0)
            g).timestamp = 1762380264 ∧
          (decryptGroupText ⟨Vector.replicate 176 1, Vector.replicate 16 1⟩ (Vector.replicate 16 0)
            g).textType = 0 ∧
          (decryptGroupText ⟨Vector.replicate 176 1, Vector.replicate 16 1⟩ (Vector.replicate 16 0)
            g).string = [0x68, 0x69] := by
  have hlen : ([0x68, 0x69] : List UInt8).length ≤ 171 := by simp
  have htext : ∀ b ∈ ([0x68, 0x69] : List UInt8), b ≠ 0 := by simp
  have hversion : Message.zero.version.toNat < 4 := by decide
  have hpath : Message.zero.pathLength.toNat ≤ 64 := by decide
  exact sealed_text_delivered (.filled 0) _ _ 0x11 1762380264 0 (.filled 1) _ hlen htext
    (m := { Message.zero with type := 5, route := 1 }) rfl (.inl rfl) hversion hpath

end MeshcoreC.Mesh
