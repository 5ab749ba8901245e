import MeshcoreC.Mesh.Packet

/-! # The advertisement codec

`payload/advert.c`: a node's key, timestamp and signature, a byte with its role and four flags, and
behind it the optional fields the flags announce. The name is the last of them, has no length, and
takes what is left. -/

namespace MeshcoreC.Mesh

open Buffers EarlyReturn Wire

/-- `MESHCORE_PUB_KEY_SIZE`. -/
def pubKeySize : ℕ := 32

/-- `MESHCORE_SIGNATURE_SIZE`. -/
def signatureSize : ℕ := 64

/-- `MESHCORE_MAX_NAME_SIZE`. -/
def maxNameSize : ℕ := 32

/-- The size of the array `name`, `MESHCORE_MAX_NAME_SIZE + sizeof('\0')`: in C a character constant
is an `int`. -/
def nameCapacity : ℕ := maxNameSize + 4

/-- `meshcore_advert_t`. -/
@[ext]
structure Advert where
  pubKey : Vector UInt8 pubKeySize
  timestamp : UInt32
  signature : Vector UInt8 signatureSize
  role : UInt32
  nameValid : Bool
  name : Vector UInt8 nameCapacity
  positionValid : Bool
  positionLat : Int32
  positionLon : Int32
  extra1Valid : Bool
  extra1 : UInt16
  extra2Valid : Bool
  extra2 : UInt16

/-- An advertisement cleared by `memset`. -/
def Advert.zero : Advert where
  pubKey := Vector.replicate pubKeySize 0
  timestamp := 0
  signature := Vector.replicate signatureSize 0
  role := 0
  nameValid := false
  name := Vector.replicate nameCapacity 0
  positionValid := false
  positionLat := 0
  positionLon := 0
  extra1Valid := false
  extra1 := 0
  extra2Valid := false
  extra2 := 0

/-- `ADVERT_FLAG_HAS_POSITION`. -/
def advertFlagHasPosition : UInt8 := 0x10

/-- `ADVERT_FLAG_FEAT1`. -/
def advertFlagFeat1 : UInt8 := 0x20

/-- `ADVERT_FLAG_FEAT2`. -/
def advertFlagFeat2 : UInt8 := 0x40

/-- `ADVERT_FLAG_NAME`. -/
def advertFlagName : UInt8 := 0x80

/-! ## The encoder -/

/-- The flags byte, from a role that was cut down to four bits. -/
def flagsByte (role : UInt8) (positionValid extra1Valid extra2Valid nameValid : Bool) : UInt8 :=
  let flags := role
  let flags := if positionValid then flags ||| advertFlagHasPosition else flags
  let flags := if extra1Valid then flags ||| advertFlagFeat1 else flags
  let flags := if extra2Valid then flags ||| advertFlagFeat2 else flags
  if nameValid then flags ||| advertFlagName else flags

/-- `flags`, as the encoder computes it. -/
def Advert.flags (advert : Advert) : UInt8 :=
  flagsByte (advert.role.toUInt8 &&& 0x0F) advert.positionValid advert.extra1Valid
    advert.extra2Valid advert.nameValid

/-- Key, timestamp, signature and flags. -/
def putFixedPart (advert : Advert) : Prog (WireState OutBuffer) Unit := do
  let p ← position
  copyArray p.toNat advert.pubKey pubKeySize
  advance pubKeySize
  let p ← position
  put p.toNat (leBytes 4 advert.timestamp.toNat)
  advance 4
  let p ← position
  copyArray p.toNat advert.signature signatureSize
  advance signatureSize
  let p ← position
  put p.toNat [advert.flags]
  advance 1

/-- The position, if it is valid. -/
def putPosition (advert : Advert) : Prog (WireState OutBuffer) Unit :=
  whenever advert.positionValid do
    let p ← position
    put p.toNat (leBytes 4 advert.positionLat.toUInt32.toNat)
    advance 4
    let p ← position
    put p.toNat (leBytes 4 advert.positionLon.toUInt32.toNat)
    advance 4

/-- One of the two extra fields, if it is valid. -/
def putExtra (valid : Bool) (extra : UInt16) : Prog (WireState OutBuffer) Unit :=
  whenever valid do
    let p ← position
    put p.toNat (leBytes 2 extra.toNat)
    advance 2

/-- The characters of the name, if it is valid. -/
def putName (advert : Advert) : Prog (WireState OutBuffer) Unit :=
  whenever advert.nameValid do
    -- the terminator is not sent
    let nameLen := strnlen (view advert.name) maxNameSize
    let p ← position
    copyArray p.toNat advert.name nameLen
    advance nameLen

/-- `meshcore_advert_serialize`, behind its null check. -/
def advertSerializeBody (advert : Advert) : Prog (WireState OutBuffer) Unit := do
  clear maxPayloadSize
  putFixedPart advert
  putPosition advert
  putExtra advert.extra1Valid advert.extra1
  putExtra advert.extra2Valid advert.extra2
  putName advert
  finish

/-- `meshcore_advert_serialize`. -/
def meshcoreAdvertSerialize (advert : Advert) (outPayload : Option Memory) : Outcome OutBuffer :=
  call (advertSerializeBody advert) (outPayload.map fun mem => ⟨mem, none⟩)

/-! ## The decoder -/

/-- Key, timestamp and signature are copied without a look at the size. -/
def readFixedPart (data : Memory) : Prog (WireState Advert) Unit := do
  let p ← position
  copyIn data p.toNat pubKeySize pubKeySize fun bytes a => { a with pubKey := blit a.pubKey bytes }
  advance pubKeySize
  let p ← position
  copyIn data p.toNat 4 4 fun bytes a => { a with timestamp := UInt32.ofNat (ofLeBytes bytes) }
  advance 4
  let p ← position
  copyIn data p.toNat signatureSize signatureSize fun bytes a =>
    { a with signature := blit a.signature bytes }
  advance signatureSize

/-- The position, if the flags announce one. -/
def readPosition (data : Memory) (size flags : UInt8) : Prog (WireState Advert) Unit :=
  whenever (flags &&& advertFlagHasPosition ≠ 0) do
    let p ← position
    rejectIf (toSizeT (size.toNat - p.toNat) < 4 * 2)
    copyIn data p.toNat 4 4 fun bytes a =>
      { a with positionLat := Int32.ofUInt32 (UInt32.ofNat (ofLeBytes bytes)) }
    advance 4
    let p ← position
    copyIn data p.toNat 4 4 fun bytes a =>
      { a with positionLon := Int32.ofUInt32 (UInt32.ofNat (ofLeBytes bytes)) }
    advance 4
    assign fun a => { a with positionValid := true }

/-- One of the two extra fields, if the flags announce it; `setExtra` assigns the field, and
`setValid` its flag. -/
def readExtra (data : Memory) (size flags flag : UInt8) (setExtra : UInt16 → Advert → Advert)
    (setValid : Advert → Advert) : Prog (WireState Advert) Unit :=
  whenever (flags &&& flag ≠ 0) do
    let p ← position
    rejectIf (toSizeT (size.toNat - p.toNat) < 2)
    copyIn data p.toNat 2 2 fun bytes => setExtra (UInt16.ofNat (ofLeBytes bytes))
    advance 2
    assign setValid

/-- The first extra field. -/
def readExtra1 (data : Memory) (size flags : UInt8) : Prog (WireState Advert) Unit :=
  readExtra data size flags advertFlagFeat1 (fun extra a => { a with extra1 := extra })
    fun a => { a with extra1Valid := true }

/-- The second extra field. -/
def readExtra2 (data : Memory) (size flags : UInt8) : Prog (WireState Advert) Unit :=
  readExtra data size flags advertFlagFeat2 (fun extra a => { a with extra2 := extra })
    fun a => { a with extra2Valid := true }

/-- The name, if the flags announce one: all that is left. -/
def readName (data : Memory) (size flags : UInt8) : Prog (WireState Advert) Unit :=
  whenever (flags &&& advertFlagName ≠ 0) do
    let p ← position
    let nameLen := size - p
    -- a name that fills `MESHCORE_MAX_NAME_SIZE` still leaves room for the terminator
    rejectIf (maxNameSize < nameLen.toNat)
    copyIn data p.toNat nameLen.toNat nameCapacity fun bytes a =>
      { a with name := blit a.name bytes }
    assign fun a => { a with name := a.name.setIfInBounds nameLen.toNat 0 }
    advance nameLen.toNat
    assign fun a => { a with nameValid := true }

/-- The role, and the optional fields. -/
def readAppData (data : Memory) (size : UInt8) : Prog (WireState Advert) Unit := do
  let p ← position
  let flags ← readByte data p.toNat
  advance 1
  assign fun a => { a with role := (flags &&& 0x0F).toUInt32 }
  readPosition data size flags
  readExtra1 data size flags
  readExtra2 data size flags
  readName data size flags

/-- `meshcore_advert_deserialize`, behind its null checks. -/
def advertDeserializeBody (data : Memory) (size : UInt8) : Prog (WireState Advert) Unit := do
  assign fun _ => Advert.zero
  readFixedPart data
  let p ← position
  -- an 8-bit subtraction: sizes below 100 wrap, and count as long
  let appDataLen := size - p
  whenever (0 < appDataLen) (readAppData data size)

/-- `meshcore_advert_deserialize`. -/
def meshcoreAdvertDeserialize (data : Option Memory) (size : UInt8) (outAdvert : Option Advert) :
    Outcome Advert :=
  match data with
  | none => ⟨-1, outAdvert, []⟩
  | some data => call (advertDeserializeBody data size) outAdvert

end MeshcoreC.Mesh
