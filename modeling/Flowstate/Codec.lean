import Flowstate.Gdscript
import Flowstate.Logged
import Flowstate.Protobuf

/-!
# The Godot client's codec

The hand-written protobuf codec of the Godot client (`client/net/wire`) : the byte writer,
the byte reader and `WireCodec`, over the client's own message classes. Every integer is a
GDScript `int`, so a `u64` stands there by its bit pattern.

A decoder is a run with a log : every assignment to a position, every round of its loop over
the fields and every element appended to a list. The loops that read are bounded by `fuel`,
and a run that uses it up (`outOfFuel`) is told apart from one that the script error of a read
out of range ends (`outOfRange`). A field that claims a negative length takes the reader back,
so over arbitrary bytes a decoder need not return.
-/

namespace Flowstate.Godot

namespace WireFormat

def wireTypeVarint : Int64 := 0

def wireTypeFixed64 : Int64 := 1

def wireTypeLengthDelimited : Int64 := 2

def wireTypeFixed32 : Int64 := 5

end WireFormat

open WireFormat

/-! ## Writer -/

structure ByteWriter where
  bytes : PackedByteArray

namespace ByteWriter

def new : ByteWriter := ⟨[]⟩

/-- Logical shift : the arithmetic one, without the sign bits it filled in. -/
def unsignedShr (value bits : Int64) : Int64 :=
  (value >>> bits) &&& (0x7FFFFFFFFFFFFFFF >>> (bits - 1))

/-- The mask clears what the arithmetic shift filled in, by any number of bits. -/
theorem toBitVec_unsignedShr (value : Int64) {k : ℕ} (hpos : 1 ≤ k) (hlt : k < 64) :
    (unsignedShr value (Int64.ofNat k)).toBitVec = value.toBitVec >>> k := by
  have hone : Int64.ofNat k - 1 = Int64.ofNat (k - 1) := (Int64.ofNat_sub k 1 hpos).symm
  have hmax : ∀ i < 64, (0x7FFFFFFFFFFFFFFF#64).getLsbD i = decide (i < 63) := by decide
  have hmsb : (0x7FFFFFFFFFFFFFFF#64).msb = false := by decide
  rw [unsignedShr, Int64.toBitVec_and, hone, Gdscript.toBitVec_shiftRight _ hlt,
    Gdscript.toBitVec_shiftRight _ (by omega)]
  apply BitVec.eq_of_getLsbD_eq
  intro i hi
  have hmask : ((0x7FFFFFFFFFFFFFFF : Int64).toBitVec.sshiftRight (k - 1)).getLsbD i =
      decide (i < 64 - k) := by
    change ((0x7FFFFFFFFFFFFFFF#64).sshiftRight (k - 1)).getLsbD i = _
    rw [BitVec.getLsbD_sshiftRight, hmsb, decide_eq_false (Nat.not_le.2 hi)]
    by_cases h : k - 1 + i < 64
    · rw [if_pos h, hmax _ h, Bool.not_false, Bool.true_and]
      exact decide_eq_decide.2 (by omega)
    · rw [if_neg h, Bool.and_false, decide_eq_false (by omega)]
  rw [BitVec.getLsbD_and, hmask, BitVec.getLsbD_sshiftRight, BitVec.getLsbD_ushiftRight,
    decide_eq_false (Nat.not_le.2 hi), Bool.not_false, Bool.true_and]
  -- bit `i` of the shifted value, where the shift has not run off the top
  by_cases h : i < 64 - k
  · rw [if_pos (by omega), decide_eq_true h, Bool.and_true]
  · rw [decide_eq_false h, Bool.and_false, BitVec.getLsbD_of_ge _ _ (by omega)]

/-- The shift a varint takes is the unsigned one. -/
theorem toUInt64_unsignedShr (value : Int64) :
    (unsignedShr value 7).toUInt64 = value.toUInt64 >>> 7 := by
  rw [← UInt64.toBitVec_inj]
  exact toBitVec_unsignedShr value (k := 7) (by decide) (by decide)

theorem unsignedShr_lt {value : Int64} (h : unsignedShr value 7 ≠ 0) :
    (unsignedShr value 7).toUInt64.toNat < value.toUInt64.toNat := by
  have hne : (unsignedShr value 7).toUInt64.toNat ≠ 0 := fun h0 =>
    h (congrArg UInt64.toInt64 (UInt64.toNat_inj.1 h0))
  have h7 : (value.toUInt64 >>> 7).toNat = value.toUInt64.toNat / 2 ^ 7 :=
    Rust.toNat_shiftRight _ (show 7 < 64 by decide)
  rw [toUInt64_unsignedShr] at hne ⊢
  omega

def writeVarint (w : ByteWriter) (value : Int64) : ByteWriter :=
  let byte := value &&& 0x7F
  let rest := unsignedShr value 7
  if rest ≠ 0 then writeVarint ⟨w.bytes.append (byte ||| 0x80)⟩ rest
  else ⟨w.bytes.append byte⟩
termination_by value.toUInt64.toNat
decreasing_by exact unsignedShr_lt ‹_›

def writeTag (w : ByteWriter) (fieldNumber wireType : Int64) : ByteWriter :=
  w.writeVarint (fieldNumber <<< 3 ||| wireType)

def writeDouble (w : ByteWriter) (value : UInt64) : ByteWriter :=
  ⟨w.bytes ++ Rust.toLeBytes value⟩

def writeBytes (w : ByteWriter) (bytes : PackedByteArray) : ByteWriter :=
  ⟨w.bytes ++ bytes⟩

def toBytes (w : ByteWriter) : PackedByteArray := w.bytes

end ByteWriter

/-! ## Reader -/

/-- One thing a decoder does. -/
inductive Event
  /-- An assignment to `_pos`. -/
  | move (before after : Int64)
  /-- The body of the loop over the fields is entered. -/
  | round
  /-- … and has come to its end. -/
  | field (before after : Int64)
  /-- A double or an entity is appended. -/
  | append
deriving DecidableEq

/-- Why a run ended without a value. -/
inductive Stop
  | outOfRange
  | outOfFuel
deriving DecidableEq

abbrev Run := Logged Event Stop

open Logged

/-- `xs.append(x)`. -/
def append {α : Type} (xs : List α) (x : α) : Run (List α) := do
  tell .append
  return xs ++ [x]

structure ByteReader where
  bytes : PackedByteArray
  pos : Int64

namespace ByteReader

def new (bytes : PackedByteArray) : ByteReader := ⟨bytes, 0⟩

/-- `_pos += n`. -/
def advance (n : Int64) (r : ByteReader) : Run ByteReader := do
  tell (.move r.pos (r.pos + n))
  return { r with pos := r.pos + n }

/-- The loop of `readVarint`. -/
def readVarintLoop : ℕ → Int64 → Int64 → ByteReader → Run (Int64 × ByteReader)
  | 0, _, _, _ => fail .outOfFuel
  | fuel + 1, result, shift, r => do
    let b ← ofOption .outOfRange (r.bytes.get? r.pos)
    let r ← r.advance 1
    let result := result ||| ((b.toUInt64.toInt64 &&& 0x7F) <<< shift)
    if b.toUInt64.toInt64 &&& 0x80 = 0 then return (result, r)
    else readVarintLoop fuel result (shift + 7) r

-- What byte comes next is no matter here, and costly to unfold.
attribute [local irreducible] PackedByteArray.get? in
theorem readVarintLoop_succ (fuel : ℕ) (result shift : Int64) (r : ByteReader) :
    readVarintLoop (fuel + 1) result shift r = (do
      let b ← ofOption .outOfRange (r.bytes.get? r.pos)
      let r ← r.advance 1
      let result := result ||| ((b.toUInt64.toInt64 &&& 0x7F) <<< shift)
      if b.toUInt64.toInt64 &&& 0x80 = 0 then return (result, r)
      else readVarintLoop fuel result (shift + 7) r) := rfl

def readVarint (fuel : ℕ) (r : ByteReader) : Run (Int64 × ByteReader) :=
  readVarintLoop fuel 0 0 r

/-- The field number and the wire type. -/
def readTag (fuel : ℕ) (r : ByteReader) : Run ((Int64 × Int64) × ByteReader) := do
  let (tag, r) ← r.readVarint fuel
  return ((tag >>> 3, tag &&& 0x07), r)

def readDouble (r : ByteReader) : Run (UInt64 × ByteReader) := do
  let v := r.bytes.decodeDouble r.pos
  let r ← r.advance 8
  return (v, r)

def readBytes (r : ByteReader) (length : Int64) : Run (PackedByteArray × ByteReader) := do
  let result := r.bytes.slice r.pos (r.pos + length)
  let r ← r.advance length
  return (result, r)

/-- Discard a field whose tag was consumed. An unknown wire type is reported and left. -/
def skipField (fuel : ℕ) (wireType : Int64) (r : ByteReader) : Run ByteReader :=
  if wireType = wireTypeVarint then do
    let (_, r) ← r.readVarint fuel
    return r
  else if wireType = wireTypeFixed64 then r.advance 8
  else if wireType = wireTypeLengthDelimited then do
    let (length, r) ← r.readVarint fuel
    r.advance length
  else if wireType = wireTypeFixed32 then r.advance 4
  else return r

def hasMore (r : ByteReader) : Bool := r.pos < r.bytes.size

end ByteReader

/-! ## Messages -/

structure ServerWelcome where
  targetTickFloor : Int64
  tickRateHz : Int64
  playerId : Int64
  controlledEntityId : Int64
deriving DecidableEq

structure EntitySnapshotProto where
  entityId : Int64
  position : PackedFloat64Array
  velocity : PackedFloat64Array
deriving DecidableEq

structure JoinBaseline where
  tick : Int64
  entities : List EntitySnapshotProto
  digest : Int64
deriving DecidableEq

structure InputCmdProto where
  tick : Int64
  inputSeq : Int64
  moveDir : PackedFloat64Array
deriving DecidableEq

structure SnapshotProto where
  tick : Int64
  entities : List EntitySnapshotProto
  digest : Int64
  targetTickFloor : Int64
deriving DecidableEq

def ServerWelcome.new : ServerWelcome := ⟨0, 0, 0, 0⟩

def EntitySnapshotProto.new : EntitySnapshotProto := ⟨0, [], []⟩

def JoinBaseline.new : JoinBaseline := ⟨0, [], 0⟩

def InputCmdProto.new : InputCmdProto := ⟨0, 0, []⟩

def SnapshotProto.new : SnapshotProto := ⟨0, [], 0, 0⟩

/-! ## Encoders -/

namespace WireCodec

/-- A scalar field, left out when it is zero. -/
def writeScalar (w : ByteWriter) (fieldNumber value : Int64) : ByteWriter :=
  if value ≠ 0 then (w.writeTag fieldNumber wireTypeVarint).writeVarint value else w

/-- A `repeated double` field, left out when it has no element. -/
def writePackedDoubles (w : ByteWriter) (fieldNumber : Int64) (values : PackedFloat64Array) :
    ByteWriter :=
  if values.length = 0 then w
  else
    let w := w.writeTag fieldNumber wireTypeLengthDelimited
    let w := w.writeVarint (Int64.ofNat values.length * 8)
    values.foldl ByteWriter.writeDouble w

def encodeServerWelcome (msg : ServerWelcome) : PackedByteArray :=
  let w := ByteWriter.new
  let w := writeScalar w 1 msg.targetTickFloor
  let w := writeScalar w 2 msg.tickRateHz
  let w := writeScalar w 3 msg.playerId
  let w := writeScalar w 4 msg.controlledEntityId
  w.toBytes

def encodeEntitySnapshotProto (msg : EntitySnapshotProto) : PackedByteArray :=
  let w := ByteWriter.new
  let w := writeScalar w 1 msg.entityId
  let w := writePackedDoubles w 2 msg.position
  let w := writePackedDoubles w 3 msg.velocity
  w.toBytes

/-- One element of `entities`. -/
def writeEntity (w : ByteWriter) (entity : EntitySnapshotProto) : ByteWriter :=
  let entityBytes := encodeEntitySnapshotProto entity
  let w := w.writeTag 2 wireTypeLengthDelimited
  let w := w.writeVarint entityBytes.size
  w.writeBytes entityBytes

def encodeJoinBaseline (msg : JoinBaseline) : PackedByteArray :=
  let w := ByteWriter.new
  let w := writeScalar w 1 msg.tick
  let w := msg.entities.foldl writeEntity w
  let w := writeScalar w 3 msg.digest
  w.toBytes

def encodeInputCmdProto (msg : InputCmdProto) : PackedByteArray :=
  let w := ByteWriter.new
  let w := writeScalar w 1 msg.tick
  let w := writeScalar w 2 msg.inputSeq
  let w := writePackedDoubles w 3 msg.moveDir
  w.toBytes

def encodeSnapshotProto (msg : SnapshotProto) : PackedByteArray :=
  let w := ByteWriter.new
  let w := writeScalar w 1 msg.tick
  let w := msg.entities.foldl writeEntity w
  let w := writeScalar w 3 msg.digest
  let w := writeScalar w 4 msg.targetTickFloor
  w.toBytes

/-! ## Decoders -/

/-- The loop of `readPackedDoubles` : `count` doubles, appended to `result`. -/
def readDoubles : ℕ → PackedFloat64Array → ByteReader → Run (PackedFloat64Array × ByteReader)
  | 0, result, r => return (result, r)
  | count + 1, result, r => do
    let (value, r) ← r.readDouble
    let result ← append result value
    readDoubles count result r

def readPackedDoubles (fuel : ℕ) (r : ByteReader) : Run (PackedFloat64Array × ByteReader) := do
  let (length, r) ← r.readVarint fuel
  let count := length / 8
  readDoubles count.toInt.toNat [] r

/-- What a decoder does with a field, its number and wire type read. -/
abbrev OnField (M : Type) := Int64 → Int64 → M → ByteReader → Run (M × ByteReader)

/-- The loop of every decoder : while bytes are left, read a tag and match on its number. -/
def decodeLoop {M : Type} (onField : OnField M) (fuel : ℕ) : ℕ → M → ByteReader → Run M
  | 0, msg, r => if r.hasMore then fail .outOfFuel else return msg
  | rounds + 1, msg, r =>
    if r.hasMore then do
      tell .round
      let ((fieldNumber, wireType), r₁) ← r.readTag fuel
      let (msg, r₂) ← onField fieldNumber wireType msg r₁
      tell (.field r.pos r₂.pos)
      decodeLoop onField fuel rounds msg r₂
    else return msg

/-- An unknown field. -/
def skip {M : Type} (fuel : ℕ) (wireType : Int64) (msg : M) (r : ByteReader) :
    Run (M × ByteReader) := do
  let r ← r.skipField fuel wireType
  return (msg, r)

/-- A scalar field, set by `set`. -/
def readScalar {M : Type} (fuel : ℕ) (set : Int64 → M) (r : ByteReader) :
    Run (M × ByteReader) := do
  let (value, r) ← r.readVarint fuel
  return (set value, r)

/-- A `repeated double` field, set by `set`. -/
def readDoublesField {M : Type} (fuel : ℕ) (set : PackedFloat64Array → M) (r : ByteReader) :
    Run (M × ByteReader) := do
  let (values, r) ← readPackedDoubles fuel r
  return (set values, r)

def onServerWelcomeField (fuel : ℕ) : OnField ServerWelcome :=
  fun fieldNumber wireType msg r =>
    if fieldNumber = 1 then readScalar fuel (fun v => { msg with targetTickFloor := v }) r
    else if fieldNumber = 2 then readScalar fuel (fun v => { msg with tickRateHz := v }) r
    else if fieldNumber = 3 then readScalar fuel (fun v => { msg with playerId := v }) r
    else if fieldNumber = 4 then
      readScalar fuel (fun v => { msg with controlledEntityId := v }) r
    else skip fuel wireType msg r

def decodeServerWelcome (fuel : ℕ) (bytes : PackedByteArray) : Run ServerWelcome :=
  decodeLoop (onServerWelcomeField fuel) fuel fuel ServerWelcome.new (ByteReader.new bytes)

def onEntitySnapshotProtoField (fuel : ℕ) : OnField EntitySnapshotProto :=
  fun fieldNumber wireType msg r =>
    if fieldNumber = 1 then readScalar fuel (fun v => { msg with entityId := v }) r
    else if fieldNumber = 2 then readDoublesField fuel (fun v => { msg with position := v }) r
    else if fieldNumber = 3 then readDoublesField fuel (fun v => { msg with velocity := v }) r
    else skip fuel wireType msg r

def decodeEntitySnapshotProto (fuel : ℕ) (bytes : PackedByteArray) : Run EntitySnapshotProto :=
  decodeLoop (onEntitySnapshotProtoField fuel) fuel fuel EntitySnapshotProto.new
    (ByteReader.new bytes)

/-- One element of `entities`, set by `set` with those before it. -/
def readEntity {M : Type} (fuel : ℕ) (entities : List EntitySnapshotProto)
    (set : List EntitySnapshotProto → M) (r : ByteReader) : Run (M × ByteReader) := do
  let (length, r) ← r.readVarint fuel
  let (entityBytes, r) ← r.readBytes length
  let entity ← decodeEntitySnapshotProto fuel entityBytes
  let entities ← append entities entity
  return (set entities, r)

def onJoinBaselineField (fuel : ℕ) : OnField JoinBaseline :=
  fun fieldNumber wireType msg r =>
    if fieldNumber = 1 then readScalar fuel (fun v => { msg with tick := v }) r
    else if fieldNumber = 2 then
      readEntity fuel msg.entities (fun es => { msg with entities := es }) r
    else if fieldNumber = 3 then readScalar fuel (fun v => { msg with digest := v }) r
    else skip fuel wireType msg r

def decodeJoinBaseline (fuel : ℕ) (bytes : PackedByteArray) : Run JoinBaseline :=
  decodeLoop (onJoinBaselineField fuel) fuel fuel JoinBaseline.new (ByteReader.new bytes)

def onInputCmdProtoField (fuel : ℕ) : OnField InputCmdProto :=
  fun fieldNumber wireType msg r =>
    if fieldNumber = 1 then readScalar fuel (fun v => { msg with tick := v }) r
    else if fieldNumber = 2 then readScalar fuel (fun v => { msg with inputSeq := v }) r
    else if fieldNumber = 3 then readDoublesField fuel (fun v => { msg with moveDir := v }) r
    else skip fuel wireType msg r

def decodeInputCmdProto (fuel : ℕ) (bytes : PackedByteArray) : Run InputCmdProto :=
  decodeLoop (onInputCmdProtoField fuel) fuel fuel InputCmdProto.new (ByteReader.new bytes)

def onSnapshotProtoField (fuel : ℕ) : OnField SnapshotProto :=
  fun fieldNumber wireType msg r =>
    if fieldNumber = 1 then readScalar fuel (fun v => { msg with tick := v }) r
    else if fieldNumber = 2 then
      readEntity fuel msg.entities (fun es => { msg with entities := es }) r
    else if fieldNumber = 3 then readScalar fuel (fun v => { msg with digest := v }) r
    else if fieldNumber = 4 then readScalar fuel (fun v => { msg with targetTickFloor := v }) r
    else skip fuel wireType msg r

def decodeSnapshotProto (fuel : ℕ) (bytes : PackedByteArray) : Run SnapshotProto :=
  decodeLoop (onSnapshotProtoField fuel) fuel fuel SnapshotProto.new (ByteReader.new bytes)

end WireCodec

end Flowstate.Godot
