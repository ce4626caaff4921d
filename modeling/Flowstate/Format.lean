import Flowstate.Extension
import Flowstate.Wire

/-!
# One wire format

The Godot codec and the Rust wire schema agree (`one_format`). Each encoder writes the fields
the schema prescribes, in the order of their tags, and each decoder loads them one by one
into an empty message, where nothing else need be among them.
-/

open Protobuf

namespace Flowstate.Godot.WireCodec

variable {fuel : ℕ}

/-! ## Messages -/

theorem decode_encodeServerWelcome (msg : ServerWelcome)
    (hfuel : (encodeServerWelcome msg).length ≤ fuel)
    (hlen : (encodeServerWelcome msg).length < 2 ^ 63) :
    (decodeServerWelcome fuel (encodeServerWelcome msg)).value? = some msg :=
  decodeServerWelcome_of_extended (extended_encodeServerWelcome msg) hfuel hlen

theorem decode_encodeEntitySnapshotProto (msg : EntitySnapshotProto)
    (hfuel : (encodeEntitySnapshotProto msg).length ≤ fuel)
    (hlen : (encodeEntitySnapshotProto msg).length < 2 ^ 63) :
    (decodeEntitySnapshotProto fuel (encodeEntitySnapshotProto msg)).value? = some msg :=
  decodeEntitySnapshotProto_of_extended (extended_encodeEntitySnapshotProto msg) hfuel hlen

theorem decode_encodeJoinBaseline (msg : JoinBaseline)
    (hfuel : (encodeJoinBaseline msg).length ≤ fuel)
    (hlen : (encodeJoinBaseline msg).length < 2 ^ 63) :
    (decodeJoinBaseline fuel (encodeJoinBaseline msg)).value? = some msg :=
  decodeJoinBaseline_of_extended (extended_encodeJoinBaseline msg) hfuel hlen

theorem decode_encodeInputCmdProto (msg : InputCmdProto)
    (hfuel : (encodeInputCmdProto msg).length ≤ fuel)
    (hlen : (encodeInputCmdProto msg).length < 2 ^ 63) :
    (decodeInputCmdProto fuel (encodeInputCmdProto msg)).value? = some msg :=
  decodeInputCmdProto_of_extended (extended_encodeInputCmdProto msg) hfuel hlen

theorem decode_encodeSnapshotProto (msg : SnapshotProto)
    (hfuel : (encodeSnapshotProto msg).length ≤ fuel)
    (hlen : (encodeSnapshotProto msg).length < 2 ^ 63) :
    (decodeSnapshotProto fuel (encodeSnapshotProto msg)).value? = some msg :=
  decodeSnapshotProto_of_extended (extended_encodeSnapshotProto msg) hfuel hlen

end Flowstate.Godot.WireCodec

/-! ## Agreement -/

namespace Flowstate

open Godot.WireCodec

/-- A `u64` below bit 63 is the same number as an `int`. -/
theorem toInt_toInt64 {n : UInt64} (h : n.toNat < 2 ^ 63) : n.toInt64.toInt = n.toNat := by
  rw [Gdscript.toInt_eq_ite]
  exact if_pos h

section values

variable {F : Type} [F64 F]

/-- The value as the Godot client holds it, a `u64` and a double by its bit pattern. -/
def ServerWelcome.toGodot (m : ServerWelcome) : Godot.ServerWelcome :=
  ⟨m.targetTickFloor.toInt64, m.tickRateHz.toUInt64.toInt64, m.playerId.toUInt64.toInt64,
    m.controlledEntityId.toInt64⟩

def EntitySnapshotProto.toGodot (e : EntitySnapshotProto F) : Godot.EntitySnapshotProto :=
  ⟨e.entityId.toInt64, e.position.map F64.toBits, e.velocity.map F64.toBits⟩

def JoinBaseline.toGodot (b : JoinBaseline F) : Godot.JoinBaseline :=
  ⟨b.tick.toInt64, b.entities.map EntitySnapshotProto.toGodot, b.digest.toInt64⟩

def InputCmdProto.toGodot (c : InputCmdProto F) : Godot.InputCmdProto :=
  ⟨c.tick.toInt64, c.inputSeq.toInt64, c.moveDir.map F64.toBits⟩

def SnapshotProto.toGodot (s : SnapshotProto F) : Godot.SnapshotProto :=
  ⟨s.tick.toInt64, s.entities.map EntitySnapshotProto.toGodot, s.digest.toInt64,
    s.targetTickFloor.toInt64⟩

theorem ServerWelcome.encode_toGodot (m : ServerWelcome) :
    encodeServerWelcome m.toGodot = m.encode := by
  rw [encodeServerWelcome_eq]
  simp only [Godot.ServerWelcome.fields, List.flatten_cons, List.flatten_nil, List.append_nil,
    ← List.append_assoc]
  rfl

theorem EntitySnapshotProto.encode_toGodot (e : EntitySnapshotProto F) :
    encodeEntitySnapshotProto e.toGodot = e.encode := by
  rw [encodeEntitySnapshotProto_eq]
  simp only [Godot.EntitySnapshotProto.fields, List.flatten_cons, List.flatten_nil,
    List.append_nil, ← List.append_assoc]
  rfl

theorem map_encode_toGodot (entities : List (EntitySnapshotProto F)) :
    (entities.map EntitySnapshotProto.toGodot).map encodeEntitySnapshotProto =
      entities.map EntitySnapshotProto.encode := by
  rw [List.map_map]
  exact List.map_congr_left fun e _ => e.encode_toGodot

theorem JoinBaseline.encode_toGodot (b : JoinBaseline F) :
    encodeJoinBaseline b.toGodot = b.encode := by
  rw [encodeJoinBaseline_eq, JoinBaseline.toGodot, map_encode_toGodot]
  simp only [Godot.JoinBaseline.fields, List.flatten_append, List.flatten_cons,
    List.flatten_nil, List.append_nil, ← List.flatMap_def]
  rfl

theorem InputCmdProto.encode_toGodot (c : InputCmdProto F) :
    encodeInputCmdProto c.toGodot = c.encode := by
  rw [encodeInputCmdProto_eq]
  simp only [Godot.InputCmdProto.fields, List.flatten_cons, List.flatten_nil, List.append_nil,
    ← List.append_assoc]
  rfl

theorem SnapshotProto.encode_toGodot (s : SnapshotProto F) :
    encodeSnapshotProto s.toGodot = s.encode := by
  rw [encodeSnapshotProto_eq, SnapshotProto.toGodot, map_encode_toGodot]
  simp only [Godot.SnapshotProto.fields, List.flatten_append, List.flatten_cons,
    List.flatten_nil, List.append_nil, ← List.append_assoc, ← List.flatMap_def]
  rfl

end values

/-- The two codecs agree on a value : whenever the Rust side produces bytes for it, the Godot
encoder produces the same ones, and the Godot decoder returns the value from them. Every loop
ends within as many rounds as there are bytes. -/
def Agree {M : Type} (encode : M → PackedByteArray) (decode : ℕ → PackedByteArray → Godot.Run M)
    (encoded : Bytes) (msg : M) : Prop :=
  ∀ bytes, encodeToVec encoded = .ok bytes →
    encode msg = bytes ∧ ∀ fuel, bytes.length ≤ fuel → (decode fuel bytes).value? = some msg

theorem Agree.of_encode {M : Type} {encode : M → PackedByteArray}
    {decode : ℕ → PackedByteArray → Godot.Run M} {encoded : Bytes} {msg : M}
    (hencode : encode msg = encoded)
    (hdecode : ∀ fuel, (encode msg).length ≤ fuel → (encode msg).length < 2 ^ 63 →
      (decode fuel (encode msg)).value? = some msg) : Agree encode decode encoded msg := by
  intro bytes hbytes
  obtain ⟨rfl, hlen⟩ := encodeToVec_eq_ok.1 hbytes
  subst hencode
  exact ⟨rfl, fun fuel hfuel => hdecode fuel hfuel hlen⟩

/-- The hand-written codec of the Godot client and the wire schema are one format, for every
value of the five messages they exchange. -/
theorem one_format {F : Type} [F64 F] :
    (∀ m : ServerWelcome, Agree encodeServerWelcome decodeServerWelcome m.encode m.toGodot) ∧
    (∀ m : JoinBaseline F, Agree encodeJoinBaseline decodeJoinBaseline m.encode m.toGodot) ∧
    (∀ m : InputCmdProto F,
      Agree encodeInputCmdProto decodeInputCmdProto m.encode m.toGodot) ∧
    (∀ m : SnapshotProto F,
      Agree encodeSnapshotProto decodeSnapshotProto m.encode m.toGodot) ∧
    (∀ m : EntitySnapshotProto F,
      Agree encodeEntitySnapshotProto decodeEntitySnapshotProto m.encode m.toGodot) := by
  refine ⟨fun m => ?_, fun m => ?_, fun m => ?_, fun m => ?_, fun m => ?_⟩
  · exact .of_encode m.encode_toGodot fun _ => decode_encodeServerWelcome m.toGodot
  · exact .of_encode m.encode_toGodot fun _ => decode_encodeJoinBaseline m.toGodot
  · exact .of_encode m.encode_toGodot fun _ => decode_encodeInputCmdProto m.toGodot
  · exact .of_encode m.encode_toGodot fun _ => decode_encodeSnapshotProto m.toGodot
  · exact .of_encode m.encode_toGodot fun _ => decode_encodeEntitySnapshotProto m.toGodot

/-- Bit 63 set wherever it can be, an entity without bytes, a signalling NaN and a zero. -/
def extremeSnapshot : SnapshotProto F64.Binary64 :=
  ⟨0x8000000000000000, [⟨0, [], []⟩, ⟨0xFFFFFFFFFFFFFFFF, [⟨0x7FF0000000000001⟩, ⟨0⟩], []⟩],
    0xCBF29CE484222325, 0⟩

theorem one_format_of_extremes :
    encodeToVec extremeSnapshot.encode = .ok extremeSnapshot.encode ∧
    encodeSnapshotProto extremeSnapshot.toGodot = extremeSnapshot.encode ∧
    (decodeSnapshotProto 64 extremeSnapshot.encode).value? = some extremeSnapshot.toGodot := by
  have hvec : encodeToVec extremeSnapshot.encode = .ok extremeSnapshot.encode :=
    if_pos (by decide)
  obtain ⟨-, -, -, hsnapshot, -⟩ := @one_format F64.Binary64 _
  obtain ⟨hencode, hdecode⟩ := hsnapshot extremeSnapshot _ hvec
  exact ⟨hvec, hencode, hdecode 64 (by decide)⟩

end Flowstate
