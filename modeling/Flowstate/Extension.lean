import Flowstate.Fields

/-!
# Fields the decoders do not know

A peer of a later version may write fields that `WireCodec` has no branch for. An encoding
with such fields at its boundaries, those of its embedded entities included (`Extended`), is
decoded as the encoding without them (`skips_unknown_fields`).
-/

open Protobuf Logged

namespace Flowstate.Godot

/-! ## Encodings by their fields -/

def ServerWelcome.fields (msg : ServerWelcome) : List PackedByteArray :=
  [uint64Field 1 msg.targetTickFloor.toUInt64, uint64Field 2 msg.tickRateHz.toUInt64,
    uint64Field 3 msg.playerId.toUInt64, uint64Field 4 msg.controlledEntityId.toUInt64]

def EntitySnapshotProto.fields (msg : EntitySnapshotProto) : List PackedByteArray :=
  [uint64Field 1 msg.entityId.toUInt64, packedDoubleField 2 msg.position,
    packedDoubleField 3 msg.velocity]

/-- The fields, with `parts` as the bytes of the entities. -/
def JoinBaseline.fields (msg : JoinBaseline) (parts : List PackedByteArray) :
    List PackedByteArray :=
  [uint64Field 1 msg.tick.toUInt64] ++ parts.map (record 2) ++
    [uint64Field 3 msg.digest.toUInt64]

def InputCmdProto.fields (msg : InputCmdProto) : List PackedByteArray :=
  [uint64Field 1 msg.tick.toUInt64, uint64Field 2 msg.inputSeq.toUInt64,
    packedDoubleField 3 msg.moveDir]

/-- The fields, with `parts` as the bytes of the entities. -/
def SnapshotProto.fields (msg : SnapshotProto) (parts : List PackedByteArray) :
    List PackedByteArray :=
  [uint64Field 1 msg.tick.toUInt64] ++ parts.map (record 2) ++
    [uint64Field 3 msg.digest.toUInt64, uint64Field 4 msg.targetTickFloor.toUInt64]

namespace WireCodec

theorem encodeServerWelcome_eq (msg : ServerWelcome) :
    encodeServerWelcome msg = msg.fields.flatten := by
  simp only [encodeServerWelcome, ByteWriter.toBytes, bytes_writeScalar, ServerWelcome.fields,
    List.flatten_cons, List.flatten_nil, List.append_assoc, List.append_nil]
  rfl

theorem encodeEntitySnapshotProto_eq (msg : EntitySnapshotProto) :
    encodeEntitySnapshotProto msg = msg.fields.flatten := by
  simp only [encodeEntitySnapshotProto, ByteWriter.toBytes, bytes_writePackedDoubles,
    bytes_writeScalar, EntitySnapshotProto.fields, List.flatten_cons, List.flatten_nil,
    List.append_assoc, List.append_nil]
  rfl

theorem encodeJoinBaseline_eq (msg : JoinBaseline) : encodeJoinBaseline msg =
    (msg.fields (msg.entities.map encodeEntitySnapshotProto)).flatten := by
  simp only [encodeJoinBaseline, ByteWriter.toBytes, bytes_writeScalar, bytes_foldl_writeEntity,
    JoinBaseline.fields, List.flatten_append, List.flatten_cons, List.flatten_nil,
    List.append_nil, repeatedMessageField, ← List.flatMap_def]
  rfl

theorem encodeInputCmdProto_eq (msg : InputCmdProto) :
    encodeInputCmdProto msg = msg.fields.flatten := by
  simp only [encodeInputCmdProto, ByteWriter.toBytes, bytes_writePackedDoubles,
    bytes_writeScalar, InputCmdProto.fields, List.flatten_cons, List.flatten_nil,
    List.append_assoc, List.append_nil]
  rfl

theorem encodeSnapshotProto_eq (msg : SnapshotProto) : encodeSnapshotProto msg =
    (msg.fields (msg.entities.map encodeEntitySnapshotProto)).flatten := by
  simp only [encodeSnapshotProto, ByteWriter.toBytes, bytes_writeScalar, bytes_foldl_writeEntity,
    SnapshotProto.fields, List.flatten_append, List.flatten_cons, List.flatten_nil,
    List.append_nil, List.append_assoc, repeatedMessageField, ← List.flatMap_def]
  rfl

end WireCodec

/-! ## Encodings with unknown fields -/

/-- The encoding of the message, with fields of other numbers at any field boundary. -/
def ServerWelcome.Extended (msg : ServerWelcome) (bytes : PackedByteArray) : Prop :=
  Padded [1, 2, 3, 4] msg.fields bytes

def EntitySnapshotProto.Extended (msg : EntitySnapshotProto) (bytes : PackedByteArray) : Prop :=
  Padded [1, 2, 3] msg.fields bytes

/-- The entities may be extended too, each within a record of its new length. -/
def JoinBaseline.Extended (msg : JoinBaseline) (bytes : PackedByteArray) : Prop :=
  ∃ parts, List.Forall₂ EntitySnapshotProto.Extended msg.entities parts ∧
    Padded [1, 2, 3] (msg.fields parts) bytes

def InputCmdProto.Extended (msg : InputCmdProto) (bytes : PackedByteArray) : Prop :=
  Padded [1, 2, 3] msg.fields bytes

/-- The entities may be extended too, each within a record of its new length. -/
def SnapshotProto.Extended (msg : SnapshotProto) (bytes : PackedByteArray) : Prop :=
  ∃ parts, List.Forall₂ EntitySnapshotProto.Extended msg.entities parts ∧
    Padded [1, 2, 3, 4] (msg.fields parts) bytes

namespace WireCodec

theorem extended_encodeServerWelcome (msg : ServerWelcome) :
    msg.Extended (encodeServerWelcome msg) := by
  rw [encodeServerWelcome_eq]
  exact .flatten _ _

theorem extended_encodeEntitySnapshotProto (msg : EntitySnapshotProto) :
    msg.Extended (encodeEntitySnapshotProto msg) := by
  rw [encodeEntitySnapshotProto_eq]
  exact .flatten _ _

theorem extended_entities (entities : List EntitySnapshotProto) :
    List.Forall₂ EntitySnapshotProto.Extended entities
      (entities.map encodeEntitySnapshotProto) :=
  List.forall₂_map_right_iff.2 (List.forall₂_same.2 fun e _ =>
    extended_encodeEntitySnapshotProto e)

theorem extended_encodeJoinBaseline (msg : JoinBaseline) :
    msg.Extended (encodeJoinBaseline msg) := by
  rw [encodeJoinBaseline_eq]
  exact ⟨_, extended_entities msg.entities, .flatten _ _⟩

theorem extended_encodeInputCmdProto (msg : InputCmdProto) :
    msg.Extended (encodeInputCmdProto msg) := by
  rw [encodeInputCmdProto_eq]
  exact .flatten _ _

theorem extended_encodeSnapshotProto (msg : SnapshotProto) :
    msg.Extended (encodeSnapshotProto msg) := by
  rw [encodeSnapshotProto_eq]
  exact ⟨_, extended_entities msg.entities, .flatten _ _⟩

/-! ## Decoders load the fields and skip the others -/

variable {M : Type} {onField : OnField M} {fuel : ℕ} {bytes : PackedByteArray}
  {r : ByteReader} {rest : PackedByteArray}

theorem skips_serverWelcome : Skips [1, 2, 3, 4] (onServerWelcomeField fuel) fuel := by
  intro fieldNumber wireType msg r h
  have h1 : fieldNumber ≠ 1 := h 1 (by decide)
  have h2 : fieldNumber ≠ 2 := h 2 (by decide)
  have h3 : fieldNumber ≠ 3 := h 3 (by decide)
  have h4 : fieldNumber ≠ 4 := h 4 (by decide)
  rw [onServerWelcomeField, if_neg h1, if_neg h2, if_neg h3, if_neg h4]

theorem skips_entitySnapshotProto : Skips [1, 2, 3] (onEntitySnapshotProtoField fuel) fuel := by
  intro fieldNumber wireType msg r h
  have h1 : fieldNumber ≠ 1 := h 1 (by decide)
  have h2 : fieldNumber ≠ 2 := h 2 (by decide)
  have h3 : fieldNumber ≠ 3 := h 3 (by decide)
  rw [onEntitySnapshotProtoField, if_neg h1, if_neg h2, if_neg h3]

theorem skips_joinBaseline : Skips [1, 2, 3] (onJoinBaselineField fuel) fuel := by
  intro fieldNumber wireType msg r h
  have h1 : fieldNumber ≠ 1 := h 1 (by decide)
  have h2 : fieldNumber ≠ 2 := h 2 (by decide)
  have h3 : fieldNumber ≠ 3 := h 3 (by decide)
  rw [onJoinBaselineField, if_neg h1, if_neg h2, if_neg h3]

theorem skips_inputCmdProto : Skips [1, 2, 3] (onInputCmdProtoField fuel) fuel := by
  intro fieldNumber wireType msg r h
  have h1 : fieldNumber ≠ 1 := h 1 (by decide)
  have h2 : fieldNumber ≠ 2 := h 2 (by decide)
  have h3 : fieldNumber ≠ 3 := h 3 (by decide)
  rw [onInputCmdProtoField, if_neg h1, if_neg h2, if_neg h3]

theorem skips_snapshotProto : Skips [1, 2, 3, 4] (onSnapshotProtoField fuel) fuel := by
  intro fieldNumber wireType msg r h
  have h1 : fieldNumber ≠ 1 := h 1 (by decide)
  have h2 : fieldNumber ≠ 2 := h 2 (by decide)
  have h3 : fieldNumber ≠ 3 := h 3 (by decide)
  have h4 : fieldNumber ≠ 4 := h 4 (by decide)
  rw [onSnapshotProtoField, if_neg h1, if_neg h2, if_neg h3, if_neg h4]

theorem loadsAll_serverWelcome (msg : ServerWelcome) :
    LoadsAll (onServerWelcomeField fuel) fuel .new msg.fields msg := by
  obtain ⟨a, b, c, d⟩ := msg
  have h1 : Loads (onServerWelcomeField fuel) fuel ⟨0, 0, 0, 0⟩ (uint64Field 1 a.toUInt64)
      ⟨a, 0, 0, 0⟩ :=
    Loads.scalar (ServerWelcome.mk · 0 0 0) (by decide) fun _ => rfl
  have h2 : Loads (onServerWelcomeField fuel) fuel ⟨a, 0, 0, 0⟩ (uint64Field 2 b.toUInt64)
      ⟨a, b, 0, 0⟩ :=
    Loads.scalar (ServerWelcome.mk a · 0 0) (by decide) fun _ => rfl
  have h3 : Loads (onServerWelcomeField fuel) fuel ⟨a, b, 0, 0⟩ (uint64Field 3 c.toUInt64)
      ⟨a, b, c, 0⟩ :=
    Loads.scalar (ServerWelcome.mk a b · 0) (by decide) fun _ => rfl
  have h4 : Loads (onServerWelcomeField fuel) fuel ⟨a, b, c, 0⟩ (uint64Field 4 d.toUInt64)
      ⟨a, b, c, d⟩ :=
    Loads.scalar (ServerWelcome.mk a b c ·) (by decide) fun _ => rfl
  exact .cons h1 (.cons h2 (.cons h3 (.cons h4 .nil)))

theorem loadsAll_entitySnapshotProto (msg : EntitySnapshotProto) :
    LoadsAll (onEntitySnapshotProtoField fuel) fuel .new msg.fields msg := by
  obtain ⟨entityId, position, velocity⟩ := msg
  have h1 : Loads (onEntitySnapshotProtoField fuel) fuel ⟨0, [], []⟩
      (uint64Field 1 entityId.toUInt64) ⟨entityId, [], []⟩ :=
    Loads.scalar (EntitySnapshotProto.mk · [] []) (by decide) fun _ => rfl
  have h2 : Loads (onEntitySnapshotProtoField fuel) fuel ⟨entityId, [], []⟩
      (packedDoubleField 2 position) ⟨entityId, position, []⟩ :=
    Loads.doubles (EntitySnapshotProto.mk entityId · []) (by decide) fun _ => rfl
  have h3 : Loads (onEntitySnapshotProtoField fuel) fuel ⟨entityId, position, []⟩
      (packedDoubleField 3 velocity) ⟨entityId, position, velocity⟩ :=
    Loads.doubles (EntitySnapshotProto.mk entityId position ·) (by decide) fun _ => rfl
  exact .cons h1 (.cons h2 (.cons h3 .nil))

theorem decodeEntitySnapshotProto_of_extended {msg : EntitySnapshotProto}
    (h : msg.Extended bytes) (hfuel : bytes.length ≤ fuel) (hlen : bytes.length < 2 ^ 63) :
    (decodeEntitySnapshotProto fuel bytes).value? = some msg :=
  Loads.decodeLoop_eq ((loadsAll_entitySnapshotProto msg).padded skips_entitySnapshotProto
    (by decide) h) hfuel hlen

theorem readEntity_of_extended {es : List EntitySnapshotProto}
    {set : List EntitySnapshotProto → M} {entity : EntitySnapshotProto}
    {part : PackedByteArray} (hpart : entity.Extended part)
    (h : r.Ahead (varint (UInt64.ofNat part.length) ++ part ++ rest))
    (hfuel : (varint (UInt64.ofNat part.length) ++ part ++ rest).length ≤ fuel) :
    ∃ r', (readEntity fuel es set r).value? = some (set (es ++ [entity]), r') ∧
      r'.Ahead rest := by
  rw [List.append_assoc] at h hfuel
  obtain ⟨r₁, hlength, h₁⟩ := readVarint_length h hfuel
  obtain ⟨r₂, hbytes, h₂⟩ := h₁.readBytes
  refine ⟨r₂, ?_, h₂⟩
  have hlt := h₁.length_lt
  simp only [List.length_append] at hlt hfuel
  have hentity : (decodeEntitySnapshotProto fuel part).value? = some entity :=
    decodeEntitySnapshotProto_of_extended hpart (by omega) (by omega)
  rw [readEntity]
  simp only [value?_bind, hlength, hbytes, hentity, value?_append, Option.bind_some, value?_pure]

/-- A repeated message field : its elements are appended one record after the other. -/
theorem LoadsAll.entities {tag : UInt64} (f : List EntitySnapshotProto → M) (htag : tag < 0x10)
    (hfield : ∀ es r, onField tag.toInt64 WireType.lengthDelimited.code.toInt64 (f es) r =
      readEntity fuel es f r) {entities : List EntitySnapshotProto}
    {parts : List PackedByteArray}
    (h : List.Forall₂ EntitySnapshotProto.Extended entities parts)
    (es : List EntitySnapshotProto) :
    LoadsAll onField fuel (f es) (parts.map (record tag)) (f (es ++ entities)) := by
  induction h generalizing es with
  | nil =>
    rw [List.append_nil]
    exact .nil
  | @cons entity part entities parts hpart _ ih =>
    have hone : Loads onField fuel (f es) (record tag part) (f (es ++ [entity])) := by
      rw [record, List.append_assoc]
      refine Loads.field htag fun r rest hr hfuel => ?_
      rw [hfield]
      exact readEntity_of_extended hpart hr hfuel
    have hrest := ih (es ++ [entity])
    rw [List.append_assoc, List.singleton_append] at hrest
    exact .cons hone hrest

theorem loadsAll_joinBaseline {msg : JoinBaseline} {parts : List PackedByteArray}
    (h : List.Forall₂ EntitySnapshotProto.Extended msg.entities parts) :
    LoadsAll (onJoinBaselineField fuel) fuel .new (msg.fields parts) msg := by
  obtain ⟨tick, entities, digest⟩ := msg
  have h1 : Loads (onJoinBaselineField fuel) fuel ⟨0, [], 0⟩ (uint64Field 1 tick.toUInt64)
      ⟨tick, [], 0⟩ :=
    Loads.scalar (JoinBaseline.mk · [] 0) (by decide) fun _ => rfl
  have h2 : LoadsAll (onJoinBaselineField fuel) fuel ⟨tick, [], 0⟩ (parts.map (record 2))
      ⟨tick, entities, 0⟩ :=
    LoadsAll.entities (JoinBaseline.mk tick · 0) (by decide) (fun _ _ => rfl) h []
  have h3 : Loads (onJoinBaselineField fuel) fuel ⟨tick, entities, 0⟩
      (uint64Field 3 digest.toUInt64) ⟨tick, entities, digest⟩ :=
    Loads.scalar (JoinBaseline.mk tick entities ·) (by decide) fun _ => rfl
  exact ((LoadsAll.cons h1 .nil).append h2).append (.cons h3 .nil)

theorem loadsAll_inputCmdProto (msg : InputCmdProto) :
    LoadsAll (onInputCmdProtoField fuel) fuel .new msg.fields msg := by
  obtain ⟨tick, inputSeq, moveDir⟩ := msg
  have h1 : Loads (onInputCmdProtoField fuel) fuel ⟨0, 0, []⟩ (uint64Field 1 tick.toUInt64)
      ⟨tick, 0, []⟩ :=
    Loads.scalar (InputCmdProto.mk · 0 []) (by decide) fun _ => rfl
  have h2 : Loads (onInputCmdProtoField fuel) fuel ⟨tick, 0, []⟩
      (uint64Field 2 inputSeq.toUInt64) ⟨tick, inputSeq, []⟩ :=
    Loads.scalar (InputCmdProto.mk tick · []) (by decide) fun _ => rfl
  have h3 : Loads (onInputCmdProtoField fuel) fuel ⟨tick, inputSeq, []⟩
      (packedDoubleField 3 moveDir) ⟨tick, inputSeq, moveDir⟩ :=
    Loads.doubles (InputCmdProto.mk tick inputSeq ·) (by decide) fun _ => rfl
  exact .cons h1 (.cons h2 (.cons h3 .nil))

theorem loadsAll_snapshotProto {msg : SnapshotProto} {parts : List PackedByteArray}
    (h : List.Forall₂ EntitySnapshotProto.Extended msg.entities parts) :
    LoadsAll (onSnapshotProtoField fuel) fuel .new (msg.fields parts) msg := by
  obtain ⟨tick, entities, digest, floor⟩ := msg
  have h1 : Loads (onSnapshotProtoField fuel) fuel ⟨0, [], 0, 0⟩ (uint64Field 1 tick.toUInt64)
      ⟨tick, [], 0, 0⟩ :=
    Loads.scalar (SnapshotProto.mk · [] 0 0) (by decide) fun _ => rfl
  have h2 : LoadsAll (onSnapshotProtoField fuel) fuel ⟨tick, [], 0, 0⟩ (parts.map (record 2))
      ⟨tick, entities, 0, 0⟩ :=
    LoadsAll.entities (SnapshotProto.mk tick · 0 0) (by decide) (fun _ _ => rfl) h []
  have h3 : Loads (onSnapshotProtoField fuel) fuel ⟨tick, entities, 0, 0⟩
      (uint64Field 3 digest.toUInt64) ⟨tick, entities, digest, 0⟩ :=
    Loads.scalar (SnapshotProto.mk tick entities · 0) (by decide) fun _ => rfl
  have h4 : Loads (onSnapshotProtoField fuel) fuel ⟨tick, entities, digest, 0⟩
      (uint64Field 4 floor.toUInt64) ⟨tick, entities, digest, floor⟩ :=
    Loads.scalar (SnapshotProto.mk tick entities digest ·) (by decide) fun _ => rfl
  exact ((LoadsAll.cons h1 .nil).append h2).append (.cons h3 (.cons h4 .nil))

theorem decodeServerWelcome_of_extended {msg : ServerWelcome} (h : msg.Extended bytes)
    (hfuel : bytes.length ≤ fuel) (hlen : bytes.length < 2 ^ 63) :
    (decodeServerWelcome fuel bytes).value? = some msg :=
  Loads.decodeLoop_eq ((loadsAll_serverWelcome msg).padded skips_serverWelcome (by decide) h)
    hfuel hlen

theorem decodeJoinBaseline_of_extended {msg : JoinBaseline} (h : msg.Extended bytes)
    (hfuel : bytes.length ≤ fuel) (hlen : bytes.length < 2 ^ 63) :
    (decodeJoinBaseline fuel bytes).value? = some msg := by
  obtain ⟨parts, hparts, hpadded⟩ := h
  exact Loads.decodeLoop_eq ((loadsAll_joinBaseline hparts).padded skips_joinBaseline
    (by decide) hpadded) hfuel hlen

theorem decodeInputCmdProto_of_extended {msg : InputCmdProto} (h : msg.Extended bytes)
    (hfuel : bytes.length ≤ fuel) (hlen : bytes.length < 2 ^ 63) :
    (decodeInputCmdProto fuel bytes).value? = some msg :=
  Loads.decodeLoop_eq ((loadsAll_inputCmdProto msg).padded skips_inputCmdProto (by decide) h)
    hfuel hlen

theorem decodeSnapshotProto_of_extended {msg : SnapshotProto} (h : msg.Extended bytes)
    (hfuel : bytes.length ≤ fuel) (hlen : bytes.length < 2 ^ 63) :
    (decodeSnapshotProto fuel bytes).value? = some msg := by
  obtain ⟨parts, hparts, hpadded⟩ := h
  exact Loads.decodeLoop_eq ((loadsAll_snapshotProto hparts).padded skips_snapshotProto
    (by decide) hpadded) hfuel hlen

/-- Unknown fields are skipped : whatever message is extended to the bytes, at the top or
inside its entities, the decoder returns that message, in as many rounds as there are bytes. -/
theorem skips_unknown_fields {bytes : PackedByteArray} {fuel : ℕ}
    (hlen : bytes.length < 2 ^ 63) (hfuel : bytes.length ≤ fuel) :
    (∀ msg : ServerWelcome, msg.Extended bytes →
      (decodeServerWelcome fuel bytes).value? = some msg) ∧
    (∀ msg : EntitySnapshotProto, msg.Extended bytes →
      (decodeEntitySnapshotProto fuel bytes).value? = some msg) ∧
    (∀ msg : JoinBaseline, msg.Extended bytes →
      (decodeJoinBaseline fuel bytes).value? = some msg) ∧
    (∀ msg : InputCmdProto, msg.Extended bytes →
      (decodeInputCmdProto fuel bytes).value? = some msg) ∧
    (∀ msg : SnapshotProto, msg.Extended bytes →
      (decodeSnapshotProto fuel bytes).value? = some msg) := by
  refine ⟨fun msg h => ?_, fun msg h => ?_, fun msg h => ?_, fun msg h => ?_, fun msg h => ?_⟩
  · exact decodeServerWelcome_of_extended h hfuel hlen
  · exact decodeEntitySnapshotProto_of_extended h hfuel hlen
  · exact decodeJoinBaseline_of_extended h hfuel hlen
  · exact decodeInputCmdProto_of_extended h hfuel hlen
  · exact decodeSnapshotProto_of_extended h hfuel hlen

/-- A record in front, a field of four bytes inside the entity, and at the end a field of
eight bytes with the largest number and a varint. -/
def extendedSnapshot : PackedByteArray :=
  [0x7A, 0x01, 0xFF, 0x08, 0x05, 0x12, 0x07, 0x08, 0x07, 0x4D, 0x01, 0x02, 0x03, 0x04,
    0xF9, 0xFF, 0xFF, 0xFF, 0x0F, 0x01, 0x02, 0x03, 0x04, 0x05, 0x06, 0x07, 0x08,
    0x80, 0x01, 0x2A]

theorem extended_extendedSnapshot :
    SnapshotProto.Extended ⟨5, [⟨7, [], []⟩], 0, 0⟩ extendedSnapshot := by
  have hrecord : Field 15 (varint 122 ++ (varint 1 ++ [0xFF])) :=
    .mk (by decide) (by decide) (isVarint_varint _)
      (.lengthDelimited (isVarint_varint _) (by decide))
  have hfour : Field 9 (varint 77 ++ [0x01, 0x02, 0x03, 0x04]) :=
    .mk (by decide) (by decide) (isVarint_varint _) (.fixed32 rfl)
  have height : Field (2 ^ 29 - 1)
      (varint 0xFFFFFFF9 ++ [0x01, 0x02, 0x03, 0x04, 0x05, 0x06, 0x07, 0x08]) :=
    .mk (by decide) (by decide) (isVarint_varint _) (.fixed64 rfl)
  have hvarint : Field 16 (varint 128 ++ varint 42) :=
    .mk (by decide) (by decide) (isVarint_varint _) (.varint (isVarint_varint _))
  have hpart : EntitySnapshotProto.Extended ⟨7, [], []⟩
      [0x08, 0x07, 0x4D, 0x01, 0x02, 0x03, 0x04] :=
    .cons .nil (.cons .nil (.cons .nil (.nil (.cons hfour (by decide) .nil))))
  refine ⟨_, .cons hpart .nil, ?_⟩
  have hpad : Unknown [1, 2, 3, 4] [0x7A, 0x01, 0xFF] := .cons hrecord (by decide) .nil
  exact .cons hpad (.cons .nil (.cons .nil (.cons .nil
    (.nil (.cons height (by decide) (.cons hvarint (by decide) .nil))))))

theorem skips_unknown_fields_of_snapshot :
    (decodeSnapshotProto 64 extendedSnapshot).value? = some ⟨5, [⟨7, [], []⟩], 0, 0⟩ := by
  have hskips := @skips_unknown_fields extendedSnapshot 64 (by decide) (by decide)
  exact hskips.2.2.2.2 _ extended_extendedSnapshot

end WireCodec

end Flowstate.Godot
