import Flowstate.Protobuf
import Flowstate.Sim

/-!
# Wire messages

The messages between client and server and the replay artifact (`crates/wire/src/lib.rs`),
with the encoding of those a client and the server exchange.
-/

open Rust

namespace Flowstate

/-- Welcome of one session. -/
structure ServerWelcome where
  targetTickFloor : Tick
  tickRateHz : UInt32
  playerId : UInt32
  controlledEntityId : EntityId
deriving DecidableEq

/-- Entity state embedded in `JoinBaseline` and `SnapshotProto`. -/
structure EntitySnapshotProto (F : Type) where
  entityId : EntityId
  position : List F
  velocity : List F
deriving DecidableEq

/-- Baseline sent after the welcome, and a replay's initial baseline. -/
structure JoinBaseline (F : Type) where
  tick : Tick
  entities : List (EntitySnapshotProto F)
  digest : UInt64
deriving DecidableEq

/-- Client input for one tick. The player is bound by the server from the session. -/
structure InputCmdProto (F : Type) where
  tick : Tick
  inputSeq : UInt64
  moveDir : List F
deriving DecidableEq

/-- Server snapshot broadcast. -/
structure SnapshotProto (F : Type) where
  tick : Tick
  entities : List (EntitySnapshotProto F)
  digest : UInt64
  targetTickFloor : Tick
deriving DecidableEq

/-- Applied input recorded for replay. -/
structure AppliedInputProto (F : Type) where
  tick : Tick
  playerId : UInt32
  moveDir : List F
  isFallback : Bool
deriving DecidableEq

structure PlayerEntityMapping where
  playerId : UInt32
  entityId : EntityId
deriving DecidableEq

structure TuningParameter (F : Type) where
  key : String
  value : F
deriving DecidableEq

structure BuildFingerprint where
  binarySha256 : String
  targetTriple : String
  profile : String
  gitCommit : String
deriving DecidableEq

/-- Complete replay artifact. -/
structure ReplayArtifact (F : Type) where
  replayFormatVersion : UInt32
  initialBaseline : Option (JoinBaseline F)
  seed : UInt64
  rngAlgorithm : String
  tickRateHz : UInt32
  stateDigestAlgoId : String
  entitySpawnOrder : List UInt32
  playerEntityMapping : List PlayerEntityMapping
  tuningParameters : List (TuningParameter F)
  inputs : List (AppliedInputProto F)
  buildFingerprint : Option BuildFingerprint
  finalDigest : UInt64
  checkpointTick : Tick
  endReason : String
  testMode : Bool
  testPlayerIds : List UInt32
deriving DecidableEq

/-- `[f64; 2]::to_vec`. -/
def toVec {F : Type} (v : F × F) : List F := [v.1, v.2]

/-- The protobuf form of an entity's state. -/
def EntitySnapshot.toProto {F : Type} (e : EntitySnapshot F) : EntitySnapshotProto F :=
  ⟨e.entityId, toVec e.position, toVec e.velocity⟩

/-- The protobuf form of a baseline. -/
def Baseline.toProto {F : Type} (b : Baseline F) : JoinBaseline F :=
  ⟨b.tick, b.entities.map EntitySnapshot.toProto, b.digest⟩

open Protobuf in
def ServerWelcome.encode (m : ServerWelcome) : Bytes :=
  uint64Field 1 m.targetTickFloor ++
    uint64Field 2 m.tickRateHz.toUInt64 ++
    uint64Field 3 m.playerId.toUInt64 ++
    uint64Field 4 m.controlledEntityId

variable {F : Type} [F64 F]

open Protobuf in
def EntitySnapshotProto.encode (e : EntitySnapshotProto F) : Bytes :=
  uint64Field 1 e.entityId ++
    packedDoubleField 2 (e.position.map F64.toBits) ++
    packedDoubleField 3 (e.velocity.map F64.toBits)

open Protobuf in
def JoinBaseline.encode (b : JoinBaseline F) : Bytes :=
  uint64Field 1 b.tick ++
    repeatedMessageField 2 (b.entities.map EntitySnapshotProto.encode) ++
    uint64Field 3 b.digest

open Protobuf in
def InputCmdProto.encode (c : InputCmdProto F) : Bytes :=
  uint64Field 1 c.tick ++
    uint64Field 2 c.inputSeq ++
    packedDoubleField 3 (c.moveDir.map F64.toBits)

open Protobuf in
def SnapshotProto.encode (s : SnapshotProto F) : Bytes :=
  uint64Field 1 s.tick ++
    repeatedMessageField 2 (s.entities.map EntitySnapshotProto.encode) ++
    uint64Field 3 s.digest ++
    uint64Field 4 s.targetTickFloor

end Flowstate
