import Flowstate.InputBuffer
import Flowstate.Machine
import Flowstate.Replay

/-!
# The server edge

`Server` and its operations (`crates/server/src/lib.rs`) : sessions come and go at any
time, inputs are validated and buffered, and `step` applies one input per spawned player.
`serverMachine` executes the operations one at a time, and a run of a server is a run of
that machine from `Server.new`. A panic of any operation ends the run.
-/

open Rust

namespace Flowstate

/-- Server-internal session identifier. -/
abbrev SessionId := UInt64

/-- Client session state. -/
structure Session where
  id : SessionId
  playerId : PlayerId
  controlledEntityId : EntityId
  lastValidTick : Option UInt64
  lastInputSeq : Option UInt64
deriving DecidableEq

def Session.new (id : SessionId) (playerId : PlayerId) (controlledEntityId : EntityId) : Session :=
  ⟨id, playerId, controlledEntityId, none, none⟩

/-- Reason for match termination. -/
inductive EndReason
  | complete
deriving DecidableEq

def EndReason.asStr : EndReason → String
  | .complete => "complete"

/-- Server configuration. -/
structure ServerConfig where
  seed : UInt64 := 0
  tickRateHz : UInt32 := 30
  maxFutureTicks : UInt64 := 60
  inputLeadTicks : UInt64 := 1
  inputRateLimitPerSec : UInt32 := 120
  matchDurationTicks : UInt64 := 1800
  connectTimeoutMs : UInt64 := 30000
  maxSessions : ℕ := 16
  testMode : Bool := false
  /-- Player ids assigned in connection order, in place of the ordinals. -/
  testPlayerIds : Option (List PlayerId) := none
deriving DecidableEq

/-- Server state for running a match. -/
structure Server (F : Type) where
  config : ServerConfig
  world : World F
  sessions : HashMap SessionId Session
  nextSessionId : SessionId
  /-- Ordinal of the next accept, never reused. -/
  nextPlayerId : PlayerId
  playerSessions : HashMap PlayerId SessionId
  sessionPlayers : HashMap SessionId PlayerId
  inputBuffer : InputBuffer F
  lastKnownIntent : HashMap PlayerId (F × F)
  lastEmittedFloor : HashMap SessionId Tick
  replayRecorder : ReplayRecorder F
  entitySpawnOrder : List PlayerId
  playerEntityMapping : HashMap PlayerId EntityId
  baselineRecorded : Bool
  buildFingerprint : Option BuildFingerprintData

variable {F : Type} [F64 F]

namespace Server

/-- A server with the given configuration. -/
def new (config : ServerConfig) : Except Panic (Server F) := do
  let validationConfig : ValidationConfig :=
    ⟨config.maxFutureTicks, config.inputRateLimitPerSec, config.tickRateHz⟩
  let replayConfig : ReplayConfig :=
    ⟨config.seed, config.tickRateHz, "none", config.testMode, config.testPlayerIds.getD []⟩
  let world ← World.new config.seed config.tickRateHz
  let inputBuffer ← InputBuffer.new validationConfig
  return {
    config
    world
    sessions := ∅
    nextSessionId := 1
    nextPlayerId := 0
    playerSessions := ∅
    sessionPlayers := ∅
    inputBuffer
    lastKnownIntent := ∅
    lastEmittedFloor := ∅
    replayRecorder := ReplayRecorder.new replayConfig
    entitySpawnOrder := []
    playerEntityMapping := ∅
    baselineRecorded := false
    buildFingerprint := none }

omit [F64 F] in
def setBuildFingerprint (s : Server F) (fingerprint : BuildFingerprintData) : Server F :=
  { s with
    buildFingerprint := some fingerprint
    replayRecorder := s.replayRecorder.setBuildFingerprint fingerprint }

omit [F64 F] in
def currentTick (s : Server F) : Tick := s.world.tick

omit [F64 F] in
def sessionCount (s : Server F) : ℕ := s.sessions.keys.length

omit [F64 F] in
/-- The player id of accept number `ordinal`. -/
def assignPlayerId (s : Server F) (ordinal : PlayerId) : Except Panic PlayerId :=
  match s.config.testPlayerIds with
  | none => .ok ordinal
  | some testIds =>
    match testIds[ordinal.toNat]? with
    | some playerId => .ok playerId
    | none => .error ⟨s!"test_player_ids exhausted: accept #{ordinal} requested but only " ++
        s!"{testIds.length} configured"⟩

/-- Accept a new session : its id, its player, and the entity it controls. -/
def acceptSession (s : Server F) :
    Except Panic (Server F × SessionId × PlayerId × EntityId) := do
  if s.config.maxSessions ≤ s.sessionCount then
    throw ⟨s!"max_sessions ({s.config.maxSessions}) exceeded"⟩
  let sessionId := s.nextSessionId
  let nextSessionId ← addU64 s.nextSessionId 1
  let ordinal := s.nextPlayerId
  let nextPlayerId ← addU8 s.nextPlayerId 1
  let playerId ← s.assignPlayerId ordinal
  let (world, entityId) ← s.world.spawnCharacter playerId
  let session := Session.new sessionId playerId entityId
  let s' := { s with
    world
    nextSessionId
    nextPlayerId
    sessions := s.sessions.insert sessionId session
    playerSessions := s.playerSessions.insert playerId sessionId
    sessionPlayers := s.sessionPlayers.insert sessionId playerId
    entitySpawnOrder := s.entitySpawnOrder ++ [playerId]
    playerEntityMapping := s.playerEntityMapping.insert playerId entityId
    replayRecorder := s.replayRecorder.recordSpawn playerId entityId
    lastKnownIntent := s.lastKnownIntent.insert playerId (F64.lit 0, F64.lit 0) }
  return (s', sessionId, playerId, entityId)

omit [F64 F] in
/-- Record the floor of a session and compute its welcome. -/
def welcomeFor (s : Server F) (sessionId : SessionId) :
    Except Panic (Server F × ServerWelcome) :=
  match s.sessions.lookup sessionId with
  | none => .error ⟨"welcome_for: unknown session_id"⟩
  | some session => do
    let targetTickFloor ← addU64 s.world.tick s.config.inputLeadTicks
    let lastEmittedFloor := s.lastEmittedFloor.insert sessionId targetTickFloor
    return ({ s with lastEmittedFloor },
      ⟨targetTickFloor, s.config.tickRateHz, session.playerId.toUInt32,
        session.controlledEntityId⟩)

omit [F64 F] in
def shouldEndMatch (s : Server F) : Option EndReason :=
  if s.config.matchDurationTicks ≤ s.world.tick then some .complete else none

/-- Remove a session and reset its player's last known intent to zero. -/
def disconnectSession (s : Server F) (sessionId : SessionId) : Server F :=
  match s.sessions.lookup sessionId with
  | none => s
  | some session =>
    { s with
      sessions := s.sessions.erase sessionId
      playerSessions := s.playerSessions.erase session.playerId
      sessionPlayers := s.sessionPlayers.erase sessionId
      lastEmittedFloor := s.lastEmittedFloor.erase sessionId
      lastKnownIntent := s.lastKnownIntent.insert session.playerId (F64.lit 0, F64.lit 0) }

/-- Validate and buffer an input of a session. -/
def receiveInput (s : Server F) (sessionId : SessionId) (input : InputCmdProto F) :
    Except Panic (Server F × ValidationResult) :=
  match s.sessionPlayers.lookup sessionId with
  | none => .ok (s, .droppedUnknownSession)
  | some playerId => do
    let floor := (s.lastEmittedFloor.lookup sessionId).getD 0
    let (inputBuffer, result) ←
      validateInput input s.world.tick floor s.inputBuffer playerId
    return ({ s with inputBuffer }, result)

/-- The direction of a command, `[0, 0]` unless it has two components. -/
def commandMoveDir (cmd : InputCmdProto F) : F × F :=
  match cmd.moveDir with
  | [x, y] => (x, y)
  | _ => (F64.lit 0, F64.lit 0)

/-- The applied input of one player : the buffered command, or the last known intent. -/
def produceInput (currentTick : Tick) (playerId : PlayerId) (inputBuffer : InputBuffer F)
    (lastKnownIntent : HashMap PlayerId (F × F)) :
    InputBuffer F × HashMap PlayerId (F × F) × AppliedInput F :=
  let (inputBuffer, taken) := inputBuffer.takeInput playerId currentTick
  let (moveDir, isFallback) :=
    match taken with
    | some cmd => (commandMoveDir cmd, false)
    | none => ((lastKnownIntent.lookup playerId).getD (F64.lit 0, F64.lit 0), true)
  let lastKnownIntent := lastKnownIntent.insert playerId moveDir
  (inputBuffer, lastKnownIntent, ⟨currentTick, playerId, moveDir, isFallback⟩)

/-- The applied inputs of the players in order. -/
def produceInputs (currentTick : Tick) : List PlayerId → InputBuffer F →
    HashMap PlayerId (F × F) →
    InputBuffer F × HashMap PlayerId (F × F) × List (AppliedInput F)
  | [], inputBuffer, lastKnownIntent => (inputBuffer, lastKnownIntent, [])
  | playerId :: playerIds, inputBuffer, lastKnownIntent =>
    let (inputBuffer, lastKnownIntent, applied) :=
      produceInput currentTick playerId inputBuffer lastKnownIntent
    let (inputBuffer, lastKnownIntent, rest) :=
      produceInputs currentTick playerIds inputBuffer lastKnownIntent
    (inputBuffer, lastKnownIntent, applied :: rest)

/-- The recorder once the initial baseline is recorded, which the first step does. -/
def recordBaselineOnce (s : Server F) : ReplayRecorder F :=
  if s.baselineRecorded then s.replayRecorder
  else s.replayRecorder.recordBaseline s.world.baseline

/-- Process a single tick : the snapshot, the new floor, and the serialized snapshot. -/
def step (s : Server F) : Except Panic (Server F × Snapshot F × Tick × Protobuf.Bytes) := do
  let replayRecorder := s.recordBaselineOnce
  let currentTick := s.world.tick
  let (inputBuffer, lastKnownIntent, appliedInputs) :=
    produceInputs currentTick s.entitySpawnOrder s.inputBuffer s.lastKnownIntent
  let replayRecorder := appliedInputs.foldl ReplayRecorder.recordInput replayRecorder
  let stepInputs :=
    sortByKey (fun i => i.playerId.toNat) (appliedInputs.map AppliedInput.toStepInput)
  let (world, snapshot) ← s.world.advance currentTick stepInputs
  let targetTickFloor ← addU64 world.tick s.config.inputLeadTicks
  let lastEmittedFloor := s.lastEmittedFloor.insertAll s.sessions.keys targetTickFloor
  let inputBuffer := inputBuffer.evictBefore world.tick
  let snapshotProto : SnapshotProto F :=
    ⟨snapshot.tick, snapshot.entities.map EntitySnapshot.toProto, snapshot.digest, targetTickFloor⟩
  let s' := { s with
    world, inputBuffer, lastKnownIntent, lastEmittedFloor, replayRecorder
    baselineRecorded := true }
  return (s', snapshot, targetTickFloor, snapshotProto.encode)

/-- Produce the replay artifact of the match. -/
def finalize (s : Server F) (endReason : EndReason) : ReplayArtifact F :=
  s.replayRecorder.finalize s.world.stateDigest s.world.tick endReason.asStr

/-- The baseline for a joining session. -/
def baselineProto (s : Server F) : JoinBaseline F := s.world.baseline.toProto

omit [F64 F] in
def sessionIds (s : Server F) : List SessionId := s.sessions.keys

end Server

/-! ## Runs -/

/-- The operations of a server. -/
inductive Op (F : Type)
  | acceptSession
  | welcomeFor (sessionId : SessionId)
  | receiveInput (sessionId : SessionId) (input : InputCmdProto F)
  | disconnectSession (sessionId : SessionId)
  | step
deriving DecidableEq

def Op.isAccept : Op F → Bool
  | .acceptSession => true
  | _ => false

def Op.isStep : Op F → Bool
  | .step => true
  | _ => false

/-- The number of accepts among `ops`. -/
def accepts (ops : List (Op F)) : ℕ := ops.countP Op.isAccept

/-- What an operation returns. -/
inductive Out (F : Type)
  | accepted (sessionId : SessionId) (playerId : PlayerId) (entityId : EntityId)
  | welcomed (welcome : ServerWelcome)
  | verdict (result : ValidationResult)
  | disconnected
  | stepped (snapshot : Snapshot F) (targetTickFloor : Tick) (bytes : Protobuf.Bytes)
deriving DecidableEq

/-- Execute one operation. -/
def Server.exec (s : Server F) : Op F → Except Panic (Server F × Out F)
  | .acceptSession => do
    let (s, sessionId, playerId, entityId) ← s.acceptSession
    return (s, .accepted sessionId playerId entityId)
  | .welcomeFor sessionId => do
    let (s, welcome) ← s.welcomeFor sessionId
    return (s, .welcomed welcome)
  | .receiveInput sessionId input => do
    let (s, result) ← s.receiveInput sessionId input
    return (s, .verdict result)
  | .disconnectSession sessionId => return (s.disconnectSession sessionId, .disconnected)
  | .step => do
    let (s, snapshot, targetTickFloor, bytes) ← s.step
    return (s, .stepped snapshot targetTickFloor bytes)

/-- The server as a machine. -/
def serverMachine (F : Type) [F64 F] : Machine (Server F) (Op F) (Out F) Panic := ⟨Server.exec⟩

/-- Run a new server through `ops`. -/
def runServer (config : ServerConfig) (ops : List (Op F)) :
    Except Panic (Server F × List (Out F)) := do
  let s ← Server.new config
  (serverMachine F).run s ops

end Flowstate
