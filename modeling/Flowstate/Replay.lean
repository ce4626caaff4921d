import Flowstate.Wire

/-!
# Replay recording and verification

`ReplayRecorder` and `verifyReplay` (`crates/replay/src/lib.rs`). A verification ends with
success, with a `VerifyError`, or with a panic of the world it replays (`Fault`).
`verifyWorld a k` is the world the verifier holds after `k` replayed ticks.
-/

open Rust

namespace Flowstate

/-- The input applied for a player at a tick, as recorded. -/
structure AppliedInput (F : Type) where
  tick : Tick
  playerId : PlayerId
  moveDir : F × F
  isFallback : Bool
deriving DecidableEq

namespace AppliedInput

variable {F : Type}

def toStepInput (a : AppliedInput F) : StepInput F := ⟨a.playerId, a.moveDir⟩

def toProto (a : AppliedInput F) : AppliedInputProto F :=
  ⟨a.tick, a.playerId.toUInt32, toVec a.moveDir, a.isFallback⟩

/-- `TryFrom<AppliedInputProto>`. The player id is truncated to `u8`. -/
def tryFrom (proto : AppliedInputProto F) : Except String (AppliedInput F) :=
  match proto.moveDir with
  | [x, y] => .ok ⟨proto.tick, proto.playerId.toUInt8, (x, y), proto.isFallback⟩
  | _ => .error "move_dir must have exactly 2 elements"

end AppliedInput

/-! ## Recorder -/

structure ReplayConfig where
  seed : UInt64
  tickRateHz : UInt32
  rngAlgorithm : String
  testMode : Bool
  testPlayerIds : List PlayerId
deriving DecidableEq

structure BuildFingerprintData where
  binarySha256 : String
  targetTriple : String
  profile : String
  gitCommit : String
deriving DecidableEq

/-- Match data for the replay artifact. -/
structure ReplayRecorder (F : Type) where
  config : ReplayConfig
  entitySpawnOrder : List PlayerId
  playerEntityMapping : List (PlayerId × EntityId)
  initialBaseline : Option (Baseline F)
  inputs : List (AppliedInput F)
  buildFingerprint : Option BuildFingerprintData

namespace ReplayRecorder

variable {F : Type}

def new (config : ReplayConfig) : ReplayRecorder F := ⟨config, [], [], none, [], none⟩

def recordSpawn (r : ReplayRecorder F) (playerId : PlayerId) (entityId : EntityId) :
    ReplayRecorder F :=
  { r with
    entitySpawnOrder := r.entitySpawnOrder ++ [playerId]
    playerEntityMapping := r.playerEntityMapping ++ [(playerId, entityId)] }

def recordBaseline (r : ReplayRecorder F) (baseline : Baseline F) : ReplayRecorder F :=
  { r with initialBaseline := some baseline }

def recordInput (r : ReplayRecorder F) (input : AppliedInput F) : ReplayRecorder F :=
  { r with inputs := r.inputs ++ [input] }

def setBuildFingerprint (r : ReplayRecorder F) (fingerprint : BuildFingerprintData) :
    ReplayRecorder F :=
  { r with buildFingerprint := some fingerprint }

/-- The replay artifact. -/
def finalize [F64 F] (r : ReplayRecorder F) (finalDigest : UInt64) (checkpointTick : Tick)
    (endReason : String) : ReplayArtifact F where
  replayFormatVersion := 1
  initialBaseline := r.initialBaseline.map Baseline.toProto
  seed := r.config.seed
  rngAlgorithm := r.config.rngAlgorithm
  tickRateHz := r.config.tickRateHz
  stateDigestAlgoId := stateDigestAlgoId
  entitySpawnOrder := r.entitySpawnOrder.map UInt8.toUInt32
  playerEntityMapping := r.playerEntityMapping.map fun m => ⟨m.1.toUInt32, m.2⟩
  tuningParameters := [⟨"move_speed", moveSpeed⟩]
  inputs := r.inputs.map AppliedInput.toProto
  buildFingerprint := r.buildFingerprint.map fun f =>
    ⟨f.binarySha256, f.targetTriple, f.profile, f.gitCommit⟩
  finalDigest
  checkpointTick
  endReason
  testMode := r.config.testMode
  testPlayerIds := r.config.testPlayerIds.map UInt8.toUInt32

end ReplayRecorder

/-! ## Verification -/

/-- Replay verification error. -/
inductive VerifyError
  | buildMismatch (expected actual : String)
  | missingBaseline
  | initializationAnchorMismatch (expected actual : UInt64)
  | spawnReconstructionMismatch (playerId : PlayerId) (expectedEntityId actualEntityId : EntityId)
  | inputStreamInvalid (reason : String)
  | finalDigestMismatch (expected actual : UInt64)
  | checkpointTickMismatch (expected actual : Tick)
  | invalidFormat (reason : String)
deriving DecidableEq

/-- How a verification fails : an error it returns, or a panic. -/
inductive Fault
  | err (e : VerifyError)
  | panic (p : Panic)
deriving DecidableEq

/-- A call that can panic, inside the verifier. -/
def liftPanic {α : Type} : Except Panic α → Except Fault α
  | .ok a => .ok a
  | .error p => .error (.panic p)

/-- Options for replay verification. -/
structure VerifyOptions where
  strictBuildCheck : Bool
  currentBuild : Option BuildFingerprintData

variable {F : Type} [F64 F]

omit [F64 F] in
/-- Step 1 : the recorded build is the current one, when both are known and strict. -/
def verifyBuild (artifact : ReplayArtifact F) (options : VerifyOptions) :
    Except VerifyError Unit :=
  match artifact.buildFingerprint, options.currentBuild with
  | some recorded, some current =>
    let mismatch := recorded.binarySha256 ≠ current.binarySha256 ∨
      recorded.targetTriple ≠ current.targetTriple ∨ recorded.profile ≠ current.profile
    if mismatch ∧ options.strictBuildCheck then
      .error (.buildMismatch recorded.binarySha256 current.binarySha256)
    else .ok ()
  | _, _ => .ok ()

/-- `*input_pairs.entry(key).or_insert(0) += 1`. -/
def countInput {K : Type} [DecidableEq K] (m : HashMap K ℕ) (key : K) : HashMap K ℕ :=
  m.insert key ((m.lookup key).getD 0 + 1)

omit [F64 F] in
/-- Each mapped player has exactly one input at every tick of the range, and no input is
outside the range or of another player. -/
def validateInputStream (artifact : ReplayArtifact F) : Except VerifyError Unit :=
  match artifact.initialBaseline with
  | none => .error .missingBaseline
  | some baseline => do
    let initialTick := baseline.tick
    let checkpointTick := artifact.checkpointTick
    let playerIds := artifact.playerEntityMapping.map PlayerEntityMapping.playerId
    let inputPairs : HashMap (UInt32 × Tick) ℕ :=
      artifact.inputs.foldl (fun m input => countInput m (input.playerId, input.tick)) ∅
    playerIds.forM fun playerId =>
      (rangeU64 initialTick checkpointTick).forM fun tick =>
        match inputPairs.lookup (playerId, tick) with
        | none => .error (.inputStreamInvalid
            s!"Missing input for player {playerId} at tick {tick}")
        | some count =>
          if 1 < count then
            .error (.inputStreamInvalid
              s!"Duplicate input for player {playerId} at tick {tick}")
          else .ok ()
    artifact.inputs.forM fun input =>
      if input.tick < initialTick ∨ checkpointTick ≤ input.tick then
        .error (.inputStreamInvalid (s!"Input for player {input.playerId} at tick {input.tick} " ++
          s!"is outside valid range [{initialTick}, {checkpointTick})"))
      else if input.playerId ∉ playerIds then
        .error (.inputStreamInvalid s!"Input references unknown player_id {input.playerId}")
      else .ok ()

omit [F64 F] in
/-- The player to entity map, the last row of a player winning. -/
def playerEntityMap (artifact : ReplayArtifact F) : HashMap UInt32 EntityId :=
  artifact.playerEntityMapping.foldl (fun m row => m.insert row.playerId row.entityId) ∅

/-- Step 4 : respawn the players in order, comparing the entity ids of mapped ones. -/
def respawn (entities : HashMap UInt32 EntityId) : List UInt32 → World F → Except Fault (World F)
  | [], world => .ok world
  | id :: ids, world => do
    let playerId := id.toUInt8
    let (world, actualEntityId) ← liftPanic (world.spawnCharacter playerId)
    match entities.lookup id with
    | some expectedEntityId =>
      if actualEntityId ≠ expectedEntityId then
        .error (.err (.spawnReconstructionMismatch playerId expectedEntityId actualEntityId))
      else respawn entities ids world
    | none => respawn entities ids world

/-- Steps 3 and 4 : the world before the first replayed tick. -/
def reconstruct (artifact : ReplayArtifact F) : Except Fault (World F) := do
  let world ← liftPanic (World.new artifact.seed artifact.tickRateHz)
  respawn (playerEntityMap artifact) artifact.entitySpawnOrder world

omit [F64 F] in
/-- The recorded inputs in storage order, as applied inputs. -/
def convertInputs : List (AppliedInputProto F) → Except VerifyError (List (AppliedInput F))
  | [] => .ok []
  | proto :: protos =>
    match AppliedInput.tryFrom proto with
    | .error e => .error (.invalidFormat e)
    | .ok input => do
      let inputs ← convertInputs protos
      return input :: inputs

omit [F64 F] in
/-- The inputs of each tick, in storage order. -/
def inputsByTick (inputs : List (AppliedInput F)) : HashMap Tick (List (AppliedInput F)) :=
  inputs.foldl (fun m input => m.insert input.tick ((m.lookup input.tick).getD [] ++ [input])) ∅

omit [F64 F] in
/-- The step inputs of a tick, sorted by player. -/
def stepInputsAt (groups : HashMap Tick (List (AppliedInput F))) (tick : Tick) :
    List (StepInput F) :=
  let stepInputs := ((groups.lookup tick).getD []).map AppliedInput.toStepInput
  sortByKey (fun i => i.playerId.toNat) stepInputs

/-- Step 6 : advance through the ticks. -/
def replayTicks (groups : HashMap Tick (List (AppliedInput F))) :
    List Tick → World F → Except Panic (World F)
  | [], world => .ok world
  | tick :: ticks, world => do
    let (world, _) ← world.advance tick (stepInputsAt groups tick)
    replayTicks groups ticks world

/-- Steps 2 to 6, the replay stopped after `k` ticks. -/
def verifyWorld (artifact : ReplayArtifact F) (k : ℕ) : Except Fault (World F) := do
  (validateInputStream artifact).mapError .err
  match artifact.initialBaseline with
  | none => .error (.err .missingBaseline)
  | some baselineProto =>
    let world ← reconstruct artifact
    let digest := world.baseline.digest
    if digest ≠ baselineProto.digest then
      .error (.err (.initializationAnchorMismatch baselineProto.digest digest))
    else
      let inputs ← (convertInputs artifact.inputs).mapError .err
      let ticks := (rangeU64 baselineProto.tick artifact.checkpointTick).take k
      liftPanic (replayTicks (inputsByTick inputs) ticks world)

omit [F64 F] in
/-- The number of ticks the verifier replays. -/
def replayLength (artifact : ReplayArtifact F) : ℕ :=
  match artifact.initialBaseline with
  | none => 0
  | some baseline => artifact.checkpointTick.toNat - baseline.tick.toNat

/-- Verify that a replay artifact produces the recorded outcome. -/
def verifyReplay (artifact : ReplayArtifact F) (options : VerifyOptions) : Except Fault Unit := do
  (verifyBuild artifact options).mapError .err
  let world ← verifyWorld artifact (replayLength artifact)
  if world.tick ≠ artifact.checkpointTick then
    .error (.err (.checkpointTickMismatch artifact.checkpointTick world.tick))
  else
    let actualDigest := world.stateDigest
    if actualDigest ≠ artifact.finalDigest then
      .error (.err (.finalDigestMismatch artifact.finalDigest actualDigest))
    else .ok ()

end Flowstate
