import Flowstate.Codec

/-!
# The Godot client

The client a player runs (`client/net`, `client/match` and the handlers of
`client/scenes/match_scene.gd`) : the handshake, the snapshots it drains every frame, the
target tick floor and the state of the match it shows. The transport is left to the caller :
`process` takes the events of one drain in the order `service` returns them, and what the
client sends is kept beside it. A `none` is a script error, or a decoder without fuel.

The signals are direct calls, as the scene connects them. Its views are added to it in
`Views.lean`.
-/

namespace Flowstate.Godot

open WireCodec

/-! ## Tick floor and sequence numbers -/

/-- Client-side tracking of the target tick floor. -/
structure TickFloor where
  floor : Int64
deriving DecidableEq

namespace TickFloor

def new (initial : Int64) : TickFloor := ⟨initial⟩

def getFloor (f : TickFloor) : Int64 := f.floor

/-- Fold in a newly observed floor. -/
def observe (f : TickFloor) (received : Int64) : TickFloor := ⟨max f.floor received⟩

end TickFloor

/-- Generator of sequence numbers, the first being one. -/
structure InputSeqGen where
  seq : Int64
deriving DecidableEq

namespace InputSeqGen

def new : InputSeqGen := ⟨0⟩

def advance (gen : InputSeqGen) : InputSeqGen × Int64 := (⟨gen.seq + 1⟩, gen.seq + 1)

end InputSeqGen

/-! ## Match state -/

/-- The state of the match as the server last reported it. -/
structure MatchState where
  controlledEntityId : Int64
  latestTick : Int64
  entities : Dictionary Int64 EntitySnapshotProto
deriving DecidableEq

namespace MatchState

def new : MatchState := ⟨-1, -1, []⟩

/-- The entities of a message by their ids, a later one in place of an earlier one. -/
def entitiesOf (entities : List EntitySnapshotProto) : Dictionary Int64 EntitySnapshotProto :=
  entities.foldl (fun d e => d.set e.entityId e) []

def applyBaseline (m : MatchState) (baseline : JoinBaseline) : MatchState :=
  { m with latestTick := baseline.tick, entities := entitiesOf baseline.entities }

/-- The state that a snapshot reports. -/
def shown (m : MatchState) (snapshot : SnapshotProto) : MatchState :=
  { m with latestTick := snapshot.tick, entities := entitiesOf snapshot.entities }

/-- Nothing changes on a stale tick. Returns whether the snapshot was applied. -/
def applySnapshot (m : MatchState) (snapshot : SnapshotProto) : MatchState × Bool :=
  if snapshot.tick ≤ m.latestTick then (m, false) else (m.shown snapshot, true)

end MatchState

/-! ## Network client -/

namespace Channels

def channelRealtime : Int64 := 0

def channelControl : Int64 := 1

end Channels

open Channels

/-- `ENetPacketPeer.FLAG_RELIABLE`. -/
def flagReliable : Int64 := 1

inductive State
  | disconnected
  | connecting
  | awaitingBaseline
  | ready
deriving DecidableEq

/-- What was handed to the peer. -/
structure Sent where
  channel : Int64
  packet : PackedByteArray
  flags : Int64
deriving DecidableEq

/-- The client. Once it is welcomed it has a welcome and a floor. -/
structure NetworkClient where
  state : State
  helloSent : Bool
  tickFloor : Option TickFloor
  inputSeq : InputSeqGen
  welcome : Option ServerWelcome
  /-- What it has sent on this connection. -/
  sent : List Sent
  welcomed : state = .awaitingBaseline ∨ state = .ready → tickFloor.isSome ∧ welcome.isSome
deriving DecidableEq

namespace NetworkClient

def new : NetworkClient where
  state := .disconnected
  helloSent := false
  tickFloor := none
  inputSeq := InputSeqGen.new
  welcome := none
  sent := []
  welcomed := by simp

/-- Begin the handshake, the transport having found its peer. -/
def connectToServer (c : NetworkClient) : NetworkClient :=
  { c with state := .connecting, helloSent := false, sent := [], welcomed := by simp }

def isReady (c : NetworkClient) : Bool := c.state = .ready

/-- `tick_floor()`. -/
def getTickFloor (c : NetworkClient) : Int64 :=
  match c.tickFloor with
  | some f => f.getFloor
  | none => 0

def send (c : NetworkClient) (channel : Int64) (packet : PackedByteArray) (flags : Int64) :
    NetworkClient :=
  { c with sent := c.sent ++ [⟨channel, packet, flags⟩] }

/-- Send the input for `desiredTick`, raised to the floor. -/
def sendInput (c : NetworkClient) (moveDir : PackedFloat64Array) (desiredTick : Int64) :
    Option NetworkClient :=
  if c.state ≠ .ready then some c
  else do
    let f ← c.tickFloor
    let (inputSeq, seq) := c.inputSeq.advance
    let cmd : InputCmdProto := ⟨max f.getFloor desiredTick, seq, moveDir⟩
    return { c with inputSeq }.send channelRealtime (encodeInputCmdProto cmd) 0

/-- The connection stands : say hello, an empty message, once. -/
def onConnect (c : NetworkClient) : NetworkClient :=
  if c.helloSent then c else { c.send channelControl [] flagReliable with helloSent := true }

/-- The peer is gone. -/
def onDisconnect (c : NetworkClient) : NetworkClient :=
  { c with state := .disconnected, welcomed := by simp }

def setTickFloor (c : NetworkClient) (f : TickFloor) : NetworkClient :=
  { c with tickFloor := some f, welcomed := fun h => ⟨rfl, (c.welcomed h).2⟩ }

/-- `_tick_floor.observe(received)`. -/
def observe (c : NetworkClient) (received : Int64) : Option NetworkClient := do
  let f ← c.tickFloor
  return c.setTickFloor (f.observe received)

end NetworkClient

/-! ## Scene -/

/-- The client and the state of the match that its signals update. -/
structure MatchScene where
  networkClient : NetworkClient
  matchState : MatchState
deriving DecidableEq

namespace MatchScene

def onBaselineReceived (s : MatchScene) (baseline : JoinBaseline) : Option MatchScene := do
  let welcome ← s.networkClient.welcome
  let m := { s.matchState with controlledEntityId := welcome.controlledEntityId }
  return { s with matchState := m.applyBaseline baseline }

def onSnapshotReceived (s : MatchScene) (snapshot : SnapshotProto) : MatchScene :=
  { s with matchState := (s.matchState.applySnapshot snapshot).1 }

/-- A packet of the control channel : the welcome, then the baseline, then nothing. -/
def handleControlPacket (fuel : ℕ) (s : MatchScene) (packet : PackedByteArray) :
    Option MatchScene :=
  let c := s.networkClient
  match h : c.state with
  | .connecting => do
    let welcome ← (decodeServerWelcome fuel packet).value?
    return { s with networkClient := { c with
      state := .awaitingBaseline
      tickFloor := some (TickFloor.new welcome.targetTickFloor)
      welcome := some welcome
      welcomed := fun _ => ⟨rfl, rfl⟩ } }
  | .awaitingBaseline => do
    let baseline ← (decodeJoinBaseline fuel packet).value?
    { s with networkClient := { c with
      state := .ready
      welcomed := fun _ => c.welcomed (.inl h) } }.onBaselineReceived baseline
  | .disconnected | .ready => some s

/-- A direction of the player, sent for the tick of the floor. -/
def onMoveDirChanged (s : MatchScene) (moveDir : PackedFloat64Array) : Option MatchScene :=
  if s.networkClient.isReady then do
    let networkClient ← s.networkClient.sendInput moveDir s.networkClient.getTickFloor
    return { s with networkClient }
  else some s

end MatchScene

/-! ## A frame -/

/-- What `service` returns. -/
inductive ENetEvent
  | connect
  | receive (channel : Int64) (packet : PackedByteArray)
  | disconnect
  | error
deriving DecidableEq

/-- A drain under way : the snapshot of the highest tick so far, and its floor. -/
structure Drain where
  scene : MatchScene
  latestSnapshot : Option SnapshotProto
  latestSnapshotFloor : Int64

namespace Drain

/-- Keep a received snapshot if it is newer than the one kept. -/
def keep (d : Drain) (snapshot : SnapshotProto) : Drain :=
  if d.latestSnapshot.all fun latest => latest.tick < snapshot.tick then
    { d with latestSnapshot := some snapshot, latestSnapshotFloor := snapshot.targetTickFloor }
  else d

/-- One event of the drain. -/
def onEvent (fuel : ℕ) (d : Drain) : ENetEvent → Option Drain
  | .connect => some { d with scene.networkClient := d.scene.networkClient.onConnect }
  | .receive channel packet =>
    if channel = channelControl then do
      let scene ← d.scene.handleControlPacket fuel packet
      return { d with scene }
    else if channel = channelRealtime ∧ d.scene.networkClient.state = .ready then do
      let snapshot ← (decodeSnapshotProto fuel packet).value?
      return d.keep snapshot
    else some d
  | .disconnect => some { d with scene.networkClient := d.scene.networkClient.onDisconnect }
  | .error => some d

/-- The end of the drain : observe the floor of the snapshot kept, and report it. -/
def finish (d : Drain) : Option MatchScene :=
  match d.latestSnapshot with
  | none => some d.scene
  | some snapshot => do
    let networkClient ← d.scene.networkClient.observe d.latestSnapshotFloor
    return { d.scene with networkClient }.onSnapshotReceived snapshot

end Drain

/-- `_process` : drain the events of one frame. A client without a connection does nothing. -/
def process (fuel : ℕ) (s : MatchScene) (events : List ENetEvent) : Option MatchScene :=
  if s.networkClient.state = .disconnected then some s
  else do
    let d ← events.foldlM (Drain.onEvent fuel) ⟨s, none, 0⟩
    d.finish

/-- One frame after the other. -/
def play (fuel : ℕ) (s : MatchScene) (frames : List (List ENetEvent)) : Option MatchScene :=
  frames.foldlM (process fuel) s

end Flowstate.Godot
