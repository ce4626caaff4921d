import Flowstate.Operations

/-!
# The tick loop and its connections

`tick_loop::run` (`crates/server/src/tick_loop.rs`) as a machine over what `host.service()`
yields : it waits for a first session, then ticks until the match ends, and in both phases
a drained event opens, feeds or closes a session through `peerSessions`. The clock is left to
the caller, who says with the end of a drain whether the accept deadline has passed.

`Host` is what ENet promises of its events, and no more : a peer's events are one connect,
any number of packets and one disconnect, over and over, and at most `peerLimit` peers are
connected at once. It also notes whether a connection has said hello, which the loop cannot
see otherwise than through its own table.
-/

set_option linter.unusedSectionVars false

open Rust

namespace Flowstate

/-- ENet peer identifier, reused once its peer has disconnected. -/
abbrev PeerId := ℕ

/-- Channel 0 : unreliable and sequenced. -/
def channelRealtime : UInt8 := 0

/-- Channel 1 : reliable and ordered. -/
def channelControl : UInt8 := 1

/-- Bound on the `service()` errors of one drain. -/
def maxConsecutiveServiceErrors : UInt32 := 32

/-- An ENet event. -/
inductive Event
  | connect (peer : PeerId)
  | receive (peer : PeerId) (channelId : UInt8) (packet : Protobuf.Bytes)
  | disconnect (peer : PeerId)
deriving DecidableEq

/-- What `host.service()` yields. The flags tell whether the accept deadline has passed when
the loop looks next. -/
inductive Service
  | event (e : Event)
  | idle (late : Bool)
  | error (late : Bool)
deriving DecidableEq

/-- The decoding of packets. -/
structure Decoder (F : Type) where
  /-- Whether `ClientHello::decode` succeeds. -/
  clientHello : Protobuf.Bytes → Bool
  /-- What `InputCmdProto::decode` yields, if it succeeds. -/
  inputCmd : Protobuf.Bytes → Option (InputCmdProto F)

/-- A packet that opens a session. -/
def Decoder.isHello {F : Type} (d : Decoder F) (channelId : UInt8) (packet : Protobuf.Bytes) : Bool :=
  channelId == channelControl && d.clientHello packet

/-- Where the loop stands. -/
inductive Phase
  | waiting
  | ticking
  | ended (reason : EndReason)
  | timedOut
deriving DecidableEq

/-- The state of the loop. -/
structure TickLoop (F : Type) where
  server : Server F
  peerSessions : HashMap PeerId SessionId
  phase : Phase
  consecutiveErrors : UInt32

/-- What the loop does with what it was yielded. -/
inductive LoopOut (F : Type)
  | ignored
  /-- A session is opened for the peer, and sent its welcome and its baseline. -/
  | opened (peer : PeerId) (sid : SessionId) (welcome : ServerWelcome) (baseline : JoinBaseline F)
  /-- A packet of the peer is received as a command of the session. -/
  | attributed (peer : PeerId) (sid : SessionId) (result : ValidationResult)
  | closed (peer : PeerId) (sid : SessionId)
  | waited
  | broadcast (bytes : Protobuf.Bytes)
deriving DecidableEq

/-- Why a run of the loop ends : a panic, or an event that does not happen. -/
inductive LoopError
  | panic (p : Panic)
  | impossible
deriving DecidableEq

variable {F : Type} [F64 F]

/-- A call that can panic, inside the loop. -/
def liftLoop {α : Type} : Except Panic α → Except LoopError α
  | .ok a => .ok a
  | .error p => .error (.panic p)

namespace TickLoop

def new (config : ServerConfig) : Except Panic (TickLoop F) := do
  let server ← Server.new config
  return ⟨server, ∅, .waiting, 0⟩

/-- Accept a newly seen peer as a session, and send it its welcome and its baseline. -/
def acceptAndWelcome (l : TickLoop F) (peer : PeerId) :
    Except Panic (TickLoop F × LoopOut F) := do
  let (server, sid, _, _) ← l.server.acceptSession
  let peerSessions := l.peerSessions.insert peer sid
  let (server, welcome) ← server.welcomeFor sid
  return ({ l with server, peerSessions }, .opened peer sid welcome server.baselineProto)

/-- An event while no session has joined : anything but a hello is dropped. -/
def waitForFirst (d : Decoder F) (l : TickLoop F) : Event → Except Panic (TickLoop F × LoopOut F)
  | .receive peer channelId packet =>
    if d.isHello channelId packet ∧ peer ∉ l.peerSessions then l.acceptAndWelcome peer
    else .ok (l, .ignored)
  | _ => .ok (l, .ignored)

/-- An event of the paced loop. -/
def handle (d : Decoder F) (l : TickLoop F) : Event → Except Panic (TickLoop F × LoopOut F)
  | .receive peer channelId packet =>
    if d.isHello channelId packet ∧ peer ∉ l.peerSessions then l.acceptAndWelcome peer
    else if channelId = channelRealtime then
      match l.peerSessions.lookup peer, d.inputCmd packet with
      | some sid, some input => do
        let (server, result) ← l.server.receiveInput sid input
        return ({ l with server }, .attributed peer sid result)
      | _, _ => .ok (l, .ignored)
    else .ok (l, .ignored)
  | .disconnect peer =>
    match l.peerSessions.lookup peer with
    | some sid =>
      .ok ({ l with
        peerSessions := l.peerSessions.erase peer
        server := l.server.disconnectSession sid }, .closed peer sid)
    | none => .ok (l, .ignored)
  | .connect _ => .ok (l, .ignored)

/-- The next tick begins, unless the match has ended. -/
def nextTick (l : TickLoop F) (server : Server F) : TickLoop F :=
  { l with
    server
    phase := match server.shouldEndMatch with
      | some reason => .ended reason
      | none => .ticking
    consecutiveErrors := 0 }

/-- The drain is over : wait on or start ticking, or step and broadcast. -/
def drained (l : TickLoop F) (late : Bool) : Except LoopError (TickLoop F × LoopOut F) :=
  match l.phase with
  | .waiting =>
    if l.server.sessionCount < 1 then
      .ok ({ l with phase := if late then .timedOut else .waiting, consecutiveErrors := 0 }, .waited)
    else .ok (l.nextTick l.server, .waited)
  | .ticking => do
    let (server, _, _, bytes) ← liftLoop l.server.step
    return (l.nextTick server, .broadcast bytes)
  | _ => .error .impossible

/-- The loop's share of one `host.service()`. -/
def exec (d : Decoder F) (l : TickLoop F) : Service → Except LoopError (TickLoop F × LoopOut F)
  | .event e =>
    match l.phase with
    | .waiting => liftLoop (l.waitForFirst d e)
    | .ticking => liftLoop (l.handle d e)
    | _ => .error .impossible
  | .idle late => l.drained late
  | .error late =>
    let consecutiveErrors := l.consecutiveErrors + 1
    if maxConsecutiveServiceErrors ≤ consecutiveErrors then l.drained late
    else .ok ({ l with consecutiveErrors }, .ignored)

end TickLoop

/-! ## ENet -/

/-- The connected peers, and whether their connection has said hello. -/
structure Host where
  peerLimit : ℕ
  connections : HashMap PeerId Bool

/-- The host after an event, if it can yield it. -/
def Host.yields (d : Decoder F) (host : Host) : Event → Option Host
  | .connect peer =>
    if peer ∈ host.connections ∨ host.peerLimit ≤ host.connections.keys.length then none
    else some { host with connections := host.connections.insert peer false }
  | .receive peer channelId packet =>
    match host.connections.lookup peer with
    | none => none
    | some greeted =>
      some { host with
        connections := host.connections.insert peer (greeted || d.isHello channelId packet) }
  | .disconnect peer =>
    if peer ∈ host.connections then
      some { host with connections := host.connections.erase peer }
    else none

/-- The loop and its host. -/
structure Edge (F : Type) where
  host : Host
  loop : TickLoop F

namespace Edge

/-- An edge whose host has the peer limit of the loop's server. -/
def new (config : ServerConfig) : Except Panic (Edge F) := do
  let loop ← TickLoop.new config
  return ⟨⟨config.maxSessions, ∅⟩, loop⟩

def exec (d : Decoder F) (s : Edge F) (x : Service) : Except LoopError (Edge F × LoopOut F) := do
  let host ← match x with
    | .event e => (s.host.yields d e).elim (.error .impossible) .ok
    | _ => .ok s.host
  let (loop, o) ← s.loop.exec d x
  return (⟨host, loop⟩, o)

end Edge

/-- The edge as a machine. -/
def edgeMachine (d : Decoder F) : Machine (Edge F) Service (LoopOut F) LoopError := ⟨Edge.exec d⟩

/-- Run a new edge through what `host.service()` yields. -/
def runEdge (d : Decoder F) (config : ServerConfig) (xs : List Service) :
    Except LoopError (Edge F × List (LoopOut F)) := do
  let s ← liftLoop (Edge.new config)
  (edgeMachine d).run s xs

end Flowstate
