import Flowstate.Connection
import Flowstate.Hosting
import Flowstate.Network
import Flowstate.Timeline

/-!
# The server and its Godot clients

The loop, the host and any number of Godot clients, every message in its bytes. A connect
event of the host is a connection, and there is a client at its other end. What a client does
is up to its player and its transport : each of its frames takes whatever has arrived
(`Connection.lean`), which may be any broadcast of the match any number of times. What arrives
at the server is up to the host, and need not be what a client has sent.

What holds of this system is shown in `Mirror.lean` : no frame of a client ends in a script
error, and a client that is ready shows a world that the server has held in this match.
-/

set_option linter.unusedSectionVars false

open Rust

namespace Flowstate

open Protobuf (encodeToVec)

variable {F : Type} [F64 F]

/-- A client and its connection. -/
structure Client (F : Type) where
  peer : PeerId
  /-- The host still holds the connection. -/
  connected : Bool
  scene : Godot.MatchScene
  /-- The packets of the control channel that the client has not taken yet. -/
  control : List Protobuf.Bytes
  /-- The session opened for the client, and what it is sent of it. -/
  accepted : Option (SessionId × ServerWelcome × JoinBaseline F)

/-- The server's side, the clients in the order of their connections, and what was broadcast. -/
structure System (F : Type) where
  edge : Edge F
  clients : List (Client F)
  broadcasts : List Protobuf.Bytes

/-- What happens next. -/
inductive SystemOp
  | serve (x : Service)
  | frame (i : ℕ) (arrivals : List Godot.Arrival)
  | move (i : ℕ) (moveDir : PackedFloat64Array)
deriving DecidableEq

/-- Why a run ends. -/
inductive SystemError
  | loop (e : LoopError)
  /-- What does not happen : a client that is not there, a packet that is not under way. -/
  | impossible
  /-- A script error of a client. -/
  | script
deriving DecidableEq

/-- What the loop's server does, inside the system. -/
def liftSystem {α : Type} : Except LoopError α → Except SystemError α
  | .ok a => .ok a
  | .error e => .error (.loop e)

namespace Client

/-- A client whose scene has just begun to connect. -/
def new (peer : PeerId) : Client F :=
  ⟨peer, true, ⟨Godot.NetworkClient.new.connectToServer, Godot.MatchState.new⟩, [], none⟩

/-- The server accepts the peer as a session, and sends it two packets. -/
def accept (peer : PeerId) (accepted : SessionId × ServerWelcome × JoinBaseline F)
    (packets : List Protobuf.Bytes) (c : Client F) : Client F :=
  if c.connected ∧ c.peer = peer then
    { c with control := c.control ++ packets, accepted := some accepted }
  else c

/-- The host has lost the peer. -/
def part (peer : PeerId) (c : Client F) : Client F :=
  if c.peer = peer then { c with connected := false } else c

/-- A frame in which `arrivals` arrive. -/
def frame (feed : List Protobuf.Bytes) (arrivals : List Godot.Arrival) (c : Client F) :
    Except SystemError (Client F) :=
  match Godot.deliver feed c.control arrivals with
  | none => .error .impossible
  | some (events, control) =>
    match Godot.process (Godot.frameFuel events) c.scene events with
    | none => .error .script
    | some scene => .ok { c with scene, control }

/-- The player moves. -/
def move (moveDir : PackedFloat64Array) (c : Client F) : Except SystemError (Client F) :=
  match c.scene.onMoveDirChanged moveDir with
  | none => .error .script
  | some scene => .ok { c with scene }

end Client

namespace System

def new (config : ServerConfig) : Except Panic (System F) := do
  let edge ← Edge.new config
  return ⟨edge, [], []⟩

/-- The loop is yielded `x` by its host, and sends what it has to send. -/
def serve (d : Decoder F) (s : System F) (x : Service) :
    Except SystemError (System F × Option (LoopOut F)) := do
  let (edge, o) ← liftSystem (s.edge.exec d x)
  match x, o with
  | .event (.connect peer), _ =>
    return ({ s with edge, clients := s.clients ++ [Client.new peer] }, some o)
  | .event (.disconnect peer), _ =>
    return ({ s with edge, clients := s.clients.map (Client.part peer) }, some o)
  | _, .opened peer sid welcome baseline => do
    let welcomeBytes ← liftSystem (liftLoop (encodeToVec welcome.encode))
    let baselineBytes ← liftSystem (liftLoop (encodeToVec baseline.encode))
    let clients := s.clients.map
      (Client.accept peer (sid, welcome, baseline) [welcomeBytes, baselineBytes])
    return ({ s with edge, clients }, some o)
  | _, .broadcast bytes => do
    let bytes ← liftSystem (liftLoop (encodeToVec bytes))
    return ({ s with edge, broadcasts := s.broadcasts ++ [bytes] }, some o)
  | _, _ => return ({ s with edge }, some o)

/-- Client number `i` does `f`. -/
def update (s : System F) (i : ℕ) (f : Client F → Except SystemError (Client F)) :
    Except SystemError (System F × Option (LoopOut F)) :=
  match s.clients[i]? with
  | none => .error .impossible
  | some c => do
    let c ← f c
    return ({ s with clients := s.clients.set i c }, none)

def exec (d : Decoder F) (s : System F) :
    SystemOp → Except SystemError (System F × Option (LoopOut F))
  | .serve x => s.serve d x
  | .frame i arrivals => s.update i (Client.frame s.broadcasts arrivals)
  | .move i moveDir => s.update i (Client.move moveDir)

end System

/-- The system as a machine. -/
def systemMachine (d : Decoder F) :
    Machine (System F) SystemOp (Option (LoopOut F)) SystemError := ⟨System.exec d⟩

/-- Run a new system through `ops`. -/
def runSystem (d : Decoder F) (config : ServerConfig) (ops : List SystemOp) :
    Except SystemError (System F × List (Option (LoopOut F))) := do
  let s ← liftSystem (liftLoop (System.new config))
  (systemMachine d).run s ops

/-! ## What one operation does -/

/-- `Steps d s op s' o` : the ways `op` can take `s` to `s'` with output `o`. -/
inductive System.Steps (d : Decoder F) (s : System F) :
    SystemOp → System F → Option (LoopOut F) → Prop
  | connect {peer : PeerId} {edge : Edge F} {o : LoopOut F}
      (h : s.edge.exec d (.event (.connect peer)) = .ok (edge, o)) :
    Steps d s (.serve (.event (.connect peer)))
      { s with edge, clients := s.clients ++ [Client.new peer] } (some o)
  | disconnect {peer : PeerId} {edge : Edge F} {o : LoopOut F}
      (h : s.edge.exec d (.event (.disconnect peer)) = .ok (edge, o)) :
    Steps d s (.serve (.event (.disconnect peer)))
      { s with edge, clients := s.clients.map (Client.part peer) } (some o)
  | opened {x : Service} {edge : Edge F} {peer : PeerId} {sid : SessionId}
      {welcome : ServerWelcome} {baseline : JoinBaseline F}
      (h : s.edge.exec d x = .ok (edge, .opened peer sid welcome baseline))
      (hwelcome : welcome.encode.length < 2 ^ 63) (hbaseline : baseline.encode.length < 2 ^ 63) :
    Steps d s (.serve x)
      { s with
        edge
        clients := s.clients.map (Client.accept peer (sid, welcome, baseline)
          [welcome.encode, baseline.encode]) }
      (some (.opened peer sid welcome baseline))
  | broadcast {x : Service} {edge : Edge F} {bytes : Protobuf.Bytes}
      (h : s.edge.exec d x = .ok (edge, .broadcast bytes)) (hbytes : bytes.length < 2 ^ 63) :
    Steps d s (.serve x) { s with edge, broadcasts := s.broadcasts ++ [bytes] }
      (some (.broadcast bytes))
  | other {x : Service} {edge : Edge F} {o : LoopOut F} (h : s.edge.exec d x = .ok (edge, o))
      (hx : ∀ peer, x ≠ .event (.connect peer) ∧ x ≠ .event (.disconnect peer))
      (ho : o.opens = none ∧ o.isBroadcast = false) :
    Steps d s (.serve x) { s with edge } (some o)
  | frame {i : ℕ} {arrivals : List Godot.Arrival} {c : Client F} {events : List Godot.ENetEvent}
      {control : List Protobuf.Bytes} {scene : Godot.MatchScene} (hi : s.clients[i]? = some c)
      (hdeliver : Godot.deliver s.broadcasts c.control arrivals = some (events, control))
      (h : Godot.process (Godot.frameFuel events) c.scene events = some scene) :
    Steps d s (.frame i arrivals) { s with clients := s.clients.set i { c with scene, control } }
      none
  | move {i : ℕ} {moveDir : PackedFloat64Array} {c : Client F} {scene : Godot.MatchScene}
      (hi : s.clients[i]? = some c) (h : c.scene.onMoveDirChanged moveDir = some scene) :
    Steps d s (.move i moveDir) { s with clients := s.clients.set i { c with scene } } none

theorem liftSystem_eq_ok {α : Type} {x : Except LoopError α} {a : α} :
    liftSystem x = .ok a ↔ x = .ok a := by
  rcases x with e | b <;> simp [liftSystem]

namespace System

variable {d : Decoder F} {s s' : System F}

theorem steps_of_serve {x : Service} {o : Option (LoopOut F)} (h : s.serve d x = .ok (s', o)) :
    s.Steps d (.serve x) s' o := by
  obtain ⟨⟨edge, out⟩, hexec, h⟩ := bind_eq_ok.1 h
  rw [liftSystem_eq_ok] at hexec
  dsimp only at h
  split at h
  · obtain ⟨rfl, rfl⟩ := Prod.mk.inj (Except.ok.inj h)
    exact .connect hexec
  · obtain ⟨rfl, rfl⟩ := Prod.mk.inj (Except.ok.inj h)
    exact .disconnect hexec
  · simp only [bind_eq_ok, liftSystem_eq_ok, liftLoop_eq_ok, Protobuf.encodeToVec_eq_ok, pure,
      Except.pure, Except.ok.injEq, Prod.mk.injEq] at h
    obtain ⟨_, ⟨rfl, hwelcome⟩, _, ⟨rfl, hbaseline⟩, rfl, rfl⟩ := h
    exact .opened hexec hwelcome hbaseline
  · simp only [bind_eq_ok, liftSystem_eq_ok, liftLoop_eq_ok, Protobuf.encodeToVec_eq_ok, pure,
      Except.pure, Except.ok.injEq, Prod.mk.injEq] at h
    obtain ⟨_, ⟨rfl, hbytes⟩, rfl, rfl⟩ := h
    exact .broadcast hexec hbytes
  · rename_i hconnect hdisconnect hopened hbroadcast
    obtain ⟨rfl, rfl⟩ := Prod.mk.inj (Except.ok.inj h)
    refine .other hexec (fun peer => ⟨hconnect peer, hdisconnect peer⟩) ?_
    cases out with
    | opened peer sid welcome baseline => exact absurd rfl (hopened peer sid welcome baseline)
    | broadcast bytes => exact absurd rfl (hbroadcast bytes)
    | ignored | attributed | closed | waited => exact ⟨rfl, rfl⟩

theorem steps_of_exec {op : SystemOp} {o : Option (LoopOut F)} (h : s.exec d op = .ok (s', o)) :
    s.Steps d op s' o := by
  have hupdate : ∀ {i : ℕ} {f : Client F → Except SystemError (Client F)},
      s.update i f = .ok (s', o) → ∃ c c', s.clients[i]? = some c ∧ f c = .ok c' ∧
        s' = { s with clients := s.clients.set i c' } ∧ o = none := by
    intro i f h
    unfold update at h
    split at h
    · cases h
    · rename_i c hi
      obtain ⟨c', hc', h⟩ := bind_eq_ok.1 h
      obtain ⟨rfl, rfl⟩ := Prod.mk.inj (Except.ok.inj h)
      exact ⟨c, c', hi, hc', rfl, rfl⟩
  cases op with
  | serve x => exact steps_of_serve h
  | frame i arrivals =>
    obtain ⟨c, c', hi, hc', rfl, rfl⟩ := hupdate h
    unfold Client.frame at hc'
    split at hc'
    · cases hc'
    · rename_i events control hdeliver
      split at hc'
      · cases hc'
      · rename_i scene hprocess
        obtain rfl := Except.ok.inj hc'
        exact .frame hi hdeliver hprocess
  | move i moveDir =>
    obtain ⟨c, c', hi, hc', rfl, rfl⟩ := hupdate h
    unfold Client.move at hc'
    split at hc'
    · cases hc'
    · rename_i scene hmove
      obtain rfl := Except.ok.inj hc'
      exact .move hi hmove

end System

end Flowstate
