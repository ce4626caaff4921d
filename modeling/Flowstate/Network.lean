import Flowstate.Client
import Flowstate.Coherence

/-!
# Clients over a lossy network

One server and any number of clients, joined by a network that loses, delays, reorders and
duplicates. Whatever has been sent stays in flight for good : an arrival names a message by
its place among those sent, so it may happen late, out of order, repeatedly or not at all.
A welcome travels on the control channel, which delivers it once.

No floor in flight is above the tick plus the lead, which is what the server has told every
live session last (`Bounded`). A client's floor is one of those in flight, so it is not
above it either, and a command sent from the floor the server has emitted since its last
step is neither below the session's floor nor late (`targeting_safe`).
-/

set_option linter.unusedSectionVars false

open Rust

namespace Flowstate

/-- The server, the clients by session, and everything sent so far. -/
structure Network (F : Type) where
  server : Server F
  clients : HashMap SessionId (TestClient F)
  welcomes : List (SessionId × ServerWelcome)
  snapshots : List (SnapshotProto F)
  commands : List (SessionId × InputCmdProto F)

/-- What can happen next. Numbers are places among the messages sent. -/
inductive NetworkOp (F : Type)
  | join
  | leave (sid : SessionId)
  | step
  | start (welcome : ℕ)
  | poll (sid : SessionId) (received : List ℕ)
  | send (sid : SessionId) (desiredTick : Tick) (moveDir : F × F)
  | deliver (command : ℕ)
deriving DecidableEq

/-- What has happened. -/
inductive NetworkOut (F : Type)
  | joined (sid : SessionId) (welcome : ServerWelcome)
  | left
  | stepped (message : SnapshotProto F)
  | started (sid : SessionId) (floor : Tick)
  | polled (sid : SessionId) (latest : Option (Snapshot F × Tick))
  /-- The client holds `floor` when it sends `cmd`. -/
  | sent (sid : SessionId) (floor : Tick) (cmd : InputCmdProto F)
  | delivered (sid : SessionId) (cmd : InputCmdProto F) (result : ValidationResult)
deriving DecidableEq

/-- Why a run ends : a panic, or an operation that cannot happen. -/
inductive NetworkError
  | panic (p : Panic)
  | impossible
deriving DecidableEq

variable {F : Type} [F64 F]

/-- A call that can panic, inside the network. -/
def liftNetwork {α : Type} : Except Panic α → Except NetworkError α
  | .ok a => .ok a
  | .error p => .error (.panic p)

/-- The message of a step's snapshot. -/
def Snapshot.toMessage (snapshot : Snapshot F) (floor : Tick) : SnapshotProto F :=
  ⟨snapshot.tick, snapshot.entities.map EntitySnapshot.toProto, snapshot.digest, floor⟩

namespace Network

def new (config : ServerConfig) : Except Panic (Network F) := do
  let server ← Server.new config
  return ⟨server, ∅, [], [], []⟩

def exec (n : Network F) : NetworkOp F → Except NetworkError (Network F × NetworkOut F)
  | .join => do
    -- `accept_and_welcome`
    let (server, sid, _, _) ← liftNetwork n.server.acceptSession
    let (server, welcome) ← liftNetwork (server.welcomeFor sid)
    return ({ n with server, welcomes := n.welcomes ++ [(sid, welcome)] }, .joined sid welcome)
  | .leave sid => return ({ n with server := n.server.disconnectSession sid }, .left)
  | .step => do
    let (server, snapshot, floor, _) ← liftNetwork n.server.step
    let message := snapshot.toMessage floor
    return ({ n with server, snapshots := n.snapshots ++ [message] }, .stepped message)
  | .start i =>
    match n.welcomes[i]? with
    | none => .error .impossible
    | some (sid, welcome) =>
      if sid ∈ n.clients then .error .impossible
      else .ok ({ n with clients := n.clients.insert sid (TestClient.connect welcome) },
        .started sid welcome.targetTickFloor)
  | .poll sid received =>
    match n.clients.lookup sid with
    | none => .error .impossible
    | some c =>
      let messages := received.filterMap (n.snapshots[·]?)
      .ok ({ n with clients := n.clients.insert sid (c.pollSnapshot messages) },
        .polled sid (pollSnapshot messages))
  | .send sid desiredTick moveDir =>
    match n.clients.lookup sid with
    | none => .error .impossible
    | some c => do
      let (c', cmd) ← liftNetwork (c.sendInput desiredTick moveDir)
      return ({ n with
          clients := n.clients.insert sid c'
          commands := n.commands ++ [(sid, cmd)] }, .sent sid c.tickFloor.get cmd)
  | .deliver i =>
    match n.commands[i]? with
    | none => .error .impossible
    | some (sid, cmd) => do
      let (server, result) ← liftNetwork (n.server.receiveInput sid cmd)
      return ({ n with server }, .delivered sid cmd result)

end Network

/-- The network as a machine. -/
def networkMachine (F : Type) [F64 F] :
    Machine (Network F) (NetworkOp F) (NetworkOut F) NetworkError := ⟨Network.exec⟩

/-- Run a new network through `ops`. -/
def runNetwork (config : ServerConfig) (ops : List (NetworkOp F)) :
    Except NetworkError (Network F × List (NetworkOut F)) := do
  let n ← liftNetwork (Network.new config)
  (networkMachine F).run n ops

/-- The message of a step is the one whose bytes the step returns. -/
theorem snapshotBytes_eq (snapshot : Snapshot F) (floor : Tick) :
    Server.snapshotBytes snapshot floor = (snapshot.toMessage floor).encode := rfl

/-! ## What one operation does -/

/-- `Steps n op n' o` : the ways `op` can take `n` to `n'` with output `o`. -/
inductive Network.Steps (n : Network F) : NetworkOp F → Network F → NetworkOut F → Prop
  | join {s s' : Server F} {sid : SessionId} {p : PlayerId} {e : EntityId}
      {welcome : ServerWelcome}
      (haccept : n.server.exec .acceptSession = .ok (s, .accepted sid p e))
      (hwelcome : s.exec (.welcomeFor sid) = .ok (s', .welcomed welcome)) :
    Steps n .join { n with server := s', welcomes := n.welcomes ++ [(sid, welcome)] }
      (.joined sid welcome)
  | leave {sid : SessionId} :
    Steps n (.leave sid) { n with server := n.server.disconnectSession sid } .left
  | step {s : Server F} {snapshot : Snapshot F} {floor : Tick} {bytes : Protobuf.Bytes}
      (hs : n.server.step = .ok (s, snapshot, floor, bytes)) :
    Steps n .step { n with server := s, snapshots := n.snapshots ++ [snapshot.toMessage floor] }
      (.stepped (snapshot.toMessage floor))
  | start {i : ℕ} {sid : SessionId} {welcome : ServerWelcome}
      (hi : n.welcomes[i]? = some (sid, welcome)) (hnew : sid ∉ n.clients) :
    Steps n (.start i)
      { n with clients := n.clients.insert sid (TestClient.connect welcome) }
      (.started sid welcome.targetTickFloor)
  | poll {sid : SessionId} {received : List ℕ} {c : TestClient F}
      (hc : n.clients.lookup sid = some c) :
    Steps n (.poll sid received)
      { n with
        clients := n.clients.insert sid
          (c.pollSnapshot (received.filterMap (n.snapshots[·]?))) }
      (.polled sid (pollSnapshot (received.filterMap (n.snapshots[·]?))))
  | send {sid : SessionId} {desiredTick : Tick} {moveDir : F × F} {c : TestClient F}
      {seq : UInt64} (hc : n.clients.lookup sid = some c)
      (hseq : seq.toNat = c.inputSeq.last.toNat + 1) :
    Steps n (.send sid desiredTick moveDir)
      { n with
        clients := n.clients.insert sid { c with inputSeq := ⟨seq⟩ }
        commands := n.commands ++
          [(sid, ⟨targetTick c.tickFloor.get desiredTick, seq, toVec moveDir⟩)] }
      (.sent sid c.tickFloor.get ⟨targetTick c.tickFloor.get desiredTick, seq, toVec moveDir⟩)
  | deliver {i : ℕ} {sid : SessionId} {cmd : InputCmdProto F} {s : Server F}
      {result : ValidationResult} (hi : n.commands[i]? = some (sid, cmd))
      (hs : n.server.receiveInput sid cmd = .ok (s, result)) :
    Steps n (.deliver i) { n with server := s } (.delivered sid cmd result)

theorem liftNetwork_eq_ok {α : Type} {x : Except Panic α} {a : α} :
    liftNetwork x = .ok a ↔ x = .ok a := by
  rcases x with e | b <;> simp [liftNetwork]

theorem TestClient.sendInput_eq_ok {c c' : TestClient F} {desiredTick : Tick} {moveDir : F × F}
    {cmd : InputCmdProto F} (h : c.sendInput desiredTick moveDir = .ok (c', cmd)) :
    ∃ seq : UInt64, seq.toNat = c.inputSeq.last.toNat + 1 ∧ c' = { c with inputSeq := ⟨seq⟩ } ∧
      cmd = ⟨targetTick c.tickFloor.get desiredTick, seq, toVec moveDir⟩ := by
  have hone : (1 : UInt64).toNat = 1 := rfl
  simp only [sendInput, InputSeqGen.advance, bind_eq_ok, addU64_eq_ok, hone, pure, Except.pure,
    Except.ok.injEq, Prod.mk.injEq, Prod.exists] at h
  obtain ⟨_, _, ⟨seq, hseq, rfl, rfl⟩, rfl, rfl⟩ := h
  exact ⟨seq, hseq, rfl, rfl⟩

theorem Network.steps_of_exec {n n' : Network F} {op : NetworkOp F} {o : NetworkOut F}
    (h : n.exec op = .ok (n', o)) : n.Steps op n' o := by
  cases op with
  | join =>
    simp only [exec, bind_eq_ok, liftNetwork_eq_ok, pure, Except.pure, Except.ok.injEq,
      Prod.mk.injEq, Prod.exists] at h
    obtain ⟨s, sid, p, e, haccept, s', welcome, hwelcome, rfl, rfl⟩ := h
    exact .join (Server.exec_acceptSession.2 ⟨sid, p, e, haccept, rfl⟩)
      (Server.exec_welcomeFor.2 ⟨welcome, hwelcome, rfl⟩)
  | leave sid =>
    obtain ⟨rfl, rfl⟩ := Prod.mk.inj (Except.ok.inj h)
    exact .leave
  | step =>
    simp only [exec, bind_eq_ok, liftNetwork_eq_ok, pure, Except.pure, Except.ok.injEq,
      Prod.mk.injEq, Prod.exists] at h
    obtain ⟨s, snapshot, floor, bytes, hs, rfl, rfl⟩ := h
    exact .step hs
  | start i =>
    rcases hi : n.welcomes[i]? with _ | ⟨sid, welcome⟩
    · simp [exec, hi] at h
    · by_cases hnew : sid ∈ n.clients
      · simp [exec, hi, hnew] at h
      · simp only [exec, hi, hnew, if_false, Except.ok.injEq, Prod.mk.injEq] at h
        obtain ⟨rfl, rfl⟩ := h
        exact .start hi hnew
  | poll sid received =>
    rcases hc : n.clients.lookup sid with _ | c
    · simp [exec, hc] at h
    · simp only [exec, hc, Except.ok.injEq, Prod.mk.injEq] at h
      obtain ⟨rfl, rfl⟩ := h
      exact .poll hc
  | send sid desiredTick moveDir =>
    rcases hc : n.clients.lookup sid with _ | c
    · simp [exec, hc] at h
    · simp only [exec, hc, bind_eq_ok, liftNetwork_eq_ok, pure, Except.pure, Except.ok.injEq,
        Prod.mk.injEq, Prod.exists] at h
      obtain ⟨c', cmd, hsend, rfl, rfl⟩ := h
      obtain ⟨seq, hseq, rfl, rfl⟩ := TestClient.sendInput_eq_ok hsend
      exact .send hc hseq
  | deliver i =>
    rcases hi : n.commands[i]? with _ | ⟨sid, cmd⟩
    · simp [exec, hi] at h
    · simp only [exec, hi, bind_eq_ok, liftNetwork_eq_ok, pure, Except.pure, Except.ok.injEq,
        Prod.mk.injEq, Prod.exists] at h
      obtain ⟨s, result, hs, rfl, rfl⟩ := h
      exact .deliver hi hs

/-! ## What has been told and sent -/

/-- The floor an operation of the server emits. -/
def NetworkOut.emitted : NetworkOut F → Option Tick
  | .joined _ welcome => some welcome.targetTickFloor
  | .stepped message => some message.targetTickFloor
  | _ => none

def NetworkOut.isStepped : NetworkOut F → Bool
  | .stepped _ => true
  | _ => false

/-- The floor the client of `sid` folds. -/
def NetworkOut.folded (sid : SessionId) : NetworkOut F → Option Tick
  | .started sid' floor => if sid' = sid then some floor else none
  | .polled sid' latest => if sid' = sid then latest.map Prod.snd else none
  | _ => none

/-- A command dropped for its tick. -/
def ValidationResult.isTickDrop : ValidationResult → Bool
  | .droppedBelowFloor _ _ | .droppedLate _ _ | .droppedTooFuture _ _ => true
  | _ => false

/-- The floor of the server's next emission, were it made now. -/
def Network.top (n : Network F) : ℕ :=
  n.server.world.tick.toNat + n.server.config.inputLeadTicks.toNat

/-- Nothing in flight, and no client, is ahead of the server. -/
structure Bounded (n : Network F) : Prop where
  upToDate : UpToDate n.server
  window : n.server.inputBuffer.config.maxFutureTicks = n.server.config.maxFutureTicks
  welcomes : ∀ x ∈ n.welcomes, x.2.targetTickFloor.toNat ≤ n.top
  snapshots : ∀ message ∈ n.snapshots, message.targetTickFloor.toNat ≤ n.top
  clients : ∀ sid c, n.clients.lookup sid = some c → c.tickFloor.get.toNat ≤ n.top

/-- A command is aimed at or above every floor its client has folded, those before and the
one it holds, and is numbered above every earlier command of the client. -/
structure Aimed (before : List (NetworkOut F)) (sid : SessionId) (floor : Tick)
    (cmd : InputCmdProto F) : Prop where
  held : floor.toNat ≤ cmd.tick.toNat
  folded : ∀ o ∈ before, ∀ f, o.folded sid = some f → f.toNat ≤ cmd.tick.toNat
  numbered : ∀ f cmd', .sent sid f cmd' ∈ before → cmd'.inputSeq < cmd.inputSeq

/-- What the outputs so far say of the state they lead to. -/
structure Targeting (os : List (NetworkOut F)) (n : Network F) : Prop where
  bounded : Bounded n
  folded : ∀ o ∈ os, ∀ sid f, o.folded sid = some f →
    ∃ c, n.clients.lookup sid = some c ∧ f.toNat ≤ c.tickFloor.get.toNat
  numbered : ∀ sid f cmd, .sent sid f cmd ∈ os →
    ∃ c, n.clients.lookup sid = some c ∧ cmd.inputSeq.toNat ≤ c.inputSeq.last.toNat
  /-- A floor emitted since the last step is the one the server would emit now. -/
  current : ∀ before o after f, os = before ++ o :: after → o.emitted = some f →
    (∀ o' ∈ after, o'.isStepped = false) → f.toNat = n.top
  aimed : ∀ before after sid floor cmd, os = before ++ .sent sid floor cmd :: after →
    Aimed before sid floor cmd

/-! ## One step -/

namespace Network.Steps

variable {n n' : Network F} {op : NetworkOp F} {o : NetworkOut F}

/-- The server runs : through an accept with its welcome, through one operation, or not at
all. -/
theorem server (h : n.Steps op n' o) : ∃ ops outs,
    (serverMachine F).run n.server ops = .ok (n'.server, outs) ∧ Greeted (ops.zip outs) ∧
      steps ops = if o.isStepped then 1 else 0 := by
  have hone : ∀ {op : Op F} {s : Server F} {out : Out F}, n.server.exec op = .ok (s, out) →
      (serverMachine F).run n.server [op] = .ok (s, [out]) := fun hexec =>
    Machine.run_singleton (M := serverMachine F) hexec
  cases h with
  | @join s s' sid p e welcome haccept hwelcome =>
    refine ⟨[.acceptSession, .welcomeFor sid], [.accepted sid p e, .welcomed welcome],
      Machine.run_cons_eq_ok.2 ⟨s, _, _, haccept, Machine.run_singleton hwelcome, rfl⟩, ?_, rfl⟩
    intro before after sid' p' e' hsplit
    rcases before with _ | ⟨x, _ | ⟨y, before⟩⟩
    · obtain ⟨heq, rfl⟩ := List.cons.inj hsplit
      obtain ⟨rfl, -, -⟩ := Out.accepted.inj (Prod.mk.inj heq).2
      exact ⟨welcome, [], rfl⟩
    · exact nomatch (List.cons.inj (List.cons.inj hsplit).2).1
    · exact absurd (congrArg List.length hsplit) (by simp)
  | @leave sid =>
    have hexec : n.server.exec (.disconnectSession sid) =
        .ok (n.server.disconnectSession sid, .disconnected) := rfl
    exact ⟨_, _, hone hexec, .singleton nofun, rfl⟩
  | step hs =>
    exact ⟨_, _, hone (Server.exec_step.2 ⟨_, _, _, hs, rfl⟩), .singleton nofun, rfl⟩
  | start => exact ⟨[], [], rfl, .nil, rfl⟩
  | poll => exact ⟨[], [], rfl, .nil, rfl⟩
  | send => exact ⟨[], [], rfl, .nil, rfl⟩
  | deliver hi hs =>
    exact ⟨_, _, hone (Server.exec_receiveInput.2 ⟨_, hs, rfl⟩), .singleton nofun, rfl⟩

theorem upToDate (h : n.Steps op n' o) (hn : UpToDate n.server) : UpToDate n'.server := by
  obtain ⟨ops, outs, hrun, hgreeted, -⟩ := h.server
  exact hn.run hrun hgreeted

theorem config (h : n.Steps op n' o) : n'.server.config = n.server.config ∧
    n'.server.inputBuffer.config = n.server.inputBuffer.config := by
  obtain ⟨ops, outs, hrun, -⟩ := h.server
  refine ⟨config_of_run hrun, ?_⟩
  exact Machine.run_invariant (M := serverMachine F)
    (P := fun s => s.inputBuffer.config = n.server.inputBuffer.config)
    (fun s op s' o hs hexec => (Server.exec_bufferFrame hexec).1.trans hs) rfl hrun

/-- The server's clock stands still, unless it steps. -/
theorem top (h : n.Steps op n' o) :
    n'.top = n.top + if o.isStepped then 1 else 0 := by
  obtain ⟨ops, outs, hrun, -, hsteps⟩ := h.server
  rw [Network.top, Network.top, h.config.1, (tick_of_run hrun).1, hsteps]
  omega

theorem top_le (h : n.Steps op n' o) : n.top ≤ n'.top := by
  rw [h.top]
  exact Nat.le_add_right _ _

/-- A client's floor and its last sequence number only rise. -/
theorem client_le (h : n.Steps op n' o) {sid : SessionId} {c : TestClient F}
    (hc : n.clients.lookup sid = some c) : ∃ c', n'.clients.lookup sid = some c' ∧
      c.tickFloor.get.toNat ≤ c'.tickFloor.get.toNat ∧
      c.inputSeq.last.toNat ≤ c'.inputSeq.last.toNat := by
  cases h with
  | join => exact ⟨c, hc, le_rfl, le_rfl⟩
  | leave => exact ⟨c, hc, le_rfl, le_rfl⟩
  | step => exact ⟨c, hc, le_rfl, le_rfl⟩
  | @start i sid' welcome hi hnew =>
    have hne : sid ≠ sid' := by
      rintro rfl
      exact hnew (AList.lookup_isSome.1 (by rw [hc]; rfl))
    exact ⟨c, by rw [HashMap.lookup_insert, if_neg hne, hc], le_rfl, le_rfl⟩
  | @poll sid' received d hd =>
    rw [HashMap.lookup_insert]
    split_ifs with heq
    · subst heq
      obtain rfl := Option.some.inj (hc.symm.trans hd)
      refine ⟨_, rfl, ?_⟩
      unfold TestClient.pollSnapshot
      split
      · exact ⟨le_rfl, le_rfl⟩
      · exact ⟨(TickFloor.toNat_observe ..).ge.trans' (le_max_left ..), le_rfl⟩
    · exact ⟨c, hc, le_rfl, le_rfl⟩
  | @send sid' desiredTick moveDir d seq hd hseq =>
    rw [HashMap.lookup_insert]
    split_ifs with heq
    · subst heq
      obtain rfl := Option.some.inj (hc.symm.trans hd)
      have hle : c.inputSeq.last.toNat ≤ seq.toNat := by omega
      exact ⟨_, rfl, le_rfl, hle⟩
    · exact ⟨c, hc, le_rfl, le_rfl⟩
  | deliver => exact ⟨c, hc, le_rfl, le_rfl⟩

/-- What is emitted is the floor of the state the emission leads to. -/
theorem emitted (h : n.Steps op n' o) {f : Tick} (hf : o.emitted = some f) :
    f.toNat = n'.top := by
  cases h with
  | join haccept hwelcome =>
    obtain rfl := Option.some.inj hf
    obtain ⟨_, hs, heq⟩ := Server.exec_welcomeFor.1 hwelcome
    obtain rfl := Out.welcomed.inj heq
    obtain ⟨session, -, floor, hfloor, rfl, rfl⟩ := Server.welcomeFor_eq_ok.1 hs
    exact hfloor
  | step hs =>
    obtain rfl := Option.some.inj hf
    obtain ⟨next, -, hfloor, rfl, -, -⟩ := Server.step_eq_ok.1 hs
    exact hfloor
  | leave => exact nomatch hf
  | start => exact nomatch hf
  | poll => exact nomatch hf
  | send => exact nomatch hf
  | deliver => exact nomatch hf

/-- What a client folds, it holds at least. -/
theorem folded (h : n.Steps op n' o) {sid : SessionId} {f : Tick}
    (hf : o.folded sid = some f) : ∃ c, n'.clients.lookup sid = some c ∧
      f.toNat ≤ c.tickFloor.get.toNat := by
  cases h with
  | @start i sid' welcome hi hnew =>
    simp only [NetworkOut.folded, Option.ite_none_right_eq_some, Option.some.injEq] at hf
    obtain ⟨rfl, rfl⟩ := hf
    exact ⟨_, by rw [HashMap.lookup_insert, if_pos rfl], le_rfl⟩
  | @poll sid' received c hc =>
    simp only [NetworkOut.folded, Option.ite_none_right_eq_some, Option.map_eq_some_iff,
      Prod.exists] at hf
    obtain ⟨rfl, snapshot, f, hpoll, rfl⟩ := hf
    refine ⟨_, by rw [HashMap.lookup_insert, if_pos rfl], ?_⟩
    rw [TestClient.pollSnapshot, hpoll]
    exact (TickFloor.toNat_observe ..).ge.trans' (le_max_right ..)
  | join => exact nomatch hf
  | leave => exact nomatch hf
  | step => exact nomatch hf
  | send => exact nomatch hf
  | deliver => exact nomatch hf

/-- A command is aimed above the floor its client holds, with the next sequence number. -/
theorem sent {sid : SessionId} {floor : Tick} {cmd : InputCmdProto F}
    (h : n.Steps op n' (.sent sid floor cmd)) : ∃ c c', n.clients.lookup sid = some c ∧
      n'.clients.lookup sid = some c' ∧ floor = c.tickFloor.get ∧
      floor.toNat ≤ cmd.tick.toNat ∧ c.inputSeq.last < cmd.inputSeq ∧
      c'.inputSeq.last = cmd.inputSeq := by
  cases h with
  | @send _ desiredTick moveDir c seq hc hseq =>
    refine ⟨c, _, hc, by rw [HashMap.lookup_insert, if_pos rfl], rfl, ?_, ?_, rfl⟩
    · exact (toNat_targetTick ..).ge.trans' (le_max_right ..)
    · rw [UInt64.lt_iff_toNat_lt]
      change _ < seq.toNat
      omega

end Network.Steps

/-- A welcome, a snapshot or a client of the new state was there before, or is bounded by what
was. -/
theorem Bounded.steps {n n' : Network F} {op : NetworkOp F} {o : NetworkOut F} (h : Bounded n)
    (hsteps : n.Steps op n' o) : Bounded n' := by
  have hupToDate := hsteps.upToDate h.upToDate
  have hwindow : n'.server.inputBuffer.config.maxFutureTicks = n'.server.config.maxFutureTicks := by
    rw [hsteps.config.2, hsteps.config.1, h.window]
  have hemitted : ∀ f, o.emitted = some f → f.toNat ≤ n'.top := fun f hf => (hsteps.emitted hf).le
  have hwelcomes : ∀ x ∈ n.welcomes, x.2.targetTickFloor.toNat ≤ n'.top := fun x hx =>
    (h.welcomes x hx).trans hsteps.top_le
  have hsnapshots : ∀ message ∈ n.snapshots, message.targetTickFloor.toNat ≤ n'.top :=
    fun message hmem => (h.snapshots message hmem).trans hsteps.top_le
  have hclients : ∀ sid c, n.clients.lookup sid = some c → c.tickFloor.get.toNat ≤ n'.top :=
    fun sid c hc => (h.clients sid c hc).trans hsteps.top_le
  cases hsteps with
  | join =>
    refine ⟨hupToDate, hwindow, fun x hx => ?_, hsnapshots, hclients⟩
    rcases List.mem_append.1 hx with hx | hx
    · exact hwelcomes x hx
    · obtain rfl := List.mem_singleton.1 hx
      exact hemitted _ rfl
  | leave => exact ⟨hupToDate, hwindow, hwelcomes, hsnapshots, hclients⟩
  | step =>
    refine ⟨hupToDate, hwindow, hwelcomes, fun message hmem => ?_, hclients⟩
    rcases List.mem_append.1 hmem with hmem | hmem
    · exact hsnapshots message hmem
    · obtain rfl := List.mem_singleton.1 hmem
      exact hemitted _ rfl
  | @start i sid welcome hi hnew =>
    refine ⟨hupToDate, hwindow, hwelcomes, hsnapshots, fun sid' c hc => ?_⟩
    rw [HashMap.lookup_insert] at hc
    split_ifs at hc
    · obtain rfl := Option.some.inj hc
      exact hwelcomes _ (List.mem_of_getElem? hi)
    · exact hclients sid' c hc
  | @poll sid received c hc =>
    refine ⟨hupToDate, hwindow, hwelcomes, hsnapshots, fun sid' d hd => ?_⟩
    rw [HashMap.lookup_insert] at hd
    split_ifs at hd
    · obtain rfl := Option.some.inj hd
      unfold TestClient.pollSnapshot
      split
      · exact hclients sid c hc
      · rename_i snapshot floor hpoll
        -- The folded floor is that of a snapshot in flight.
        obtain ⟨message, hmem, rfl⟩ := mem_of_pollSnapshot hpoll
        obtain ⟨j, -, hj⟩ := List.mem_filterMap.1 hmem
        have hfloor := hsnapshots message (List.mem_of_getElem? hj)
        exact (TickFloor.toNat_observe ..).le.trans (max_le (hclients sid c hc) hfloor)
    · exact hclients sid' d hd
  | @send sid desiredTick moveDir c seq hc hseq =>
    refine ⟨hupToDate, hwindow, hwelcomes, hsnapshots, fun sid' d hd => ?_⟩
    rw [HashMap.lookup_insert] at hd
    split_ifs at hd
    · obtain rfl := Option.some.inj hd
      exact hclients sid c hc
    · exact hclients sid' d hd
  | deliver => exact ⟨hupToDate, hwindow, hwelcomes, hsnapshots, hclients⟩

theorem Targeting.steps {os : List (NetworkOut F)} {n n' : Network F} {op : NetworkOp F}
    {o : NetworkOut F} (h : Targeting os n) (hsteps : n.Steps op n' o) :
    Targeting (os ++ [o]) n' where
  bounded := h.bounded.steps hsteps
  folded := by
    intro o' ho' sid f hf
    rcases List.mem_append.1 ho' with ho' | ho'
    · obtain ⟨c, hc, hle⟩ := h.folded o' ho' sid f hf
      obtain ⟨c', hc', hfloor, -⟩ := hsteps.client_le hc
      exact ⟨c', hc', hle.trans hfloor⟩
    · obtain rfl := List.mem_singleton.1 ho'
      exact hsteps.folded hf
  numbered := by
    intro sid f cmd hmem
    rcases List.mem_append.1 hmem with hmem | hmem
    · obtain ⟨c, hc, hle⟩ := h.numbered sid f cmd hmem
      obtain ⟨c', hc', -, hseq⟩ := hsteps.client_le hc
      exact ⟨c', hc', hle.trans hseq⟩
    · obtain rfl := List.mem_singleton.1 hmem
      obtain ⟨-, c', -, hc', -, -, -, hseq⟩ := hsteps.sent
      exact ⟨c', hc', by rw [hseq]⟩
  current := by
    intro before o' after f hsplit hf hquiet
    rcases Machine.split_concat hsplit with ⟨rfl, rfl, rfl⟩ | ⟨after', rfl, rfl⟩
    · exact hsteps.emitted hf
    · have hstepped : o.isStepped = false :=
        hquiet o (List.mem_append_right _ (List.mem_singleton_self o))
      have htop : n'.top = n.top := by rw [hsteps.top, hstepped]; rfl
      rw [htop]
      exact h.current before o' after' f rfl hf fun o'' ho'' =>
        hquiet o'' (List.mem_append_left _ ho'')
  aimed := by
    intro before after sid floor cmd hsplit
    rcases Machine.split_concat hsplit with ⟨rfl, rfl, rfl⟩ | ⟨after', rfl, rfl⟩
    · obtain ⟨c, c', hc, hc', rfl, hheld, hseq, -⟩ := hsteps.sent
      refine ⟨hheld, fun o' ho' f hf => ?_, fun f cmd' hmem => ?_⟩
      · obtain ⟨d, hd, hle⟩ := h.folded o' ho' sid f hf
        obtain rfl := Option.some.inj (hc.symm.trans hd)
        exact hle.trans hheld
      · obtain ⟨d, hd, hle⟩ := h.numbered sid f cmd' hmem
        obtain rfl := Option.some.inj (hc.symm.trans hd)
        exact UInt64.lt_of_le_of_lt (UInt64.le_iff_toNat_le.2 hle) hseq
    · exact h.aimed before after' sid floor cmd rfl

/-! ## Runs -/

theorem Targeting.new {config : ServerConfig} {n : Network F}
    (h : Network.new config = .ok n) : Targeting [] n := by
  obtain ⟨server, hnew, heq⟩ := bind_eq_ok.1 h
  obtain rfl := Except.ok.inj heq
  obtain ⟨-, rfl⟩ := Server.new_eq_ok.1 hnew
  refine ⟨⟨fun sid hmem => absurd hmem (AList.notMem_empty sid), rfl, nofun, nofun,
    fun sid c hc => ?_⟩, nofun, nofun, fun before o after f hsplit => ?_,
    fun before after sid floor cmd hsplit => ?_⟩
  · rw [AList.lookup_empty] at hc
    exact nomatch hc
  · exact absurd hsplit.symm (List.append_ne_nil_of_right_ne_nil before (List.cons_ne_nil _ _))
  · exact absurd hsplit.symm (List.append_ne_nil_of_right_ne_nil before (List.cons_ne_nil _ _))

theorem targeting_of_run {config : ServerConfig} {ops : List (NetworkOp F)} {n : Network F}
    {outs : List (NetworkOut F)} (hrun : runNetwork config ops = .ok (n, outs)) :
    Targeting outs n := by
  obtain ⟨n₀, hnew, hrun⟩ := bind_eq_ok.1 hrun
  have h := Machine.run_history (M := networkMachine F)
    (P := fun h n => Targeting (h.map Prod.snd) n)
    (fun h n op n' o hn hexec => by
      rw [List.map_append]
      exact hn.steps (Network.steps_of_exec hexec))
    (h := []) (Targeting.new (liftNetwork_eq_ok.1 hnew)) hrun
  rwa [List.nil_append, List.map_snd_zip (Machine.length_of_run hrun).le] at h

theorem client_le_of_run {ops : List (NetworkOp F)} {n n' : Network F}
    {outs : List (NetworkOut F)} (hrun : (networkMachine F).run n ops = .ok (n', outs))
    {sid : SessionId} {c : TestClient F} (hc : n.clients.lookup sid = some c) :
    ∃ c', n'.clients.lookup sid = some c' ∧
      c.tickFloor.get.toNat ≤ c'.tickFloor.get.toNat := by
  refine Machine.run_invariant (M := networkMachine F) (P := fun n => ∃ c',
    n.clients.lookup sid = some c' ∧ c.tickFloor.get.toNat ≤ c'.tickFloor.get.toNat)
    (fun u op v o hu hexec => ?_) ⟨c, hc, le_rfl⟩ hrun
  obtain ⟨d, hd, hle⟩ := hu
  obtain ⟨d', hd', hle', -⟩ := (Network.steps_of_exec hexec).client_le hd
  exact ⟨d', hd', hle.trans hle'⟩

/-- What holds when `outs` has led to `n` : every client is behind the server, has aimed its
commands right, and a command it aimed at the newest floor is in time. -/
structure TargetingSafe (outs : List (NetworkOut F)) (n : Network F) : Prop where
  /-- A client's floor does not decrease, whatever happens next. -/
  rises : ∀ ops n' outs', (networkMachine F).run n ops = .ok (n', outs') →
    ∀ sid c, n.clients.lookup sid = some c → ∃ c', n'.clients.lookup sid = some c' ∧
      c.tickFloor.get.toNat ≤ c'.tickFloor.get.toNat
  behind : ∀ sid c, n.clients.lookup sid = some c → sid ∈ n.server.sessions →
    ∃ floor, n.server.lastEmittedFloor.lookup sid = some floor ∧
      c.tickFloor.get.toNat ≤ floor.toNat
  aimed : ∀ before after sid floor cmd, outs = before ++ .sent sid floor cmd :: after →
    Aimed before sid floor cmd
  /-- A command in flight arrives, the server not having stepped since it emitted the floor
  that the client held. -/
  inTime : ∀ i sid cmd floor before o after, n.commands[i]? = some (sid, cmd) →
    .sent sid floor cmd ∈ outs → sid ∈ n.server.sessions →
    outs = before ++ o :: after → o.emitted = some floor →
    (∀ o' ∈ after, o'.isStepped = false) →
    cmd.tick.toNat ≤ n.server.world.tick.toNat + n.server.config.maxFutureTicks.toNat →
    (∀ n' o', n.exec (.deliver i) = .ok (n', o') →
      ∃ result, o' = .delivered sid cmd result ∧ result.isTickDrop = false) ∧
    (n.server.world.tick.toNat + n.server.config.maxFutureTicks.toNat < 2 ^ 64 →
      ∃ n' o', n.exec (.deliver i) = .ok (n', o'))

/-- A command that is not below the floor of its session, not late and not beyond the window
is not dropped for its tick. -/
theorem Server.receiveInput_within {s : Server F} {sid : SessionId} {cmd : InputCmdProto F}
    (hfloor : ((s.lastEmittedFloor.lookup sid).getD 0).toNat ≤ cmd.tick.toNat)
    (hlate : s.world.tick.toNat ≤ cmd.tick.toNat)
    (hfuture : cmd.tick.toNat ≤
      s.world.tick.toNat + s.inputBuffer.config.maxFutureTicks.toNat) :
    (∃ s' result, s.receiveInput sid cmd = .ok (s', result) ∧ result.isTickDrop = false) ∨
      2 ^ 64 ≤ s.world.tick.toNat + s.inputBuffer.config.maxFutureTicks.toNat ∧
        ∃ e, s.receiveInput sid cmd = .error e := by
  rw [receiveInput_eq]
  rcases s.sessionPlayers.lookup sid with _ | p
  · exact .inl ⟨_, _, rfl, rfl⟩
  · rcases screen_within hfloor hlate hfuture with hscreen | ⟨hoverflow, e, hscreen⟩
    · rw [hscreen]
      rcases finiteMoveDir cmd.moveDir with _ | _
      · exact .inl ⟨_, _, rfl, rfl⟩
      · refine .inl ⟨_, _, rfl, ?_⟩
        rcases (s.inputBuffer.tryBuffer p cmd).2 with clamped | _ | _
        · cases clamped <;> rfl
        · rfl
        · rfl
    · rw [hscreen]
      exact .inr ⟨hoverflow, e, rfl⟩

theorem targeting_safe {config : ServerConfig} {ops : List (NetworkOp F)} {n : Network F}
    {outs : List (NetworkOut F)} (hrun : runNetwork config ops = .ok (n, outs)) :
    TargetingSafe outs n := by
  have h := targeting_of_run hrun
  refine ⟨fun ops n' outs' hrest sid c hc => client_le_of_run hrest hc, fun sid c hc hlive => ?_,
    h.aimed, ?_⟩
  · obtain ⟨floor, hfloor, htop⟩ := h.bounded.upToDate sid hlive
    exact ⟨floor, hfloor, (h.bounded.clients sid c hc).trans htop.ge⟩
  · intro i sid cmd floor before o after hi hsent hlive hsplit hemitted hquiet hfuture
    -- The session's floor is the floor the client held, so the command is not below it.
    obtain ⟨last, hlast, htop⟩ := h.bounded.upToDate sid hlive
    have hcurrent := h.current before o after floor hsplit hemitted hquiet
    obtain ⟨first, rest, hsent⟩ := List.append_of_mem hsent
    have hheld := (h.aimed first rest sid floor cmd hsent).held
    have hbelow : ((n.server.lastEmittedFloor.lookup sid).getD 0).toNat ≤ cmd.tick.toNat := by
      rw [hlast, Option.getD_some, htop]
      exact hcurrent.ge.trans hheld
    have hlate : n.server.world.tick.toNat ≤ cmd.tick.toNat :=
      (Nat.le_add_right _ _).trans (hcurrent.ge.trans hheld)
    rw [← h.bounded.window] at hfuture ⊢
    have hexec : n.exec (.deliver i) = liftNetwork (n.server.receiveInput sid cmd) >>= fun x =>
        pure ({ n with server := x.1 }, .delivered sid cmd x.2) := by
      simp only [Network.exec, hi]
    rw [hexec]
    rcases Server.receiveInput_within hbelow hlate hfuture with
      ⟨s', result, hs, hresult⟩ | ⟨hoverflow, e, hs⟩
    · rw [hs]
      refine ⟨fun n' o' heq => ?_, fun _ => ⟨_, _, rfl⟩⟩
      obtain ⟨-, rfl⟩ := Prod.mk.inj (Except.ok.inj heq)
      exact ⟨result, rfl, hresult⟩
    · rw [hs]
      refine ⟨fun n' o' heq => ?_, fun hlt => absurd hlt (Nat.not_lt.2 hoverflow)⟩
      simp [liftNetwork, bind, Except.bind] at heq

/-- The floor of the first snapshot has reached the client, and no step has followed. -/
theorem targeting_safe_of_poll : ∃ n outs,
    runNetwork (F := ℚ) {} [.join, .start 0, .step, .poll 1 [0], .send 1 0 (1, 0)] =
      .ok (n, outs) ∧
    outs.map (fun o => (o.emitted, o.isStepped)) =
      [(some 1, false), (none, false), (some 2, true), (none, false), (none, false)] ∧
    n.commands.map (fun x => (x.1, x.2.tick)) = [(1, 2)] ∧ n.server.sessions.keys = [1] ∧
    TargetingSafe outs n := by
  have h : (runNetwork (F := ℚ) {} [.join, .start 0, .step, .poll 1 [0], .send 1 0 (1, 0)]).map
      (fun x => (x.2.map (fun o => (o.emitted, o.isStepped)),
        x.1.commands.map (fun y => (y.1, y.2.tick)), x.1.server.sessions.keys)) =
      .ok ([(some 1, false), (none, false), (some 2, true), (none, false), (none, false)],
        [(1, 2)], [1]) := by
    decide +kernel
  obtain ⟨⟨n, outs⟩, hrun, heq⟩ := map_eq_ok.1 h
  obtain ⟨houts, hcommands, hkeys⟩ : _ ∧ _ ∧ _ := by simpa only [Prod.mk.injEq] using heq
  exact ⟨n, outs, hrun, houts, hcommands, hkeys, targeting_safe hrun⟩

end Flowstate
