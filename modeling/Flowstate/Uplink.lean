import Flowstate.Admission
import Flowstate.Certificate
import Flowstate.Headroom

/-!
# From the player's keys to the player's character

A client marks one character as its own, and sends the moves of its player for the floor of the
world it shows. If the packet arrives while the connection stands, the loop takes it for the
session of the client, and the session's player is that character's. It is in time exactly if
the server still holds the tick that the client was showing (`steers`).
-/

set_option linter.unusedSectionVars false

open Rust

namespace Flowstate

variable {F : Type} [F64 F]

/-! ## Sessions of the loop -/

/-- Every binding is to a live session of its own. -/
structure Owned (s : Edge F) : Prop where
  injective : ∀ peer peer' sid, s.loop.peerSessions.lookup peer = some sid →
    s.loop.peerSessions.lookup peer' = some sid → peer = peer'
  live : ∀ peer sid, s.loop.peerSessions.lookup peer = some sid → sid ∈ s.loop.server.sessions

theorem Owned.exec {d : Decoder F} {s s' : Edge F} {x : Service} {o : LoopOut F} (h : Owned s)
    (hbelow : ∀ sid ∈ s.loop.server.sessions, sid < s.loop.server.nextSessionId)
    (hexec : s.exec d x = .ok (s', o)) : Owned s' := by
  cases Edge.steps_of_exec hexec with
  | connect | packet | part | quiet => exact ⟨h.injective, h.live⟩
  | @hello peer _ _ _ server server' sid p e welcome _ _ hnew haccept hwelcome =>
    obtain ⟨-, rfl, -, nextSid, nextPid, world, -, -, -, rfl⟩ := Server.acceptSession_eq_ok.1 haccept
    obtain ⟨session, -, floor, -, rfl, -⟩ := Server.welcomeFor_eq_ok.1 hwelcome
    have hfresh : ∀ peer', s.loop.peerSessions.lookup peer' ≠ some s.loop.server.nextSessionId :=
      fun peer' hlookup => UInt64.lt_irrefl _ (hbelow _ (h.live peer' _ hlookup))
    refine ⟨fun q q' sid' hq hq' => ?_, fun q sid' hq => AList.mem_insert _ |>.2 ?_⟩
    · change AList.lookup q (s.loop.peerSessions.insert peer _) = _ at hq
      change AList.lookup q' (s.loop.peerSessions.insert peer _) = _ at hq'
      rw [HashMap.lookup_insert] at hq hq'
      split_ifs at hq hq' with hpeer hpeer' hpeer'
      · rw [hpeer, hpeer']
      · obtain rfl := Option.some.inj hq
        exact absurd hq' (hfresh q')
      · obtain rfl := Option.some.inj hq'
        exact absurd hq (hfresh q)
      · exact h.injective q q' sid' hq hq'
    · change AList.lookup q (s.loop.peerSessions.insert peer _) = _ at hq
      rw [HashMap.lookup_insert] at hq
      split_ifs at hq with hpeer
      · exact .inl (Option.some.inj hq).symm
      · exact .inr (h.live q sid' hq)
  | command _ _ hs =>
    refine ⟨h.injective, fun q sid' hq => ?_⟩
    rcases Server.receiveInput_cases hs with rfl | ⟨p, -, -, rfl, -⟩ <;> exact h.live q sid' hq
  | @close peer sid _ hsid =>
    have hother : ∀ q sid', AList.lookup q (s.loop.peerSessions.erase peer) = some sid' →
        q ≠ peer ∧ s.loop.peerSessions.lookup q = some sid' := by
      intro q sid' hq
      rw [HashMap.lookup_erase] at hq
      split_ifs at hq with hpeer
      exact ⟨hpeer, hq⟩
    refine ⟨fun q q' sid' hq hq' =>
      h.injective q q' sid' (hother q sid' hq).2 (hother q' sid' hq').2, fun q sid' hq => ?_⟩
    obtain ⟨hpeer, hbefore⟩ := hother q sid' hq
    change sid' ∈ (s.loop.server.disconnectSession sid).sessions
    unfold Server.disconnectSession
    rcases s.loop.server.sessions.lookup sid with _ | session
    · exact h.live q sid' hbefore
    · refine AList.mem_erase.2 ⟨?_, h.live q sid' hbefore⟩
      rintro rfl
      exact hpeer (h.injective q peer sid' hbefore hsid)
  | tick _ hs =>
    obtain ⟨next, -, -, rfl, -, -⟩ := Server.step_eq_ok.1 hs
    exact ⟨h.injective, h.live⟩

theorem owned_of_run {d : Decoder F} {config : ServerConfig} {xs : List Service} {s : Edge F}
    {outs : List (LoopOut F)} (hrun : runEdge d config xs = .ok (s, outs)) : Owned s := by
  obtain ⟨s₀, hnew, hrun⟩ := bind_eq_ok.1 hrun
  obtain ⟨server, -, rfl⟩ := Edge.new_eq_ok (liftLoop_eq_ok.1 hnew)
  refine Machine.run_induction (M := edgeMachine d) (P := fun _ u => Owned u)
    ⟨fun _ _ _ hlookup => (by cases hlookup), fun _ _ hlookup => (by cases hlookup)⟩
    (fun xs u os x v o hbefore hu hexec => ?_) hrun
  obtain ⟨oss, hserver, -⟩ := runEdge_calls (bind_eq_ok.2 ⟨_, hnew, hbefore⟩)
  exact hu.exec (told_of_run hserver).below hexec

/-- The number of a session is not used again, so it keeps its player for good. -/
theorem sessionPlayers_of_run {ops : List (Op F)} {s t : Server F} {outs : List (Out F)}
    (hrun : (serverMachine F).run s ops = .ok (t, outs)) {sid : SessionId} {p : PlayerId}
    (hbelow : sid < s.nextSessionId) (hsid : s.sessionPlayers.lookup sid = some p) :
    ∀ q, t.sessionPlayers.lookup sid = some q → q = p := by
  refine (Machine.run_invariant (M := serverMachine F) (P := fun u => sid < u.nextSessionId ∧
    ∀ q, u.sessionPlayers.lookup sid = some q → q = p) (fun u op v o hu hexec => ?_)
    ⟨hbelow, fun q hq => Option.some.inj (hq.symm.trans hsid)⟩ hrun).2
  obtain ⟨hlt, hplayer⟩ := hu
  change u.exec op = .ok (v, o) at hexec
  cases op with
  | acceptSession =>
    obtain ⟨sid', p', e, hs, rfl⟩ := Server.exec_acceptSession.1 hexec
    obtain ⟨-, rfl, -, nextSid, nextPid, world, hnext, -, -, rfl⟩ :=
      Server.acceptSession_eq_ok.1 hs
    refine ⟨?_, fun q hq => ?_⟩
    · rw [UInt64.lt_iff_toNat_lt] at hlt ⊢
      change sid.toNat < nextSid.toNat
      omega
    · change AList.lookup sid (u.sessionPlayers.insert _ p') = some q at hq
      rw [HashMap.lookup_insert] at hq
      split_ifs at hq with heq
      · exact absurd (heq ▸ hlt) (UInt64.lt_irrefl _)
      · exact hplayer q hq
  | welcomeFor sid' =>
    obtain ⟨welcome, hs, rfl⟩ := Server.exec_welcomeFor.1 hexec
    obtain ⟨session, -, floor, -, rfl, -⟩ := Server.welcomeFor_eq_ok.1 hs
    exact ⟨hlt, hplayer⟩
  | receiveInput sid' input =>
    obtain ⟨result, hs, rfl⟩ := Server.exec_receiveInput.1 hexec
    rcases Server.receiveInput_cases hs with rfl | ⟨p', -, -, rfl, -⟩ <;> exact ⟨hlt, hplayer⟩
  | disconnectSession sid' =>
    obtain ⟨rfl, rfl⟩ := Server.exec_disconnectSession.1 hexec
    unfold Server.disconnectSession
    rcases u.sessions.lookup sid' with _ | session
    · exact ⟨hlt, hplayer⟩
    · refine ⟨hlt, fun q hq => ?_⟩
      change AList.lookup sid (u.sessionPlayers.erase sid') = some q at hq
      rw [HashMap.lookup_erase] at hq
      split_ifs at hq
      exact hplayer q hq
  | step =>
    obtain ⟨snapshot, floor, bytes, hs, rfl⟩ := Server.exec_step.1 hexec
    obtain ⟨next, -, -, rfl, -, -⟩ := Server.step_eq_ok.1 hs
    exact ⟨hlt, hplayer⟩

/-! ## A client over time -/

/-- What a client keeps : its peer, and the session opened for it. -/
structure Client.Keeps (c c' : Client F) : Prop where
  peer : c'.peer = c.peer
  connected : c'.connected = true → c.connected = true
  accepted : ∀ a, c.accepted = some a → c'.accepted = some a

theorem Client.Keeps.refl (c : Client F) : c.Keeps c := ⟨rfl, id, fun _ => id⟩

theorem Client.Keeps.trans {c c' c'' : Client F} (h : c.Keeps c') (h' : c'.Keeps c'') :
    c.Keeps c'' :=
  ⟨h'.peer.trans h.peer, fun hc => h.connected (h'.connected hc),
    fun a ha => h'.accepted a (h.accepted a ha)⟩

/-- Whatever happens, the clients stay. -/
theorem Synced.keeps {config : ServerConfig} {calls : List (Op F)}
    {messages : List (SnapshotProto F)} {d : Decoder F} {s s' : System F}
    (h : Synced config calls messages s) {op : SystemOp} {o : Option (LoopOut F)}
    (hexec : s.exec d op = .ok (s', o)) {i : ℕ} {c : Client F} (hi : s.clients[i]? = some c) :
    ∃ c', s'.clients[i]? = some c' ∧ c.Keeps c' := by
  have hset : ∀ {j : ℕ} {c₁ : Client F} {scene : Godot.MatchScene} {control : List Protobuf.Bytes},
      s.clients[j]? = some c₁ →
      ∃ c', (s.clients.set j { c₁ with scene, control })[i]? = some c' ∧ c.Keeps c' := by
    intro j c₁ scene control hj
    by_cases hij : j = i
    · subst hij
      obtain rfl := Option.some.inj (hi.symm.trans hj)
      refine ⟨{ c with scene, control }, ?_, rfl, id, fun _ => id⟩
      rw [List.getElem?_set_self (List.getElem?_eq_some_iff.1 hi).1]
    · exact ⟨c, by rw [List.getElem?_set_ne hij, hi], .refl c⟩
  cases System.steps_of_exec hexec with
  | connect =>
    exact ⟨c, by rw [List.getElem?_append_left (List.getElem?_eq_some_iff.1 hi).1, hi], .refl c⟩
  | @disconnect peer =>
    refine ⟨c.part peer, by rw [List.getElem?_map, hi]; rfl, ?_⟩
    unfold Client.part
    split_ifs
    · exact ⟨rfl, fun hc => absurd hc (by simp), fun _ => id⟩
    · exact .refl c
  | @opened x edge peer sid welcome baseline hedge =>
    refine ⟨_, by rw [List.getElem?_map, hi]; rfl, ?_⟩
    rcases c.accept_cases peer (sid, welcome, baseline) [welcome.encode, baseline.encode] with
      ⟨hconnected, rfl, heq⟩ | heq <;> rw [heq]
    · -- A peer that has a session already is not opened another.
      have hnew : c.peer ∉ s.edge.loop.peerSessions := by
        cases Edge.steps_of_exec hedge with
        | hello _ _ hnew => exact hnew
        | quiet _ ho => rcases ho with ho | ho <;> cases ho
      refine ⟨rfl, id, fun a ha => ?_⟩
      have hlookup := h.bound c (List.mem_of_getElem? hi) hconnected a ha
      exact absurd (AList.lookup_isSome.1 (by rw [hlookup]; rfl)) hnew
    · exact .refl c
  | broadcast | other => exact ⟨c, hi, .refl c⟩
  | frame hj => exact hset hj
  | move hj => exact hset hj

theorem keeps_of_run {d : Decoder F} {config : ServerConfig} {ops ops' : List SystemOp}
    {s t : System F} {outs outs' : List (Option (LoopOut F))}
    (hrun : runSystem d config ops = .ok (s, outs))
    (hrest : (systemMachine d).run s ops' = .ok (t, outs')) {i : ℕ} {c : Client F}
    (hi : s.clients[i]? = some c) : ∃ c', t.clients[i]? = some c' ∧ c.Keeps c' := by
  refine Machine.run_induction (M := systemMachine d)
    (P := fun _ u => ∃ c', u.clients[i]? = some c' ∧ c.Keeps c') ⟨c, hi, .refl c⟩
    (fun more u os op v o hbefore hu hexec => ?_) hrest
  obtain ⟨c', hi', hkeeps⟩ := hu
  obtain ⟨messages, hsynced⟩ := Synced.of_run (runSystem_append hrun hbefore).1
  obtain ⟨c'', hi'', hkeeps'⟩ := hsynced.keeps hexec hi'
  exact ⟨c'', hi'', hkeeps.trans hkeeps'⟩

/-- A connection goes by a disconnect of its peer and by nothing else. -/
theorem Edge.Steps.mem_connections {d : Decoder F} {s s' : Edge F} {x : Service} {o : LoopOut F}
    (h : s.Steps d x s' o) {peer : PeerId} (hpeer : peer ∈ s.host.connections)
    (hx : x ≠ .event (.disconnect peer)) : peer ∈ s'.host.connections := by
  cases h with
  | connect | hello | command | packet => exact AList.mem_insert _ |>.2 (.inr hpeer)
  | @close q | @part q =>
    refine AList.mem_erase.2 ⟨?_, hpeer⟩
    rintro rfl
    exact hx rfl
  | quiet | tick => exact hpeer

/-- The host holds the connection of every client that has not lost it. -/
theorem mem_connections_of_run {d : Decoder F} {config : ServerConfig} {ops : List SystemOp}
    {s : System F} {outs : List (Option (LoopOut F))}
    (hrun : runSystem d config ops = .ok (s, outs)) :
    ∀ c ∈ s.clients, c.connected = true → c.peer ∈ s.edge.host.connections := by
  obtain ⟨s₀, hnew, hrun⟩ := bind_eq_ok.1 hrun
  refine Machine.run_invariant (M := systemMachine d) (P := fun u => ∀ c ∈ u.clients,
    c.connected = true → c.peer ∈ u.edge.host.connections) (fun u op v o hu hexec => ?_) ?_ hrun
  · -- Of the clients it had, each keeps its connection.
    have hkeep : ∀ {x : Service} {edge : Edge F} {o : LoopOut F},
        u.edge.exec d x = .ok (edge, o) → ∀ c ∈ u.clients, c.connected = true →
        x ≠ .event (.disconnect c.peer) → c.peer ∈ edge.host.connections :=
      fun hedge c hc hconnected hx =>
        (Edge.steps_of_exec hedge).mem_connections (hu c hc hconnected) hx
    have hset : ∀ {i : ℕ} {c : Client F} {scene : Godot.MatchScene}
        {control : List Protobuf.Bytes}, u.clients[i]? = some c →
        ∀ c' ∈ u.clients.set i { c with scene, control }, c'.connected = true →
        c'.peer ∈ u.edge.host.connections := by
      intro i c scene control hi c' hc' hconnected
      rcases List.mem_or_eq_of_mem_set hc' with hc' | rfl
      · exact hu c' hc' hconnected
      · exact hu c (List.mem_of_getElem? hi) hconnected
    cases System.steps_of_exec hexec with
    | @connect peer edge o hedge =>
      intro c hc hconnected
      rcases List.mem_append.1 hc with hc | hc
      · exact hkeep hedge c hc hconnected nofun
      · obtain rfl := List.mem_singleton.1 hc
        cases Edge.steps_of_exec hedge with
        | connect => exact AList.mem_insert _ |>.2 (.inl rfl)
        | quiet hx => exact absurd rfl (hx _)
        | tick hx => exact absurd rfl (hx _)
    | @disconnect peer edge o hedge =>
      intro c' hc' hconnected
      obtain ⟨c, hc, rfl⟩ := List.mem_map.1 hc'
      unfold Client.part at hconnected ⊢
      split_ifs at hconnected ⊢ with hpeer
      refine hkeep hedge c hc hconnected fun hx => hpeer ?_
      cases hx
      rfl
    | @opened x edge peer sid welcome baseline hedge =>
      intro c' hc' hconnected
      obtain ⟨c, hc, rfl⟩ := List.mem_map.1 hc'
      have hx : x ≠ .event (.disconnect c.peer) := by
        cases Edge.steps_of_exec hedge with
        | hello => exact nofun
        | quiet hx => exact hx _
      rcases c.accept_cases peer (sid, welcome, baseline) [welcome.encode, baseline.encode] with
        ⟨-, -, heq⟩ | heq <;> rw [heq] at hconnected ⊢ <;> exact hkeep hedge c hc hconnected hx
    | @broadcast x edge bytes hedge =>
      intro c hc hconnected
      refine hkeep hedge c hc hconnected ?_
      cases Edge.steps_of_exec hedge with
      | quiet hx => exact hx _
      | tick hx => exact hx _
    | other hedge hx => exact fun c hc hconnected => hkeep hedge c hc hconnected (hx c.peer).2
    | frame hi | move hi => exact hset hi
  · obtain ⟨edge, -, h⟩ := bind_eq_ok.1 (liftLoop_eq_ok.1 (liftSystem_eq_ok.1 hnew))
    obtain rfl := Except.ok.inj h
    exact fun c hc => absurd hc List.not_mem_nil

/-! ## A move -/

/-- A command for a session whose floor is the tick plus the lead is dropped for its tick exactly
if it was aimed from an earlier one. -/
theorem Server.isTickDrop_receiveInput {t t' : Server F} {sid : SessionId} {cmd : InputCmdProto F}
    {result : ValidationResult} {shown : ℕ} {p : PlayerId} {floor : Tick}
    (hplayer : t.sessionPlayers.lookup sid = some p)
    (hlast : t.lastEmittedFloor.lookup sid = some floor)
    (hfloor : floor.toNat = t.world.tick.toNat + t.config.inputLeadTicks.toNat)
    (hwindow : t.config.inputLeadTicks.toNat ≤ t.inputBuffer.config.maxFutureTicks.toNat)
    (hcmd : cmd.tick.toNat = shown + t.config.inputLeadTicks.toNat)
    (hshown : shown ≤ t.world.tick.toNat) (hfinite : finiteMoveDir cmd.moveDir = true)
    (hs : t.receiveInput sid cmd = .ok (t', result)) :
    result.isTickDrop = false ↔ shown = t.world.tick.toNat := by
  by_cases heq : shown = t.world.tick.toNat
  · have hbelow : ((t.lastEmittedFloor.lookup sid).getD 0).toNat ≤ cmd.tick.toNat := by
      rw [hlast, Option.getD_some]
      omega
    rcases Server.receiveInput_within hbelow (by omega) (by omega) with
      ⟨_, _, hs', hdrop⟩ | ⟨-, e, hs'⟩
    · obtain ⟨-, rfl⟩ := Prod.mk.inj (Except.ok.inj (hs.symm.trans hs'))
      exact iff_of_true hdrop heq
    · rw [hs'] at hs
      cases hs
  · have hlt : cmd.tick < floor := by
      rw [UInt64.lt_iff_toNat_lt]
      omega
    have hscreen : screen t.inputBuffer.config.maxFutureTicks t.world.tick
        ((t.lastEmittedFloor.lookup sid).getD 0) cmd =
          .ok (some (.droppedBelowFloor cmd.tick floor)) := by
      rw [hlast, Option.getD_some, screen, hfinite, if_neg (by simp), if_pos hlt]
    rw [Server.receiveInput_eq, hplayer] at hs
    simp only [hscreen] at hs
    obtain ⟨-, rfl⟩ := Prod.mk.inj (Except.ok.inj hs)
    exact iff_of_false (by simp [ValidationResult.isTickDrop]) heq

theorem upToDate_of_runEdge {d : Decoder F} {config : ServerConfig} {xs : List Service}
    {s : Edge F} {outs : List (LoopOut F)} (hrun : runEdge d config xs = .ok (s, outs)) :
    UpToDate s.loop.server := by
  obtain ⟨oss, hserver, -, hgreeted⟩ := runEdge_calls hrun
  obtain ⟨s₀, hnew, hserver⟩ := bind_eq_ok.1 hserver
  obtain ⟨-, rfl⟩ := Server.new_eq_ok.1 hnew
  exact UpToDate.run (fun sid hmem => absurd hmem List.not_mem_nil) hserver hgreeted

/-- While the window's end does not overflow, a command is answered. -/
theorem Server.exists_receiveInput {t : Server F} {sid : SessionId} {p : PlayerId}
    (hplayer : t.sessionPlayers.lookup sid = some p)
    (hroom : t.world.tick.toNat + t.inputBuffer.config.maxFutureTicks.toNat < 2 ^ 64)
    (cmd : InputCmdProto F) : ∃ t' result, t.receiveInput sid cmd = .ok (t', result) := by
  obtain ⟨verdict, hscreen, -⟩ : ∃ verdict, screen t.inputBuffer.config.maxFutureTicks
      t.world.tick ((t.lastEmittedFloor.lookup sid).getD 0) cmd = .ok verdict ∧ _ :=
    screen_of_lt hroom cmd
  rw [Server.receiveInput_eq, hplayer]
  simp only [hscreen]
  cases verdict with
  | none => exact ⟨_, _, rfl⟩
  | some result => exact ⟨t, result, rfl⟩

/-- The loop hands a command of a bound peer to its server, once it is ticking. -/
theorem Edge.exec_command {d : Decoder F} {t : Edge F} {peer : PeerId} {packet : Protobuf.Bytes}
    {sid : SessionId} {cmd : InputCmdProto F} {server : Server F} {result : ValidationResult}
    (hphase : t.loop.phase = .ticking) (hlookup : t.loop.peerSessions.lookup peer = some sid)
    (hpeer : peer ∈ t.host.connections) (hdecode : d.inputCmd packet = some cmd)
    (hs : t.loop.server.receiveInput sid cmd = .ok (server, result)) :
    ∃ t', t.exec d (.event (.receive peer channelRealtime packet)) =
      .ok (t', .attributed peer sid result) := by
  have hmem : peer ∈ t.loop.peerSessions := AList.lookup_isSome.1 (by rw [hlookup]; rfl)
  have hhandle : t.loop.handle d (.receive peer channelRealtime packet) =
      .ok ({ t.loop with server }, .attributed peer sid result) := by
    rw [TickLoop.handle, if_neg fun h => h.2 hmem, if_pos rfl]
    simp only [hlookup, hdecode, hs]
    rfl
  have hloop : t.loop.exec d (.event (.receive peer channelRealtime packet)) =
      .ok ({ t.loop with server }, .attributed peer sid result) := by
    simp only [TickLoop.exec, hphase, hhandle]
    rfl
  obtain ⟨host, hhost⟩ : ∃ host,
      t.host.yields d (.receive peer channelRealtime packet) = some host := by
    obtain ⟨greeted, hgreeted⟩ := Option.isSome_iff_exists.1 (AList.lookup_isSome.2 hpeer)
    simp only [Host.yields, hgreeted, Option.some.injEq, exists_eq']
  refine ⟨⟨host, { t.loop with server }⟩, ?_⟩
  rw [Edge.exec, hhost, hloop]
  rfl

/-- The command that a ready client sends for a direction. -/
def Client.moveCommand (c : Client F) (moveDir : List F) : InputCmdProto F :=
  ⟨c.scene.networkClient.getTickFloor.toUInt64,
    (c.scene.networkClient.inputSeq.seq + 1).toUInt64, moveDir⟩

/-- The loop, at `t`, takes a command of `c` for the player whose character `c` shows as its own,
and finds it in time exactly if it holds the tick that `c` shows. -/
def Steered (c : Client F) (t : Server F) (cmd : InputCmdProto F) (o : LoopOut F) : Prop :=
  ∃ sid p e result, o = .attributed c.peer sid result ∧ t.sessionPlayers.lookup sid = some p ∧
    (e, p) ∈ t.world.ids ∧ c.scene.matchState.controlledEntityId = e.toInt64 ∧
    (finiteMoveDir cmd.moveDir = true → (result.isTickDrop = false ↔
      c.scene.matchState.latestTick.toInt = t.world.tick.toNat))

theorem toNat_toUInt64 {x : Int64} {n : ℕ} (h : x.toInt = n) : x.toUInt64.toNat = n := by
  have hbits := Gdscript.toInt_eq_ite x
  rw [h] at hbits
  split_ifs at hbits
  · exact_mod_cast hbits.symm
  · have hlt := x.toUInt64.toNat_lt
    omega

/-- A ready client sends a move of its player, as a command for the floor of the world that it
shows. Should the packet arrive later, the connection still standing, it is taken for the player
whose character the client shows as its own, and is in time exactly if the server still holds
the tick that the client showed. -/
theorem steers {d : Decoder F} {config : ServerConfig}
    (hfits : config.matchDurationTicks.toNat + config.inputLeadTicks.toNat < 2 ^ 63)
    (hroom : config.matchDurationTicks.toNat + config.maxFutureTicks.toNat < 2 ^ 64)
    (hwindow : config.inputLeadTicks.toNat ≤ config.maxFutureTicks.toNat) {ops : List SystemOp}
    {s : System F} {outs : List (Option (LoopOut F))}
    (hrun : runSystem d config ops = .ok (s, outs)) {i : ℕ} {c : Client F}
    (hi : s.clients[i]? = some c) (hready : c.scene.networkClient.state = .ready)
    (moveDir : List F) :
    let cmd := c.moveCommand moveDir
    (∃ scene, c.scene.onMoveDirChanged (moveDir.map F64.toBits) = some scene ∧
      scene.networkClient.sent = c.scene.networkClient.sent ++
        [⟨Godot.Channels.channelRealtime, cmd.encode, 0⟩]) ∧
    cmd.tick.toNat = c.scene.matchState.latestTick.toInt + config.inputLeadTicks.toNat ∧
    ∀ ops' t outs' c', (systemMachine d).run s ops' = .ok (t, outs') →
      t.clients[i]? = some c' → c'.connected = true → t.edge.loop.phase = .ticking →
      d.inputCmd cmd.encode = some cmd →
      ∃ edge o, t.edge.exec d (.event (.receive c'.peer channelRealtime cmd.encode)) =
        .ok (edge, o) ∧ Steered c t.edge.loop.server cmd o := by
  intro cmd
  have hc := List.mem_of_getElem? hi
  obtain ⟨messages, hsynced⟩ := Synced.of_run hrun
  obtain ⟨g, hsent, -, hshown⟩ := (hsynced.stage c hc).mirrors_of_ready hready
  obtain ⟨a, ha, rfl⟩ := Option.map_eq_some_iff.1 hsent
  obtain ⟨-, u₀, hu₀, hwelcomes⟩ := hsynced.welcomed c hc a ha
  obtain ⟨p, hplayer, -, hown⟩ := hwelcomes.own
  obtain ⟨u, hu, hdisplays⟩ := exists_displays hrun hfits hc hready
  obtain ⟨scene, hmove, hpacket, -⟩ :=
    Godot.onMoveDirChanged_of_ready hready (moveDir.map F64.toBits)
  have hfloor := hdisplays.floor
  rw [hu.config_eq] at hfloor
  have htick : cmd.tick.toNat = u.world.tick.toNat + config.inputLeadTicks.toNat :=
    toNat_toUInt64 (hfloor.trans (Nat.cast_add _ _).symm)
  have hencode : Godot.WireCodec.encodeInputCmdProto ⟨c.scene.networkClient.getTickFloor,
      c.scene.networkClient.inputSeq.seq + 1, moveDir.map F64.toBits⟩ = cmd.encode := by
    rw [← cmd.encode_toGodot]
    rfl
  refine ⟨⟨scene, hmove, hencode ▸ hpacket⟩, ?_, ?_⟩
  · rw [htick, hdisplays.tick]
    exact Nat.cast_add _ _
  intro ops' t outs' c' hrest hi' hconnected hphase hdecode
  obtain ⟨c'', hi'', hkeeps⟩ := keeps_of_run hrun hrest hi
  obtain rfl := Option.some.inj (hi'.symm.trans hi'')
  obtain ⟨hwhole, hzip⟩ := runSystem_append hrun hrest
  obtain ⟨messages', hsynced'⟩ := Synced.of_run hwhole
  obtain ⟨os, hserver⟩ := hsynced'.run
  -- The connection is bound to the session of the client.
  have hlookup := hsynced'.bound c' (List.mem_of_getElem? hi') hconnected a (hkeeps.accepted a ha)
  have hedge := runEdge_of_runSystem hwhole
  have hlive := (owned_of_run hedge).live _ _ hlookup
  obtain ⟨floor, hlast, hemitted⟩ := upToDate_of_runEdge hedge _ hlive
  obtain ⟨hconfig, hfuture⟩ := config_of_runServer hserver
  rw [hzip, List.flatMap_append] at hserver
  obtain ⟨q, hq⟩ := (told_of_run hserver).player _ hlive
  -- The session has the player that it was accepted with.
  obtain ⟨after, os', hafter⟩ := (hu₀.append _).exists_run hserver
  obtain rfl := sessionPlayers_of_run hafter hwelcomes.used hplayer q hq
  have hspace : t.edge.loop.server.world.tick.toNat +
      t.edge.loop.server.inputBuffer.config.maxFutureTicks.toNat < 2 ^ 64 := by
    have htime := (Paced.of_run hedge).tick_le
    rw [hconfig] at htime
    rw [hfuture]
    omega
  obtain ⟨server, result, hs⟩ := Server.exists_receiveInput hq hspace cmd
  have hpeer := mem_connections_of_run hwhole c' (List.mem_of_getElem? hi') hconnected
  obtain ⟨edge, hexec⟩ := Edge.exec_command hphase hlookup hpeer hdecode hs
  refine ⟨edge, _, hexec, ?_⟩
  refine ⟨a.1, q, a.2.1.controlledEntityId, result, by rw [hkeeps.peer], hq,
    (ids_of_run hu₀.ordered hafter).subset hown, hshown.controlled, fun hfinite => ?_⟩
  rw [hdisplays.tick, Nat.cast_inj]
  refine Server.isTickDrop_receiveInput hq hlast hemitted ?_ ?_ ((hu.append _).tick_le hserver)
    hfinite hs
  · rw [hconfig, hfuture]
    exact hwindow
  · rw [hconfig]
    exact htick

/-- The first command of a client, in time. -/
theorem steers_first : ∃ s outs c t outs' edge o,
    runSystem oneCommand {} [.serve (.event (.connect 0)),
      .serve (.event (.receive 0 channelControl [])), .frame 0 [.connect, .control, .control]] =
        .ok (s, outs) ∧ s.clients[0]? = some c ∧
    (systemMachine oneCommand).run s [.serve (.idle false)] = .ok (t, outs') ∧
    t.edge.exec oneCommand (.event (.receive 0 channelRealtime (c.moveCommand [0, 0]).encode)) =
      .ok (edge, o) ∧
    o = .attributed 0 1 .accepted ∧ Steered c t.edge.loop.server (c.moveCommand [0, 0]) o := by
  have h : (runSystem oneCommand {} [.serve (.event (.connect 0)),
      .serve (.event (.receive 0 channelControl [])), .frame 0 [.connect, .control, .control]] >>=
        fun x => (systemMachine oneCommand).run x.1 [.serve (.idle false)] >>= fun y =>
          (x.1.clients[0]?.elim (.error .impossible) .ok) >>= fun c =>
            (liftSystem (y.1.edge.exec oneCommand
              (.event (.receive 0 channelRealtime (c.moveCommand [0, 0]).encode)))).map fun z =>
                (z.2, decide (c.scene.networkClient.state = .ready ∧
                  oneCommand.inputCmd (c.moveCommand [0, 0]).encode =
                    some (c.moveCommand [0, 0]) ∧ y.1.edge.loop.phase = .ticking ∧
                  y.1.clients.map (fun c => (c.peer, c.connected)) = [(0, true)]))) =
      .ok (.attributed 0 1 .accepted, true) := by
    decide +kernel
  obtain ⟨⟨s, outs⟩, hrun, h⟩ := bind_eq_ok.1 h
  obtain ⟨⟨t, outs'⟩, hrest, h⟩ := bind_eq_ok.1 h
  obtain ⟨c, hi, h⟩ := bind_eq_ok.1 h
  obtain ⟨⟨edge, o⟩, hexec, heq⟩ := map_eq_ok.1 h
  obtain ⟨ho, heq⟩ := Prod.mk.inj heq
  obtain ⟨hready, hdecode, hphase, hclients⟩ := of_decide_eq_true heq
  have hi : s.clients[0]? = some c := by
    rcases hnone : s.clients[0]? with _ | c'
    · rw [hnone] at hi
      cases hi
    · rw [hnone] at hi
      exact congrArg some (Except.ok.inj hi)
  obtain ⟨c', hi', hpeer⟩ : ∃ c', t.clients[0]? = some c' ∧ (c'.peer, c'.connected) = (0, true) := by
    have h := congrArg (·[0]?) hclients
    simp only [List.getElem?_map, List.getElem?_cons_zero] at h
    exact Option.map_eq_some_iff.1 h
  obtain ⟨hpeer, hconnected⟩ := Prod.mk.inj hpeer
  have hexec := liftSystem_eq_ok.1 hexec
  obtain ⟨-, -, hsteers⟩ := steers (by decide) (by decide) (by decide) hrun hi hready [0, 0]
  obtain ⟨edge', o', hexec', hsteered⟩ := hsteers _ t outs' c' hrest hi' hconnected hphase hdecode
  rw [hpeer] at hexec'
  obtain ⟨rfl, rfl⟩ := Prod.mk.inj (Except.ok.inj (hexec'.symm.trans hexec))
  exact ⟨s, outs, c, t, outs', edge', o', hrun, hi, hrest, hexec, ho, hsteered⟩

end Flowstate
