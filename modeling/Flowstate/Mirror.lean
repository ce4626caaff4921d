import Flowstate.System

/-!
# What the clients show

Every message in flight was sent of a world that the server held in this match, and every
client is at a stage of its handshake with it (`Synced`). So no frame of a client ends in a
script error (`never_script`), a ready client shows a world of the match with its own
character in it, and two clients at one tick show the same of it (`shown_of_run`).
-/

set_option linter.unusedSectionVars false

open Rust

namespace Flowstate

open Godot (Stage)
open Godot.MatchState (entitiesOf)

variable {F : Type} [F64 F]

/-! ## A world as a client holds it -/

theorem Dictionary.set_of_notMem {K V : Type} [DecidableEq K] {key : K} {value : V} :
    ∀ {d : Dictionary K V}, key ∉ d.map Prod.fst → d.set key value = d ++ [(key, value)]
  | [], _ => rfl
  | (k, v) :: d, h => by
    rw [List.map_cons, List.mem_cons, not_or] at h
    rw [Dictionary.set, if_neg (Ne.symm h.1), set_of_notMem h.2]
    rfl

/-- Entities of different ids are held as they come. -/
theorem entitiesOf_of_nodup {entities : List Godot.EntitySnapshotProto}
    (h : (entities.map Godot.EntitySnapshotProto.entityId).Nodup) :
    entitiesOf entities = entities.map fun e => (e.entityId, e) := by
  induction entities using List.reverseRecOn with
  | nil => rfl
  | append_singleton entities e ih =>
    rw [List.map_append, List.nodup_append] at h
    obtain ⟨hentities, -, hdisjoint⟩ := h
    have hnew : e.entityId ∉ (entities.map fun e => (e.entityId, e)).map Prod.fst := by
      rw [List.map_map]
      exact fun hmem => hdisjoint _ hmem _ (by simp) rfl
    rw [entitiesOf, List.foldl_concat, ← entitiesOf, ih hentities, Dictionary.set_of_notMem hnew,
      List.map_append]
    rfl

/-- The entry of a character. -/
def Character.entry (c : Character F) : Int64 × Godot.EntitySnapshotProto :=
  (c.entityId.toInt64, c.toSnapshot.toProto.toGodot)

/-- What a client holds that shows `w`. -/
def World.entries (w : World F) : Dictionary Int64 Godot.EntitySnapshotProto :=
  w.characters.map Character.entry

theorem toInt64_injective : Function.Injective UInt64.toInt64 := fun a b h => by
  have h' := congrArg Int64.toUInt64 h
  rwa [UInt64.toUInt64_toInt64, UInt64.toUInt64_toInt64] at h'

theorem entitiesOf_world {w : World F} (h : Ordered w) :
    entitiesOf ((w.sortedEntitySnapshots.map EntitySnapshot.toProto).map
      EntitySnapshotProto.toGodot) = w.entries := by
  have hids : (((w.sortedEntitySnapshots.map EntitySnapshot.toProto).map
      EntitySnapshotProto.toGodot).map Godot.EntitySnapshotProto.entityId) =
        (w.characters.map Character.entityId).map UInt64.toInt64 := by
    simp only [World.sortedEntitySnapshots, List.map_map]
    rfl
  rw [entitiesOf_of_nodup (hids ▸ h.nodup.map toInt64_injective)]
  simp only [World.sortedEntitySnapshots, World.entries, List.map_map]
  rfl

/-! ## Where the messages come from -/

/-- What is sent for an accepted session, as the client decodes it. -/
def greeting (accepted : SessionId × ServerWelcome × JoinBaseline F) : Godot.Greeting :=
  ⟨accepted.2.1.toGodot, accepted.2.2.toGodot⟩

theorem packets_greeting (accepted : SessionId × ServerWelcome × JoinBaseline F) :
    (greeting accepted).packets = [accepted.2.1.encode, accepted.2.2.encode] := by
  rw [greeting, Godot.Greeting.packets, ServerWelcome.encode_toGodot, JoinBaseline.encode_toGodot]

/-- A snapshot message of the world that `u` holds. -/
def Server.Reports (u : Server F) (m : SnapshotProto F) : Prop :=
  ∃ floor : Tick, floor.toNat = u.world.tick.toNat + u.config.inputLeadTicks.toNat ∧
    m = (snapshotOf u.world).toMessage floor

/-- A session that `u` has just accepted, with its welcome and its baseline. -/
structure Server.Welcomes (u : Server F)
    (accepted : SessionId × ServerWelcome × JoinBaseline F) : Prop where
  baseline : accepted.2.2 = u.baselineProto
  floor : accepted.2.1.targetTickFloor.toNat =
    u.world.tick.toNat + u.config.inputLeadTicks.toNat
  used : accepted.1 < u.nextSessionId
  own : ∃ p, u.sessionPlayers.lookup accepted.1 = some p ∧
    accepted.2.1.playerId = p.toUInt32 ∧ (accepted.2.1.controlledEntityId, p) ∈ u.world.ids

theorem Server.welcomes_of_accept {s s' u : Server F} {sid : SessionId} {p : PlayerId}
    {e : EntityId} {welcome : ServerWelcome} (hordered : Ordered s.world)
    (haccept : s.acceptSession = .ok (s', sid, p, e))
    (hwelcome : s'.welcomeFor sid = .ok (u, welcome)) :
    u.Welcomes (sid, welcome, u.baselineProto) := by
  obtain ⟨-, rfl, -, nextSid, nextPid, world, hnext, -, hspawn, rfl⟩ :=
    Server.acceptSession_eq_ok.1 haccept
  obtain ⟨session, hsession, floor, hfloor, rfl, rfl⟩ := Server.welcomeFor_eq_ok.1 hwelcome
  obtain rfl : Session.new s.nextSessionId p e = session := by
    rw [HashMap.lookup_insert, if_pos rfl] at hsession
    exact Option.some.inj hsession
  obtain ⟨-, -, hcharacters⟩ := hordered.spawn hspawn
  refine ⟨rfl, hfloor, ?_, p, ?_, rfl, ?_⟩
  · rw [UInt64.lt_iff_toNat_lt]
    change s.nextSessionId.toNat < nextSid.toNat
    omega
  · change AList.lookup _ (s.sessionPlayers.insert _ p) = some p
    rw [HashMap.lookup_insert, if_pos rfl]
  · rw [World.ids, hcharacters, List.map_append]
    exact List.mem_append_right _ (List.mem_singleton_self (e, p))

theorem Client.accept_cases (peer : PeerId)
    (accepted : SessionId × ServerWelcome × JoinBaseline F) (packets : List Protobuf.Bytes)
    (c : Client F) : (c.connected = true ∧ c.peer = peer ∧ c.accept peer accepted packets =
        { c with control := c.control ++ packets, accepted := some accepted }) ∨
      c.accept peer accepted packets = c := by
  unfold Client.accept
  split_ifs with h
  · exact .inl ⟨h.1, h.2, rfl⟩
  · exact .inr rfl

/-- What the loop is yielded, with its answer. -/
def served : SystemOp × Option (LoopOut F) → List (Service × LoopOut F)
  | (.serve x, some o) => [(x, o)]
  | _ => []

/-- The calls of the loop on its server. -/
def systemCalls (d : Decoder F) (y : SystemOp × Option (LoopOut F)) : List (Op F) :=
  (served y).flatMap (serverCalls d)

theorem systemCalls_serve (d : Decoder F) (x : Service) (o : LoopOut F) :
    systemCalls d (.serve x, some o) = serverCalls d (x, o) := by
  simp [systemCalls, served]

/-- A run of the system is a run of its loop. -/
theorem runEdge_of_runSystem {d : Decoder F} {config : ServerConfig} {ops : List SystemOp}
    {s : System F} {outs : List (Option (LoopOut F))}
    (hrun : runSystem d config ops = .ok (s, outs)) :
    runEdge d config (((ops.zip outs).flatMap served).map Prod.fst) =
      .ok (s.edge, ((ops.zip outs).flatMap served).map Prod.snd) := by
  obtain ⟨s₀, hnew, hrun⟩ := bind_eq_ok.1 hrun
  obtain ⟨edge, hedge, heq⟩ := bind_eq_ok.1 (liftLoop_eq_ok.1 (liftSystem_eq_ok.1 hnew))
  obtain rfl := Except.ok.inj heq
  obtain ⟨oss, hcalls, hoss⟩ := Machine.run_calls (M := systemMachine d) (N := edgeMachine d)
    (f := System.edge) (c := fun y => (served y).map Prod.fst)
    (Q := fun y os => os = (served y).map Prod.snd)
    (fun u op v o hexec => by
      cases System.steps_of_exec hexec with
      | connect h | disconnect h | opened h | broadcast h | other h =>
        exact ⟨_, Machine.run_singleton h, rfl⟩
      | frame | move => exact ⟨[], rfl, rfl⟩) hrun
  have hmap : oss = (ops.zip outs).map fun y => (served y).map Prod.snd := by
    have hflip := List.forall₂_map_right_iff.2 hoss.flip
    rwa [List.forall₂_eq_eq_eq] at hflip
  rw [hmap, ← List.flatMap_def] at hcalls
  rw [List.map_flatMap, List.map_flatMap]
  exact bind_eq_ok.2 ⟨edge, liftLoop_eq_ok.2 hedge, hcalls⟩

/-- The system after `calls` of its server, `messages` having been broadcast. -/
structure Synced (config : ServerConfig) (calls : List (Op F)) (messages : List (SnapshotProto F))
    (s : System F) : Prop where
  run : ∃ outs, runServer config calls = .ok (s.edge.loop.server, outs)
  broadcasts : s.broadcasts = messages.map SnapshotProto.encode
  fits : ∀ m ∈ messages, m.encode.length < 2 ^ 63
  reported : ∀ m ∈ messages, ∃ u, Visited config calls u ∧ u.Reports m
  stage : ∀ c ∈ s.clients, Stage config.inputLeadTicks.toNat
    (messages.map SnapshotProto.toGodot) (c.accepted.map greeting) c.control c.scene
  welcomed : ∀ c ∈ s.clients, ∀ a, c.accepted = some a → (greeting a).Fits ∧
    ∃ u, Visited config calls u ∧ u.Welcomes a
  /-- A connection holds the session that was opened for it. -/
  bound : ∀ c ∈ s.clients, c.connected = true → ∀ a, c.accepted = some a →
    s.edge.loop.peerSessions.lookup c.peer = some a.1

/-- What does not open and does not close leaves the bindings alone. -/
theorem Edge.Steps.peerSessions_eq {d : Decoder F} {s s' : Edge F} {x : Service} {o : LoopOut F}
    (h : s.Steps d x s' o) (hopens : o.opens = none)
    (hx : ∀ peer, x ≠ .event (.disconnect peer)) :
    s'.loop.peerSessions = s.loop.peerSessions := by
  cases h with
  | hello => cases hopens
  | close | part => exact absurd rfl (hx _)
  | connect | command | packet | quiet | tick => rfl

namespace Synced

variable {config : ServerConfig} {calls : List (Op F)} {messages : List (SnapshotProto F)}
  {d : Decoder F} {s : System F}

/-- The loop's calls are part of the run. -/
theorem run_serve (h : Synced config calls messages s) {x : Service} {edge : Edge F}
    {o : LoopOut F} (hexec : s.edge.exec d x = .ok (edge, o)) :
    ∃ outs, runServer config (calls ++ serverCalls d (x, o)) = .ok (edge.loop.server, outs) := by
  obtain ⟨outs, hrun⟩ := h.run
  obtain ⟨os, hcalls, -⟩ := Edge.calls_of_exec hexec
  exact ⟨_, runServer_concat hrun hcalls⟩

/-- The loop goes on, the clients and what was broadcast staying as they are. -/
theorem serve (h : Synced config calls messages s) {x : Service} {edge : Edge F} {o : LoopOut F}
    (hexec : s.edge.exec d x = .ok (edge, o)) {clients : List (Client F)}
    (hclients : ∀ c ∈ clients, ∃ c' ∈ s.clients, c.scene = c'.scene ∧ c.control = c'.control ∧
      c.accepted = c'.accepted ∧ ∀ a, c.accepted = some a → c.connected = true →
        c'.connected = true ∧
          edge.loop.peerSessions.lookup c.peer = s.edge.loop.peerSessions.lookup c'.peer) :
    Synced config (calls ++ serverCalls d (x, o)) messages { s with edge, clients } where
  run := h.run_serve hexec
  broadcasts := h.broadcasts
  fits := h.fits
  reported m hm := by
    obtain ⟨u, hu, hreports⟩ := h.reported m hm
    exact ⟨u, hu.append _, hreports⟩
  stage c hc := by
    obtain ⟨c', hc', hscene, hcontrol, haccepted, -⟩ := hclients c hc
    rw [hscene, hcontrol, haccepted]
    exact h.stage c' hc'
  welcomed c hc a ha := by
    obtain ⟨c', hc', -, -, haccepted, -⟩ := hclients c hc
    obtain ⟨hfits, u, hu, hwelcomes⟩ := h.welcomed c' hc' a (haccepted ▸ ha)
    exact ⟨hfits, u, hu.append _, hwelcomes⟩
  bound c hc hconnected a ha := by
    obtain ⟨c', hc', -, -, haccepted, hlookup⟩ := hclients c hc
    obtain ⟨hconnected', hsame⟩ := hlookup a ha hconnected
    rw [hsame]
    exact h.bound c' hc' hconnected' a (haccepted ▸ ha)

/-- A connection begins. -/
theorem connect (h : Synced config calls messages s) (peer : PeerId) :
    Synced config calls messages { s with clients := s.clients ++ [Client.new peer] } where
  run := h.run
  broadcasts := h.broadcasts
  fits := h.fits
  reported := h.reported
  stage := List.forall_mem_append.2 ⟨h.stage, List.forall_mem_singleton.2 Stage.new⟩
  welcomed := List.forall_mem_append.2 ⟨h.welcomed, List.forall_mem_singleton.2 nofun⟩
  bound := List.forall_mem_append.2 ⟨h.bound, List.forall_mem_singleton.2 nofun⟩

/-- The session bound to the peer is welcomed. No client at the peer has been before. -/
theorem accept (h : Synced config calls messages s) {peer : PeerId}
    {a : SessionId × ServerWelcome × JoinBaseline F} (hfits : (greeting a).Fits)
    {u : Server F} (hu : Visited config calls u) (hwelcomes : u.Welcomes a)
    (hlookup : s.edge.loop.peerSessions.lookup peer = some a.1)
    (hnew : ∀ c ∈ s.clients, c.connected = true → c.peer = peer → c.accepted = none) :
    Synced config calls messages
      { s with clients := s.clients.map (Client.accept peer a [a.2.1.encode, a.2.2.encode]) } := by
  refine ⟨h.run, h.broadcasts, h.fits, h.reported, ?_, ?_, ?_⟩ <;> intro c' hc' <;>
    obtain ⟨c, hc, rfl⟩ := List.mem_map.1 hc' <;>
    rcases c.accept_cases peer a [a.2.1.encode, a.2.2.encode] with ⟨hconnected, rfl, heq⟩ | heq <;>
    rw [heq]
  · have hstage := h.stage c hc
    rw [hnew c hc hconnected rfl] at hstage
    rw [← packets_greeting]
    exact hstage.greet (greeting a)
  · exact h.stage c hc
  · intro a' ha'
    obtain rfl := Option.some.inj ha'
    exact ⟨hfits, u, hu, hwelcomes⟩
  · exact h.welcomed c hc
  · intro _ a' ha'
    obtain rfl := Option.some.inj ha'
    exact hlookup
  · exact h.bound c hc

/-- A message is broadcast. -/
theorem broadcast (h : Synced config calls messages s) {m : SnapshotProto F}
    (hfits : m.encode.length < 2 ^ 63) {u : Server F} (hu : Visited config calls u)
    (hreports : u.Reports m) :
    Synced config calls (messages ++ [m]) { s with broadcasts := s.broadcasts ++ [m.encode] } where
  run := h.run
  broadcasts := by rw [h.broadcasts, List.map_append, List.map_singleton]
  fits := List.forall_mem_append.2 ⟨h.fits, List.forall_mem_singleton.2 hfits⟩
  reported := List.forall_mem_append.2 ⟨h.reported, List.forall_mem_singleton.2 ⟨u, hu, hreports⟩⟩
  stage c hc := (h.stage c hc).mono (by
    rw [List.map_append]
    exact List.subset_append_left _ _)
  welcomed := h.welcomed
  bound := h.bound

/-- A client goes on by itself. -/
theorem set (h : Synced config calls messages s) {i : ℕ} {c : Client F}
    (hi : s.clients[i]? = some c) {scene : Godot.MatchScene} {control : List Protobuf.Bytes}
    (hstage : Stage config.inputLeadTicks.toNat (messages.map SnapshotProto.toGodot)
      (c.accepted.map greeting) control scene) :
    Synced config calls messages
      { s with clients := s.clients.set i { c with scene, control } } := by
  have hc := List.mem_of_getElem? hi
  have hset : ∀ {P : Client F → Prop}, (∀ c ∈ s.clients, P c) → P { c with scene, control } →
      ∀ c' ∈ s.clients.set i { c with scene, control }, P c' := by
    intro P hall hone c' hc'
    rcases List.mem_or_eq_of_mem_set hc' with hc' | rfl
    · exact hall c' hc'
    · exact hone
  exact ⟨h.run, h.broadcasts, h.fits, h.reported, hset h.stage hstage,
    hset h.welcomed (h.welcomed c hc), hset h.bound (h.bound c hc)⟩

/-- The packets of the realtime channel, as the clients decode them. -/
theorem feed (h : Synced config calls messages s) : s.broadcasts =
    (messages.map SnapshotProto.toGodot).map Godot.WireCodec.encodeSnapshotProto := by
  rw [h.broadcasts, List.map_map]
  exact List.map_congr_left fun m _ => m.encode_toGodot.symm

/-- A frame of a client goes through. -/
theorem frame (h : Synced config calls messages s) {c : Client F} (hc : c ∈ s.clients)
    {arrivals : List Godot.Arrival} {events : List Godot.ENetEvent} {control : List Protobuf.Bytes}
    (hdeliver : Godot.deliver s.broadcasts c.control arrivals = some (events, control)) :
    ∃ scene, Godot.process (Godot.frameFuel events) c.scene events = some scene ∧
      Stage config.inputLeadTicks.toNat (messages.map SnapshotProto.toGodot)
        (c.accepted.map greeting) control scene := by
  rw [h.feed] at hdeliver
  refine (h.stage c hc).frame (fun g hg => ?_) (fun p hp => ?_) hdeliver
  · obtain ⟨a, ha, rfl⟩ := Option.map_eq_some_iff.1 hg
    exact (h.welcomed c hc a ha).1
  · obtain ⟨m, hm, rfl⟩ := List.mem_map.1 hp
    rw [m.encode_toGodot]
    exact h.fits m hm

/-- The loop goes on without opening or closing. -/
theorem quiet (h : Synced config calls messages s) {x : Service} {edge : Edge F} {o : LoopOut F}
    (hexec : s.edge.exec d x = .ok (edge, o)) (hopens : o.opens = none)
    (hx : ∀ peer, x ≠ .event (.disconnect peer)) :
    Synced config (calls ++ serverCalls d (x, o)) messages { s with edge } := by
  have hsame := (Edge.steps_of_exec hexec).peerSessions_eq hopens hx
  exact h.serve hexec fun c hc => ⟨c, hc, rfl, rfl, rfl, fun a _ hconnected =>
    ⟨hconnected, by rw [hsame]⟩⟩

/-- A connection ends. -/
theorem disconnect (h : Synced config calls messages s) {peer : PeerId} {edge : Edge F}
    {o : LoopOut F} (hexec : s.edge.exec d (.event (.disconnect peer)) = .ok (edge, o)) :
    Synced config (calls ++ serverCalls d (.event (.disconnect peer), o)) messages
      { s with edge, clients := s.clients.map (Client.part peer) } := by
  refine h.serve hexec fun c' hc' => ?_
  obtain ⟨c, hc, rfl⟩ := List.mem_map.1 hc'
  by_cases hpeer : c.peer = peer
  · rw [Client.part, if_pos hpeer]
    exact ⟨c, hc, rfl, rfl, rfl, fun _ _ hconnected => absurd hconnected (by simp)⟩
  · rw [Client.part, if_neg hpeer]
    refine ⟨c, hc, rfl, rfl, rfl, fun a _ hconnected => ⟨hconnected, ?_⟩⟩
    cases Edge.steps_of_exec hexec with
    | close _ hsid =>
      rw [HashMap.lookup_erase, if_neg hpeer]
    | part => rfl
    | quiet hx | tick hx => exact absurd rfl (hx _)

/-- A session is opened. -/
theorem opened (h : Synced config calls messages s) {x : Service} {edge : Edge F} {peer : PeerId}
    {sid : SessionId} {welcome : ServerWelcome} {baseline : JoinBaseline F}
    (hexec : s.edge.exec d x = .ok (edge, .opened peer sid welcome baseline))
    (hwelcome : welcome.encode.length < 2 ^ 63) (hbaseline : baseline.encode.length < 2 ^ 63) :
    Synced config (calls ++ serverCalls d (x, .opened peer sid welcome baseline)) messages
      { s with
        edge
        clients := s.clients.map (Client.accept peer (sid, welcome, baseline)
          [welcome.encode, baseline.encode]) } := by
  obtain ⟨outs, hrun⟩ := h.run
  obtain ⟨outs', hrun'⟩ := h.run_serve hexec
  have hfits : (greeting (sid, welcome, baseline)).Fits := by
    rw [Godot.Greeting.Fits, packets_greeting]
    exact List.forall_mem_cons.2 ⟨hwelcome, List.forall_mem_singleton.2 hbaseline⟩
  -- The clients that were accepted hold other peers.
  have hother : peer ∉ s.edge.loop.peerSessions ∧
      edge.loop.peerSessions = s.edge.loop.peerSessions.insert peer sid ∧
      edge.loop.server.Welcomes (sid, welcome, baseline) := by
    cases Edge.steps_of_exec hexec with
    | hello _ _ hnew haccept hwelcome' =>
      exact ⟨hnew, rfl,
        Server.welcomes_of_accept (ordered_of_runServer hrun) haccept hwelcome'⟩
    | quiet _ ho => rcases ho with ho | ho <;> cases ho
  obtain ⟨hnew, hinsert, hwelcomes⟩ := hother
  have hne : ∀ c ∈ s.clients, c.connected = true → ∀ a, c.accepted = some a → c.peer ≠ peer := by
    rintro c hc hconnected a ha rfl
    have hlookup := h.bound c hc hconnected a ha
    exact hnew (AList.lookup_isSome.1 (by rw [hlookup]; rfl))
  have hserve : Synced config (calls ++ serverCalls d (x, .opened peer sid welcome baseline))
      messages { s with edge } := by
    refine h.serve hexec fun c hc => ⟨c, hc, rfl, rfl, rfl, fun a ha hconnected =>
      ⟨hconnected, ?_⟩⟩
    rw [hinsert, HashMap.lookup_insert, if_neg (hne c hc hconnected a ha)]
  refine hserve.accept hfits (visited_of_runServer hrun') hwelcomes ?_ fun c hc hconnected hpeer => ?_
  · change AList.lookup peer edge.loop.peerSessions = _
    rw [hinsert, HashMap.lookup_insert, if_pos rfl]
  · by_contra haccepted
    obtain ⟨a, ha⟩ := Option.ne_none_iff_exists'.1 haccepted
    exact hne c hc hconnected a ha hpeer

/-- The server steps. -/
theorem tick (h : Synced config calls messages s) {x : Service} {edge : Edge F}
    {bytes : Protobuf.Bytes} (hexec : s.edge.exec d x = .ok (edge, .broadcast bytes))
    (hbytes : bytes.length < 2 ^ 63) :
    ∃ m, Synced config (calls ++ serverCalls d (x, .broadcast bytes)) (messages ++ [m])
      { s with edge, broadcasts := s.broadcasts ++ [bytes] } := by
  obtain ⟨outs', hrun'⟩ := h.run_serve hexec
  have hquiet := h.quiet hexec rfl fun peer hx => by
    subst hx
    cases Edge.steps_of_exec hexec with
    | quiet hx | tick hx => exact absurd rfl (hx _)
  have hreports : ∃ m, bytes = m.encode ∧ edge.loop.server.Reports m := by
    cases Edge.steps_of_exec hexec with
    | quiet _ ho => rcases ho with ho | ho <;> cases ho
    | tick _ hs =>
      obtain ⟨next, -, hfloor, rfl, rfl, rfl⟩ := Server.step_eq_ok.1 hs
      exact ⟨_, snapshotBytes_eq _ _, _, hfloor, rfl⟩
  obtain ⟨m, rfl, hreports⟩ := hreports
  exact ⟨m, hquiet.broadcast hbytes (visited_of_runServer hrun') hreports⟩

theorem exec (h : Synced config calls messages s) {op : SystemOp} {s' : System F}
    {o : Option (LoopOut F)} (hexec : s.exec d op = .ok (s', o)) :
    ∃ messages', Synced config (calls ++ systemCalls d (op, o)) messages' s' := by
  cases System.steps_of_exec hexec with
  | @connect peer edge o hedge =>
    have hopens : o.opens = none := by
      cases Edge.steps_of_exec hedge with
      | connect => rfl
      | quiet hx | tick hx => exact absurd rfl (hx _)
    rw [systemCalls_serve]
    exact ⟨messages, (h.quiet hedge hopens fun _ => by simp).connect peer⟩
  | disconnect hedge =>
    rw [systemCalls_serve]
    exact ⟨messages, h.disconnect hedge⟩
  | opened hedge hwelcome hbaseline =>
    rw [systemCalls_serve]
    exact ⟨messages, h.opened hedge hwelcome hbaseline⟩
  | broadcast hedge hbytes =>
    obtain ⟨m, hm⟩ := h.tick hedge hbytes
    rw [systemCalls_serve]
    exact ⟨_, hm⟩
  | other hedge hx ho =>
    rw [systemCalls_serve]
    exact ⟨messages, h.quiet hedge ho.1 fun peer => (hx peer).2⟩
  | @frame i arrivals c events control scene hi hdeliver hprocess =>
    obtain ⟨scene', hprocess', hstage⟩ := h.frame (List.mem_of_getElem? hi) hdeliver
    obtain rfl := Option.some.inj (hprocess.symm.trans hprocess')
    exact ⟨messages, (List.append_nil calls).symm ▸ h.set hi hstage⟩
  | @move i moveDir c scene hi hmove =>
    obtain ⟨scene', hmove', hstage⟩ := (h.stage c (List.mem_of_getElem? hi)).move moveDir
    obtain rfl := Option.some.inj (hmove.symm.trans hmove')
    exact ⟨messages, (List.append_nil calls).symm ▸ h.set hi hstage⟩

theorem new (h : System.new config = .ok s) : Synced config [] [] s := by
  obtain ⟨edge, hedge, heq⟩ := bind_eq_ok.1 h
  obtain rfl := Except.ok.inj heq
  obtain ⟨server, hserver, rfl⟩ := Edge.new_eq_ok hedge
  have hnone : ∀ {α : Type} {P : α → Prop}, ∀ x ∈ ([] : List α), P x :=
    fun x hx => absurd hx List.not_mem_nil
  exact ⟨⟨[], bind_eq_ok.2 ⟨server, hserver, rfl⟩⟩, rfl, hnone, hnone, hnone, hnone, hnone⟩

theorem of_run {ops : List SystemOp} {outs : List (Option (LoopOut F))}
    (hrun : runSystem d config ops = .ok (s, outs)) :
    ∃ messages, Synced config ((ops.zip outs).flatMap (systemCalls d)) messages s := by
  obtain ⟨s₀, hnew, hrun⟩ := bind_eq_ok.1 hrun
  have hnew := new (liftLoop_eq_ok.1 (liftSystem_eq_ok.1 hnew))
  have h := Machine.run_history (M := systemMachine d)
    (P := fun h u => ∃ messages, Synced config (h.flatMap (systemCalls d)) messages u)
    (fun h u op v o hu hexec => by
      obtain ⟨messages, hu⟩ := hu
      rw [List.flatMap_append, List.flatMap_singleton]
      exact hu.exec hexec)
    (h := []) ⟨[], hnew⟩ hrun
  rwa [List.nil_append] at h

end Synced

/-! ## What the clients show -/

theorem liftSystem_ne_script {α : Type} {x : Except LoopError α} :
    liftSystem x ≠ .error .script := by
  rcases x with e | a <;> simp [liftSystem]

theorem System.serve_ne_script {d : Decoder F} {s : System F} {x : Service} :
    s.serve d x ≠ .error .script := by
  have hbind : ∀ {α β : Type} {x : Except LoopError α} {f : α → Except SystemError β},
      (∀ a, f a ≠ .error .script) → (liftSystem x >>= f) ≠ .error .script := by
    intro α β x f hf
    rcases x with e | a
    · simp [liftSystem, bind, Except.bind]
    · exact hf a
  have hreturn : ∀ {β : Type} {b : β}, (pure b : Except SystemError β) ≠ .error .script :=
    fun h => by cases h
  refine hbind fun y => ?_
  obtain ⟨edge, o⟩ := y
  dsimp only
  split
  · exact hreturn
  · exact hreturn
  · exact hbind fun _ => hbind fun _ => hreturn
  · exact hbind fun _ => hreturn
  · exact hreturn

/-- No client ever runs into a script error, whatever its transport and its player do, and
whatever the server is sent. -/
theorem never_script (d : Decoder F) (config : ServerConfig) (ops : List SystemOp) :
    runSystem d config ops ≠ .error .script := by
  intro h
  unfold runSystem at h
  rcases hnew : liftSystem (liftLoop (System.new (F := F) config)) with e | s₀ <;> rw [hnew] at h
  · obtain rfl := Except.error.inj h
    exact liftSystem_ne_script hnew
  · obtain ⟨before, op, after, t, outs, -, hbefore, hop⟩ := Machine.exists_exec_of_run_eq_error h
    obtain ⟨messages, ht⟩ := Synced.of_run (bind_eq_ok.2 ⟨s₀, hnew, hbefore⟩)
    have hupdate : ∀ {i : ℕ} {f : Client F → Except SystemError (Client F)},
        t.update i f = .error .script → ∃ c ∈ t.clients, f c = .error .script := by
      intro i f h
      unfold System.update at h
      split at h
      · cases h
      · rename_i c hi
        rcases hf : f c with e | c' <;> rw [hf] at h
        · obtain rfl : e = .script := Except.error.inj h
          exact ⟨c, List.mem_of_getElem? hi, hf⟩
        · cases h
    cases op with
    | serve x => exact System.serve_ne_script hop
    | frame i arrivals =>
      obtain ⟨c, hc, hframe⟩ := hupdate hop
      unfold Client.frame at hframe
      split at hframe
      · cases hframe
      · rename_i events control hdeliver
        obtain ⟨scene, hprocess, -⟩ := ht.frame hc hdeliver
        rw [hprocess] at hframe
        cases hframe
    | move i moveDir =>
      obtain ⟨c, hc, hmove⟩ := hupdate hop
      obtain ⟨scene, hscene, -⟩ := (ht.stage c hc).move moveDir
      rw [Client.move, hscene] at hmove
      cases hmove

/-- A client shows the world of `u`, its own character among the others, and aims its input at
the floor of that world. -/
structure Client.Displays (c : Client F) (u : Server F) : Prop where
  tick : c.scene.matchState.latestTick.toInt = u.world.tick.toNat
  entities : c.scene.matchState.entities = u.world.entries
  own : ∃ a e p, c.accepted = some a ∧ c.scene.matchState.controlledEntityId = e.toInt64 ∧
    a.2.1.playerId = p.toUInt32 ∧ (e, p) ∈ u.world.ids
  floor : c.scene.networkClient.getTickFloor.toInt =
    u.world.tick.toNat + u.config.inputLeadTicks.toNat

theorem tick_le_of_visited {d : Decoder F} {config : ServerConfig} {ops : List SystemOp}
    {s : System F} {outs : List (Option (LoopOut F))}
    (hrun : runSystem d config ops = .ok (s, outs)) {u : Server F}
    (hu : Visited config ((ops.zip outs).flatMap (systemCalls d)) u) :
    u.world.tick.toNat ≤ config.matchDurationTicks.toNat := by
  obtain ⟨messages, hsynced⟩ := Synced.of_run hrun
  obtain ⟨os, hserver⟩ := hsynced.run
  have hle := (Paced.of_run (runEdge_of_runSystem hrun)).tick_le
  rw [(config_of_runServer hserver).1] at hle
  exact (hu.tick_le hserver).trans hle

/-- Where ticks and floors fit an `int`, the floor a client holds leads the tick it shows. -/
theorem Server.Welcomes.leads {u : Server F} {a : SessionId × ServerWelcome × JoinBaseline F}
    (h : u.Welcomes a)
    (hfits : u.world.tick.toNat + u.config.inputLeadTicks.toNat < 2 ^ 63) :
    (greeting a).Leads u.config.inputLeadTicks.toNat := by
  have hbaseline : a.2.2.tick = u.world.tick := congrArg JoinBaseline.tick h.baseline
  have hfloor := h.floor
  change a.2.1.targetTickFloor.toInt64.toInt = a.2.2.tick.toInt64.toInt + _
  rw [hbaseline, toInt_toInt64 (by omega), toInt_toInt64 (by omega), hfloor]
  exact Nat.cast_add _ _

theorem Server.Reports.leads {u : Server F} {m : SnapshotProto F} (h : u.Reports m)
    (hfits : u.world.tick.toNat + u.config.inputLeadTicks.toNat < 2 ^ 63) :
    m.toGodot.Leads u.config.inputLeadTicks.toNat := by
  obtain ⟨floor, hfloor, rfl⟩ := h
  change floor.toInt64.toInt = u.world.tick.toInt64.toInt + _
  rw [toInt_toInt64 (by omega), toInt_toInt64 (by omega), hfloor]
  exact Nat.cast_add _ _

/-- A ready client shows a world that the server has held in this match. -/
theorem exists_displays {d : Decoder F} {config : ServerConfig} {ops : List SystemOp}
    {s : System F} {outs : List (Option (LoopOut F))}
    (hrun : runSystem d config ops = .ok (s, outs))
    (hfits : config.matchDurationTicks.toNat + config.inputLeadTicks.toNat < 2 ^ 63)
    {c : Client F} (hc : c ∈ s.clients) (hready : c.scene.networkClient.state = .ready) :
    ∃ u, Visited config ((ops.zip outs).flatMap (systemCalls d)) u ∧ c.Displays u := by
  obtain ⟨messages, hsynced⟩ := Synced.of_run hrun
  obtain ⟨g, hsent, -, hshown⟩ := (hsynced.stage c hc).mirrors_of_ready hready
  obtain ⟨a, ha, rfl⟩ := Option.map_eq_some_iff.1 hsent
  obtain ⟨-, u, hu, hwelcomes⟩ := hsynced.welcomed c hc a ha
  have hsmall : ∀ {v : Server F}, Visited config ((ops.zip outs).flatMap (systemCalls d)) v →
      v.world.tick.toNat + v.config.inputLeadTicks.toNat < 2 ^ 63 := by
    intro v hv
    have hle := tick_le_of_visited hrun hv
    rw [hv.config_eq]
    omega
  have htick : ∀ {v : Server F}, Visited config ((ops.zip outs).flatMap (systemCalls d)) v →
      v.world.tick.toInt64.toInt = v.world.tick.toNat := fun hv =>
    toInt_toInt64 (lt_of_le_of_lt (Nat.le_add_right _ _) (hsmall hv))
  -- Every message leads its tick by the same.
  have hgreeting : (greeting a).Leads config.inputLeadTicks.toNat :=
    hu.config_eq ▸ hwelcomes.leads (hsmall hu)
  have hfeed : ∀ p ∈ messages.map SnapshotProto.toGodot, p.Leads config.inputLeadTicks.toNat := by
    intro p hp
    obtain ⟨m, hm, rfl⟩ := List.mem_map.1 hp
    obtain ⟨v, hv, hreports⟩ := hsynced.reported m hm
    exact hv.config_eq ▸ hreports.leads (hsmall hv)
  obtain ⟨f, hf, hfloor⟩ := hshown.floor
  have hfloor : c.scene.networkClient.getTickFloor.toInt =
      c.scene.matchState.latestTick.toInt + config.inputLeadTicks.toNat := by
    rw [Godot.NetworkClient.getTickFloor, hf]
    exact hfloor hgreeting hfeed
  obtain ⟨p, -, hplayer, hown⟩ := hwelcomes.own
  rcases hshown.source with ⟨hlatest, hentities⟩ | ⟨_, hp, hnewer, hlatest, hentities⟩
  · -- It shows the baseline.
    have hbaseline : (greeting a).baseline = u.baselineProto.toGodot :=
      congrArg JoinBaseline.toGodot hwelcomes.baseline
    rw [hbaseline] at hlatest hentities
    have hlatest : c.scene.matchState.latestTick.toInt = u.world.tick.toNat := by
      rw [hlatest]
      exact htick hu
    refine ⟨u, hu, hlatest, hentities.trans (entitiesOf_world hu.ordered),
      ⟨a, _, p, ha, hshown.controlled, hplayer, hown⟩, ?_⟩
    rw [hfloor, hlatest, hu.config_eq]
  · -- It shows a snapshot.
    obtain ⟨m, hm, rfl⟩ := List.mem_map.1 hp
    obtain ⟨v, hv, floor, hleads, rfl⟩ := hsynced.reported m hm
    have hlatest : c.scene.matchState.latestTick.toInt = v.world.tick.toNat := by
      rw [hlatest]
      exact htick hv
    have hlt : u.world.tick.toNat < v.world.tick.toNat := by
      have hbaseline : (greeting a).baseline.tick = u.world.tick.toInt64 :=
        congrArg (fun b => b.tick.toInt64) hwelcomes.baseline
      rw [hbaseline, Int64.lt_iff_toInt_lt, htick hu] at hnewer
      have hnewer' : (u.world.tick.toNat : ℤ) < v.world.tick.toInt64.toInt := hnewer
      rw [htick hv] at hnewer'
      exact_mod_cast hnewer'
    refine ⟨v, hv, hlatest, hentities.trans (entitiesOf_world hv.ordered),
      ⟨a, _, p, ha, hshown.controlled, hplayer, (hu.ids_of_tick_lt hv hlt).subset hown⟩, ?_⟩
    rw [hfloor, hlatest, hv.config_eq]

/-- What the clients show while they are ready. -/
structure Shown (config : ServerConfig) (calls : List (Op F)) (s : System F) : Prop where
  displays : ∀ c ∈ s.clients, c.scene.networkClient.state = .ready →
    ∃ u, Visited config calls u ∧ c.Displays u
  /-- Of two clients at one tick one shows what the other shows, and perhaps more behind it. -/
  agree : ∀ c ∈ s.clients, ∀ c' ∈ s.clients, c.scene.networkClient.state = .ready →
    c'.scene.networkClient.state = .ready →
    c.scene.matchState.latestTick = c'.scene.matchState.latestTick →
    c.scene.matchState.entities <+: c'.scene.matchState.entities ∨
      c'.scene.matchState.entities <+: c.scene.matchState.entities

/-- Every client that is ready shows a world of the match, and no two differ on one tick. -/
theorem shown_of_run {d : Decoder F} {config : ServerConfig} {ops : List SystemOp}
    {s : System F} {outs : List (Option (LoopOut F))}
    (hrun : runSystem d config ops = .ok (s, outs))
    (hfits : config.matchDurationTicks.toNat + config.inputLeadTicks.toNat < 2 ^ 63) :
    Shown config ((ops.zip outs).flatMap (systemCalls d)) s where
  displays c hc hready := exists_displays hrun hfits hc hready
  agree c hc c' hc' hready hready' htick := by
    obtain ⟨u, hu, hdisplays⟩ := exists_displays hrun hfits hc hready
    obtain ⟨v, hv, hdisplays'⟩ := exists_displays hrun hfits hc' hready'
    have hsame : u.world.tick = v.world.tick := by
      have h := hdisplays.tick
      rw [htick, hdisplays'.tick] at h
      exact UInt64.toNat_inj.1 (by exact_mod_cast h.symm)
    rw [hdisplays.entities, hdisplays'.entities]
    exact (hu.characters_of_tick_eq hv hsame).imp (fun h => h.map _) fun h => h.map _

/-- A client that has been welcomed and sent a snapshot, and one that has only been welcomed. -/
theorem shown_of_two : ∃ s outs, runSystem oneCommand {} [.serve (.event (.connect 0)),
      .serve (.event (.receive 0 channelControl [])), .frame 0 [.connect, .control, .control],
      .serve (.idle false), .serve (.idle false), .serve (.event (.connect 1)),
      .serve (.event (.receive 1 channelControl [])), .frame 0 [.realtime 0],
      .frame 1 [.connect, .control, .control]] = .ok (s, outs) ∧
    s.clients.map (fun c => (c.scene.networkClient.state, c.scene.matchState.latestTick)) =
      [(.ready, 1), (.ready, 1)] ∧
    ∃ calls, Shown {} calls s := by
  have h : (runSystem oneCommand {} [.serve (.event (.connect 0)),
      .serve (.event (.receive 0 channelControl [])), .frame 0 [.connect, .control, .control],
      .serve (.idle false), .serve (.idle false), .serve (.event (.connect 1)),
      .serve (.event (.receive 1 channelControl [])), .frame 0 [.realtime 0],
      .frame 1 [.connect, .control, .control]]).map (fun x => x.1.clients.map fun c =>
        (c.scene.networkClient.state, c.scene.matchState.latestTick)) =
      .ok [(.ready, 1), (.ready, 1)] := by
    decide +kernel
  obtain ⟨⟨s, outs⟩, hrun, hclients⟩ := map_eq_ok.1 h
  exact ⟨s, outs, hrun, hclients, _, shown_of_run hrun (by decide)⟩

end Flowstate
