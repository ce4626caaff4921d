import Flowstate.Lockstep

/-!
# Session bookkeeping

A session is entered in nine maps and lists of the server, its world and its recorder. An
accept enters it in all of them, a disconnect takes it out of those that are about live
sessions, and no other operation adds or removes an entry. `Refines` already relates most
of these tables to the match, `Books` relates the others, and `bookkeeping` says how they
agree with one another.
-/

set_option linter.unusedSectionVars false

open Rust

namespace Flowstate

variable {F : Type} [F64 F]

/-- An accepted player, its session `sid` live or gone, is entered once everywhere. -/
structure Enrolled (s : Server F) (sid : SessionId) (p : PlayerId) (e : EntityId) : Prop where
  spawned : s.entitySpawnOrder.count p = 1
  character : (s.world.characters.filter fun c => c.playerId = p).map Character.entityId = [e]
  mapping : s.playerEntityMapping.lookup p = some e
  session : ∀ session, s.sessions.lookup sid = some session →
    session.playerId = p ∧ session.controlledEntityId = e
  intent : p ∈ s.lastKnownIntent

/-- The maps and lists of a server agree, after `ops` with outputs `outs`. -/
structure Bookkeeping (config : ServerConfig) (ops : List (Op F)) (outs : List (Out F))
    (s : Server F) : Prop where
  keys : ∀ sid, sid ∈ s.sessions ↔ sid ∈ s.sessionPlayers
  player : ∀ sid session, s.sessions.lookup sid = some session →
    s.sessionPlayers.lookup sid = some session.playerId
  inverse : ∀ sid p, s.sessionPlayers.lookup sid = some p ↔ s.playerSessions.lookup p = some sid
  floors : ∀ sid ∈ s.lastEmittedFloor, sid ∈ s.sessions
  enrolled : ∀ sid p e, .accepted sid p e ∈ outs → Enrolled s sid p e
  ascending : s.world.characters.Pairwise fun c d => c.entityId < d.entityId
  below : ∀ c ∈ s.world.characters, c.entityId < s.world.nextEntityId
  spawnLog : s.replayRecorder.entitySpawnOrder = s.entitySpawnOrder
  mappingLog : s.replayRecorder.playerEntityMapping.map Prod.fst = s.entitySpawnOrder ∧
    ∀ row ∈ s.replayRecorder.playerEntityMapping, s.playerEntityMapping.lookup row.1 = some row.2
  /-- Nothing is received for a session that has left. -/
  departed : ∀ before after u os sid p e, ops = before ++ .disconnectSession sid :: after →
    runServer config before = .ok (u, os) → .accepted sid p e ∈ os →
      ∀ input, s.receiveInput sid input = .ok (s, .droppedUnknownSession)

/-! ## Tables the match does not have -/

/-- The tables `Refines` leaves out hold what the match holds in the session's lane. -/
structure Books (s : Server F) (m : Match F) : Prop where
  playerSessions : ∀ sid ∈ m.order, s.playerSessions.lookup (s.config.playerOf sid) =
    if (m.lane sid).live then some sid else none
  strangers : ∀ p ∉ s.entitySpawnOrder, s.playerSessions.lookup p = none
  mapping : ∀ sid ∈ m.order, s.playerEntityMapping.lookup (s.config.playerOf sid) = some sid
  rows : s.replayRecorder.playerEntityMapping = m.order.map fun sid => (s.config.playerOf sid, sid)
  floors : ∀ sid, (m.lane sid).live = false → (m.lane sid).floor = none

theorem Match.live_setLane {m : Match F} {sid : SessionId} {l : Lane F}
    (h : l.live = (m.lane sid).live) (sid' : SessionId) :
    ((m.setLane sid l).lane sid').live = (m.lane sid').live := by
  rw [lane_setLane]
  split_ifs with heq
  · rw [h, heq]
  · rfl

namespace Books

variable {s s' : Server F} {m m' : Match F}

theorem accept (hb : Books s m) (h : Refines s m) {sid : SessionId} {p : PlayerId} {e : EntityId}
    (hs : s.acceptSession = .ok (s', sid, p, e)) (hp : p ∉ s.entitySpawnOrder) :
    Books s' { m.setLane sid (m.lane sid).join with joined := m.joined + 1 } := by
  obtain ⟨hsid, hentity, hplayer, -⟩ := h.accept hs hp
  obtain rfl := hentity.symm
  obtain ⟨-, -, -, nextSid, nextPid, world, -, -, -, rfl⟩ := Server.acceptSession_eq_ok.1 hs
  have hnew : sid ∉ m.order := hsid ▸ Match.sessionAt_notMem_order h.joined_lt_half
  have hne : ∀ sid' ∈ m.order, sid' ≠ sid ∧ s.config.playerOf sid' ≠ p := by
    intro sid' hmem
    refine ⟨fun heq => hnew (heq ▸ hmem), fun heq => hp ?_⟩
    rw [← heq, h.spawnOrder]
    exact List.mem_map_of_mem hmem
  have horder : ({ m.setLane sid (m.lane sid).join with joined := m.joined + 1 } : Match F).order =
      m.order ++ [sid] := by
    rw [Match.order_succ, ← hsid]
  refine ⟨fun sid' hmem => ?_, fun q hq => ?_, fun sid' hmem => ?_, ?_, fun sid' hlive => ?_⟩
  · rw [horder, List.mem_append, List.mem_singleton] at hmem
    rcases hmem with hmem | rfl
    · obtain ⟨hsid', hplayer'⟩ := hne sid' hmem
      simpa [HashMap.lookup_insert, hsid', hplayer'] using hb.playerSessions sid' hmem
    · rw [← hplayer, HashMap.lookup_insert, if_pos rfl]
      simp [Lane.join]
  · rw [List.mem_append, List.mem_singleton, not_or] at hq
    rw [HashMap.lookup_insert, if_neg hq.2]
    exact hb.strangers q hq.1
  · rw [horder, List.mem_append, List.mem_singleton] at hmem
    rcases hmem with hmem | rfl
    · rw [HashMap.lookup_insert, if_neg (hne sid' hmem).2]
      exact hb.mapping sid' hmem
    · rw [HashMap.lookup_insert, if_pos hplayer.symm]
  · rw [horder, List.map_append, ← hb.rows, List.map_singleton, ← hplayer]
    rfl
  · by_cases heq : sid' = sid
    · simp [heq, Lane.join] at hlive
    · simp only [Match.lane_setLane, if_neg heq] at hlive ⊢
      exact hb.floors sid' hlive

/-- An operation that leaves the tables and the roster alone keeps the books, if a lane that is
not live still has no floor. -/
theorem frame (hb : Books s m) (hconfig : s'.config = s.config)
    (hsessions : s'.playerSessions = s.playerSessions)
    (hmapping : s'.playerEntityMapping = s.playerEntityMapping)
    (hrows : s'.replayRecorder.playerEntityMapping = s.replayRecorder.playerEntityMapping)
    (hspawn : s'.entitySpawnOrder = s.entitySpawnOrder) (horder : m'.order = m.order)
    (hlive : ∀ sid, (m'.lane sid).live = (m.lane sid).live)
    (hfloors : ∀ sid, (m'.lane sid).live = false → (m.lane sid).floor = none →
      (m'.lane sid).floor = none) : Books s' m' := by
  constructor
  · rw [hconfig, hsessions, horder]
    simpa only [hlive] using hb.playerSessions
  · rw [hspawn, hsessions]
    exact hb.strangers
  · rw [hconfig, hmapping, horder]
    exact hb.mapping
  · rw [hrows, hb.rows, horder, hconfig]
  · exact fun sid hgone => hfloors sid hgone (hb.floors sid (hlive sid ▸ hgone))

/-- A disconnect takes the player of the session out. -/
theorem leave (hb : Books s m) (h : Refines s m) {sid : SessionId} (hlive : (m.lane sid).live) :
    Books (s.disconnectSession sid) (m.setLane sid (m.lane sid).leave) := by
  have hmem := h.mem_order_of_live hlive
  have hlookup := h.sessions sid
  rw [if_pos hlive] at hlookup
  rw [Server.disconnectSession, hlookup]
  refine ⟨fun sid' hmem' => ?_, fun q hq => ?_, hb.mapping, hb.rows, fun sid' hgone => ?_⟩
  · refine Match.eq_setLane (fun sid l => if l.live then some sid else none) ?_
      (hb.playerSessions sid' hmem')
    rw [HashMap.lookup_erase]
    exact if_congr (h.playerOf_eq_iff hmem' hmem) rfl rfl
  · rw [HashMap.lookup_erase, hb.strangers q hq, ite_self]
  · rw [Match.lane_setLane] at hgone ⊢
    split_ifs at hgone ⊢
    · rfl
    · exact hb.floors sid' hgone

theorem exec (hb : Books s m) (h : Refines s m) {op : Op F} {o o' : Out F}
    (hexec : s.exec op = .ok (s', o)) (hnodup : s'.entitySpawnOrder.Nodup)
    (hm : m.exec op = .ok (m', o')) : Books s' m' := by
  cases op with
  | acceptSession =>
    obtain ⟨sid, p, e, hs, rfl⟩ := Server.exec_acceptSession.1 hexec
    have hp : p ∉ s.entitySpawnOrder := by
      have horder := (Server.exec_frame hexec).2.1
      rw [horder] at hnodup
      exact List.disjoint_singleton.1 (List.disjoint_of_nodup_append hnodup)
    cases Match.steps_of_exec hm with
    | join =>
      rw [← (h.accept hs hp).1]
      exact hb.accept h hs hp
  | welcomeFor sid =>
    obtain ⟨welcome, hs, rfl⟩ := Server.exec_welcomeFor.1 hexec
    obtain ⟨session, -, floor, -, rfl, -⟩ := Server.welcomeFor_eq_ok.1 hs
    cases Match.steps_of_exec hm with
    | welcome hlive =>
      refine hb.frame rfl rfl rfl rfl rfl rfl (Match.live_setLane rfl) fun sid' hgone hnone => ?_
      rw [Match.lane_setLane] at hgone ⊢
      split_ifs at hgone ⊢
      · exact absurd (hlive.symm.trans hgone) nofun
      · exact hnone
  | receiveInput sid input =>
    obtain ⟨result, hs, rfl⟩ := Server.exec_receiveInput.1 hexec
    have hserver : ∃ inputBuffer, s' = { s with inputBuffer } := by
      rcases Server.receiveInput_cases hs with rfl | ⟨p, -, -, rfl, -⟩ <;> exact ⟨_, rfl⟩
    obtain ⟨inputBuffer, rfl⟩ := hserver
    cases Match.steps_of_exec hm with
    | unknown | drop => exact hb.frame rfl rfl rfl rfl rfl rfl (fun _ => rfl) fun _ _ hnone => hnone
    | buffer =>
      refine hb.frame rfl rfl rfl rfl rfl rfl (Match.live_setLane rfl) fun sid' _ hnone => ?_
      rw [Match.lane_setLane]
      split_ifs with heq
      · rwa [← heq]
      · exact hnone
  | disconnectSession sid =>
    obtain ⟨rfl, rfl⟩ := Server.exec_disconnectSession.1 hexec
    cases Match.steps_of_exec hm with
    | leave hlive => exact hb.leave h hlive
    | absent hlive =>
      have hlookup := h.sessions sid
      rw [if_neg hlive] at hlookup
      rw [Server.disconnectSession, hlookup]
      exact hb
  | step =>
    obtain ⟨snapshot, floor, bytes, hs, rfl⟩ := Server.exec_step.1 hexec
    obtain ⟨t, -, -, rfl, -, -⟩ := Server.step_eq_ok.1 hs
    cases Match.steps_of_exec hm with
    | tick =>
      refine hb.frame rfl rfl rfl (by rw [Server.stepped_replayRecorder]) rfl rfl
        (Match.live_advance m _ _) fun sid hgone hnone => ?_
      rw [Match.live_advance] at hgone
      rw [Match.lane_advance]
      split_ifs
      · simp [Lane.advance, hgone, hnone]
      · exact hnone

end Books

/-! ## Sessions that have left -/

/-- The session has joined and left. -/
structure Gone (sid : SessionId) (m : Match F) : Prop where
  joined_lt : m.joined < 2 ^ 8
  joined : sid ∈ m.order
  gone : (m.lane sid).live = false

/-- Nobody joins a second time. -/
theorem Gone.exec {sid : SessionId} {m m' : Match F} (h : Gone sid m) {op : Op F} {o : Out F}
    (hexec : m.exec op = .ok (m', o)) : Gone sid m' := by
  have hmem := Match.order_subset_of_exec hexec h.joined
  cases Match.steps_of_exec hexec with
  | join _ hjoined =>
    have hne : sid ≠ Match.sessionAt m.joined := fun heq =>
      Match.sessionAt_notMem_order (h.joined_lt.trans (by norm_num)) (heq ▸ h.joined)
    exact ⟨hjoined, hmem, by simpa [hne] using h.gone⟩
  | welcome | buffer =>
    refine ⟨h.joined_lt, hmem, ?_⟩
    rw [Match.live_setLane]
    · exact h.gone
    · rfl
  | unknown | drop | absent => exact h
  | leave =>
    refine ⟨h.joined_lt, hmem, ?_⟩
    rw [Match.lane_setLane]
    split_ifs
    · rfl
    · exact h.gone
  | tick => exact ⟨h.joined_lt, hmem, by rw [Match.live_advance, h.gone]⟩

/-- A disconnect is the end of a session that has joined. -/
theorem gone_of_disconnect {sid : SessionId} {m m' : Match F} {o : Out F}
    (hjoined : m.joined < 2 ^ 8) (hmem : sid ∈ m.order)
    (hexec : m.exec (.disconnectSession sid) = .ok (m', o)) : Gone sid m' := by
  cases Match.steps_of_exec hexec with
  | leave => exact ⟨hjoined, hmem, by simp [Lane.leave]⟩
  | absent hlive => exact ⟨hjoined, hmem, Bool.not_eq_true _ ▸ hlive⟩

theorem Gone.receiveInput {s : Server F} {m : Match F} {sid : SessionId} (hgone : Gone sid m)
    (h : Refines s m) (input : InputCmdProto F) :
    s.receiveInput sid input = .ok (s, .droppedUnknownSession) := by
  have hlookup := h.sessionPlayers sid
  rw [hgone.gone] at hlookup
  rw [Server.receiveInput_eq, hlookup]
  rfl

/-- What an accept has returned is in the match, under the ids the configuration gives it. -/
theorem Match.of_accepted_named {m : Match F} {config : ServerConfig} {ops : List (Op F)}
    {mouts : List (Out F)}
    (hm : (matchMachine F).run (Match.new config.rules) ops = .ok (m, mouts)) {sid : SessionId}
    {p : PlayerId} {e : EntityId} (ho : .accepted sid p e ∈ mouts.map (Out.named config)) :
    e = sid ∧ sid ∈ m.order ∧ p = config.playerOf sid := by
  obtain ⟨o, hout, heq⟩ := List.mem_map.1 ho
  cases o with
  | accepted sid' p' e' =>
    obtain ⟨rfl, rfl, rfl⟩ := Out.accepted.inj heq
    obtain ⟨he, hmem⟩ := Match.accepted_of_run hm hout
    exact ⟨he, hmem, rfl⟩
  | welcomed | verdict | disconnected | stepped => cases heq

/-! ## All tables -/

namespace Refines

variable {s : Server F} {m : Match F}

theorem sessions_eq_some (h : Refines s m) {sid : SessionId} {session : Session} :
    s.sessions.lookup sid = some session ↔
      (m.lane sid).live ∧ session = Session.new sid (s.config.playerOf sid) sid := by
  rw [h.sessions]
  split_ifs with hlive <;> simp [hlive, eq_comm]

theorem sessionPlayers_eq_some (h : Refines s m) {sid : SessionId} {p : PlayerId} :
    s.sessionPlayers.lookup sid = some p ↔ (m.lane sid).live ∧ p = s.config.playerOf sid := by
  rw [h.sessionPlayers]
  split_ifs with hlive <;> simp [hlive, eq_comm]

/-- The players of live sessions are found under their sessions. -/
theorem playerSessions_eq_some (h : Refines s m) (hb : Books s m) {sid : SessionId}
    {p : PlayerId} : s.playerSessions.lookup p = some sid ↔
      (m.lane sid).live ∧ p = s.config.playerOf sid := by
  constructor
  · intro hlookup
    by_cases hp : p ∈ s.entitySpawnOrder
    · rw [h.spawnOrder] at hp
      obtain ⟨sid', hmem, rfl⟩ := List.mem_map.1 hp
      rw [hb.playerSessions sid' hmem] at hlookup
      split_ifs at hlookup with hlive
      obtain rfl := Option.some.inj hlookup
      exact ⟨hlive, rfl⟩
    · rw [hb.strangers p hp] at hlookup
      cases hlookup
  · rintro ⟨hlive, rfl⟩
    rw [hb.playerSessions sid (h.mem_order_of_live hlive), if_pos hlive]

theorem enrolled (h : Refines s m) (hb : Books s m) {sid : SessionId} (hmem : sid ∈ m.order) :
    Enrolled s sid (s.config.playerOf sid) sid where
  spawned := List.count_eq_one_of_mem h.nodup (h.spawnOrder ▸ List.mem_map_of_mem hmem)
  character := by
    have hfilter : (m.order.filter fun sid' => s.config.playerOf sid' = s.config.playerOf sid) =
        m.order.filter (· = sid) :=
      List.filter_congr fun sid' hmem' => decide_eq_decide.2 (h.playerOf_eq_iff hmem' hmem)
    have hcount : m.order.count sid = 1 :=
      List.count_eq_one_of_mem (Match.nodup_order h.joined_lt_half) hmem
    rw [h.characters, List.filter_map, List.map_map]
    change (m.order.filter fun sid' => s.config.playerOf sid' = s.config.playerOf sid).map _ = _
    rw [hfilter, List.filter_eq, hcount]
    rfl
  mapping := hb.mapping sid hmem
  session := by
    intro session hsession
    obtain ⟨-, rfl⟩ := h.sessions_eq_some.1 hsession
    exact ⟨rfl, rfl⟩
  intent := by
    rw [← AList.lookup_isSome, h.intents sid hmem]
    rfl

end Refines

/-- In every state a run with distinct players reaches, the tables agree. -/
theorem bookkeeping {config : ServerConfig} (hids : config.Distinct) {ops : List (Op F)}
    {s : Server F} {outs : List (Out F)} (hrun : runServer config ops = .ok (s, outs)) :
    Bookkeeping config ops outs s := by
  have hrecorded := recorded_of_run hrun
  have hnodup := nodup_of_runServer hids hrun
  obtain ⟨s₀, hnew, hrun₀⟩ := bind_eq_ok.1 hrun
  have hbooks₀ : Books s₀ (Match.new config.rules) := by
    obtain ⟨-, rfl⟩ := Server.new_eq_ok.1 hnew
    exact ⟨nofun, fun _ _ => rfl, nofun, rfl, fun _ _ => rfl⟩
  obtain ⟨m, mouts, hm, rfl, h, hb⟩ := run_refines_with (R := Books)
    (fun _ _ _ _ _ _ _ h hb hexec hnodup hm => hb.exec h hexec hnodup hm)
    (refines_new hnew) hbooks₀ hrun₀ hnodup
  have hconfig : s₀.config = config := by rw [(Server.new_eq_ok.1 hnew).2]
  have hconfig' : s.config = config := (config_of_run hrun₀).trans hconfig
  have hmem_sessions : ∀ sid, sid ∈ s.sessions ↔ (m.lane sid).live := h.mem_sessions
  exact {
    keys := fun sid => by
      rw [hmem_sessions, ← AList.lookup_isSome, h.sessionPlayers]
      split_ifs with hlive <;> simp [hlive]
    player := fun sid session hsession => by
      obtain ⟨hlive, rfl⟩ := h.sessions_eq_some.1 hsession
      exact h.sessionPlayers_eq_some.2 ⟨hlive, rfl⟩
    inverse := fun sid p => h.sessionPlayers_eq_some.trans (h.playerSessions_eq_some hb).symm
    floors := fun sid hfloor => by
      rw [← AList.lookup_isSome, h.floors] at hfloor
      rw [hmem_sessions]
      by_contra hgone
      rw [hb.floors sid (Bool.not_eq_true _ ▸ hgone)] at hfloor
      cases hfloor
    enrolled := fun sid p e ho => by
      rw [hconfig] at ho
      obtain ⟨rfl, hmem, rfl⟩ := Match.of_accepted_named hm ho
      exact hconfig' ▸ h.enrolled hb hmem
    ascending := by
      rw [h.characters, List.pairwise_map]
      exact (Match.pairwise_order h.joined_lt_half).imp UInt64.lt_iff_toNat_lt.2
    below := fun c hc => by
      rw [h.characters] at hc
      obtain ⟨sid, hmem, rfl⟩ := List.mem_map.1 hc
      rw [UInt64.lt_iff_toNat_lt, h.nextEntityId, Nat.lt_succ_iff]
      exact ((Match.mem_order h.joined_lt_half).1 hmem).2
    spawnLog := hrecorded.spawnOrder
    mappingLog := by
      refine ⟨hrecorded.mapping, fun row hrow => ?_⟩
      rw [hb.rows] at hrow
      obtain ⟨sid, hmem, rfl⟩ := List.mem_map.1 hrow
      exact hb.mapping sid hmem
    departed := by
      rintro before after u os sid p e rfl hbefore ho input
      have hnodup' : u.entitySpawnOrder.Nodup := nodup_of_runServer hids hbefore
      obtain ⟨n, nouts, hn, rfl, hu, -⟩ := runServer_refines hbefore hnodup'
      obtain ⟨-, hmem, -⟩ := Match.of_accepted_named hn ho
      -- The match goes through the same states.
      obtain ⟨n', _, _, hn', hrest, -⟩ := Machine.run_append_eq_ok.1 hm
      obtain ⟨rfl, -⟩ := Prod.mk.inj (Except.ok.inj (hn.symm.trans hn'))
      obtain ⟨n₁, _, _, hdisconnect, hlater, -⟩ := Machine.run_cons_eq_ok.1 hrest
      have hgone := Machine.run_invariant (P := Gone sid) (fun _ _ _ _ h hexec => h.exec hexec)
        (gone_of_disconnect hu.joined_lt hmem hdisconnect) hlater
      exact hgone.receiveInput h input }

/-- Two players of a configured list, one of whom leaves. -/
theorem bookkeeping_17_99 : ∃ s outs,
    runServer (F := ℚ) { testPlayerIds := some [17, 99] } [.acceptSession, .acceptSession,
      .welcomeFor 2, .receiveInput 2 ⟨1, 1, [3, 4]⟩, .step, .disconnectSession 2, .step] =
        .ok (s, outs) ∧
    Bookkeeping { testPlayerIds := some [17, 99] } [.acceptSession, .acceptSession,
      .welcomeFor 2, .receiveInput 2 ⟨1, 1, [3, 4]⟩, .step, .disconnectSession 2, .step] outs s := by
  have h : (runServer (F := ℚ) { testPlayerIds := some [17, 99] } [.acceptSession, .acceptSession,
      .welcomeFor 2, .receiveInput 2 ⟨1, 1, [3, 4]⟩, .step, .disconnectSession 2, .step]).map
        (fun x => x.1.entitySpawnOrder) = .ok [17, 99] := by
    decide +kernel
  obtain ⟨⟨s, outs⟩, hs, -⟩ := map_eq_ok.1 h
  refine ⟨s, outs, hs, bookkeeping (fun ids hids => ?_) hs⟩
  obtain rfl := Option.some.inj hids
  decide

end Flowstate
