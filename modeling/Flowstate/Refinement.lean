import Flowstate.Match

/-!
# A server runs as its match

`Refines s m` relates a server to a match. The tables of the server hold, under the player
id of a session, what the match holds in the session's lane. Related states answer every
operation alike up to player ids, panics included (`exec_refines`), as long as an accept
finds a player id that is free (`CanAccept`).

A completed run of a server whose player ids are distinct is therefore a run of the match
of its configuration (`runServer_refines`), and the match does not know the player ids.
-/

set_option linter.unusedSectionVars false

open Rust

namespace Flowstate

variable {F : Type} [F64 F]

/-! ## Player ids of a configuration -/

namespace ServerConfig

/-- The player id of accept number `i`. -/
def playerAt (config : ServerConfig) (i : ℕ) : PlayerId :=
  match config.testPlayerIds with
  | none => UInt8.ofNat i
  | some ids => ids.getD i 0

/-- The player id of a session. -/
def playerOf (config : ServerConfig) (sid : SessionId) : PlayerId :=
  config.playerAt (sid.toNat - 1)

/-- The commands one player may send for one tick. -/
def perTickLimit (config : ServerConfig) : UInt32 :=
  if config.inputRateLimitPerSec % config.tickRateHz = 0 then
    config.inputRateLimitPerSec / config.tickRateHz
  else config.inputRateLimitPerSec / config.tickRateHz + 1

/-- The rules of the match the configuration describes. -/
def rules (config : ServerConfig) : Rules F :=
  ⟨config.maxSessions, config.tickRateHz, config.maxFutureTicks, config.inputLeadTicks,
    config.perTickLimit, F64.lit 1 / F64.lit config.tickRateHz.toNat⟩

end ServerConfig

/-- An output of a match with the player id its configuration gives the session. -/
def Out.named (config : ServerConfig) : Out F → Out F
  | .accepted sid _ e => .accepted sid (config.playerOf sid) e
  | .welcomed welcome =>
    .welcomed { welcome with
      playerId := (config.playerOf welcome.controlledEntityId).toUInt32 }
  | out => out

/-- The recorded form of what was applied to a session. -/
def Applied.toAppliedInput (config : ServerConfig) (a : Applied F) : AppliedInput F :=
  ⟨a.tick, config.playerOf a.session, a.moveDir, a.isFallback⟩

/-- The character of a session. -/
def Match.character (config : ServerConfig) (m : Match F) (sid : SessionId) : Character F :=
  ⟨sid, config.playerOf sid, (m.lane sid).position, (m.lane sid).velocity⟩

/-! ## The relation -/

/-- The server's tables hold, under each session's ids, what the match holds in its lane. -/
structure Refines (s : Server F) (m : Match F) : Prop where
  rules : m.rules = s.config.rules
  tick : s.world.tick = m.tick
  dtSeconds : s.world.dtSeconds = m.rules.dtSeconds
  nextEntityId : s.world.nextEntityId.toNat = m.joined + 1
  nextSessionId : s.nextSessionId.toNat = m.joined + 1
  nextPlayerId : s.nextPlayerId.toNat = m.joined
  characters : s.world.characters = m.order.map (m.character s.config)
  spawnOrder : s.entitySpawnOrder = m.order.map s.config.playerOf
  nodup : s.entitySpawnOrder.Nodup
  fresh : ∀ sid ∉ m.order, m.lane sid = Lane.fresh
  sessions : ∀ sid, s.sessions.lookup sid =
    if (m.lane sid).live then some (Session.new sid (s.config.playerOf sid) sid) else none
  sessionPlayers : ∀ sid, s.sessionPlayers.lookup sid =
    if (m.lane sid).live then some (s.config.playerOf sid) else none
  maxFutureTicks : s.inputBuffer.config.maxFutureTicks = m.rules.maxFutureTicks
  perTickLimit : s.inputBuffer.perTickLimit = m.rules.perTickLimit
  slots : ∀ sid ∈ m.order, ∀ t,
    s.inputBuffer.buffer.lookup (s.config.playerOf sid, t) = (m.lane sid).slots t
  noSlots : ∀ p ∉ s.entitySpawnOrder, ∀ t, s.inputBuffer.buffer.lookup (p, t) = none
  intents : ∀ sid ∈ m.order,
    s.lastKnownIntent.lookup (s.config.playerOf sid) = some (m.lane sid).intent
  floors : ∀ sid, s.lastEmittedFloor.lookup sid = (m.lane sid).floor
  log : s.replayRecorder.inputs = m.log.map (Applied.toAppliedInput s.config)
  logged : ∀ a ∈ m.log, a.session ∈ m.order

namespace Refines

variable {s : Server F} {m : Match F}

theorem joined_lt (h : Refines s m) : m.joined < 2 ^ 8 :=
  h.nextPlayerId ▸ s.nextPlayerId.toNat_lt

theorem joined_lt_half (h : Refines s m) : m.joined < 2 ^ 63 :=
  h.joined_lt.trans (by norm_num)

theorem mem_order_of_live (h : Refines s m) {sid : SessionId} (hlive : (m.lane sid).live) :
    sid ∈ m.order := by
  by_contra hsid
  simp [h.fresh sid hsid, Lane.fresh] at hlive

/-- Distinct joined sessions have distinct players. -/
theorem playerOf_inj (h : Refines s m) {a b : SessionId} (ha : a ∈ m.order) (hb : b ∈ m.order)
    (hab : s.config.playerOf a = s.config.playerOf b) : a = b := by
  have hnodup := h.nodup
  rw [h.spawnOrder] at hnodup
  exact List.inj_on_of_nodup_map hnodup ha hb hab

theorem playerOf_eq_iff (h : Refines s m) {a b : SessionId} (ha : a ∈ m.order)
    (hb : b ∈ m.order) : s.config.playerOf a = s.config.playerOf b ↔ a = b :=
  ⟨h.playerOf_inj ha hb, congrArg _⟩

/-- The inputs recorded for the player of a session of a match, or for all others, are what an
earlier match has logged for it, or for all others. -/
theorem filter_inputs_of {t : Server F} {n : Match F} (h : Refines s m) (hn : Refines t n)
    (hconfig : s.config = t.config) (hsub : m.order ⊆ n.order) {a : SessionId} (ha : a ∈ n.order)
    (q : Bool → Bool) :
    s.replayRecorder.inputs.filter (fun x => q (x.playerId == s.config.playerOf a)) =
      (m.log.filter fun x => q (x.session == a)).map (Applied.toAppliedInput s.config) := by
  rw [h.log, List.filter_map]
  refine congrArg _ (List.filter_congr fun x hx => ?_)
  by_cases heq : x.session = a
  · simp [Applied.toAppliedInput, heq]
  · have hne : s.config.playerOf x.session ≠ s.config.playerOf a := fun hp =>
      heq (hn.playerOf_inj (hsub (h.logged x hx)) ha (hconfig ▸ hp))
    simp only [Function.comp_apply, Applied.toAppliedInput, beq_eq_false_iff_ne.2 hne,
      beq_eq_false_iff_ne.2 heq]

/-- The inputs recorded for the player of a session, or for all others, are what the match
has logged for it, or for all others. -/
theorem filter_inputs (h : Refines s m) {a : SessionId} (ha : a ∈ m.order) (q : Bool → Bool) :
    s.replayRecorder.inputs.filter (fun x => q (x.playerId == s.config.playerOf a)) =
      (m.log.filter fun x => q (x.session == a)).map (Applied.toAppliedInput s.config) :=
  h.filter_inputs_of h rfl (List.Subset.refl _) ha q

theorem mem_sessions (h : Refines s m) (sid : SessionId) :
    sid ∈ s.sessions.keys ↔ (m.lane sid).live := by
  rw [← AList.mem_keys, ← AList.lookup_isSome, h.sessions sid]
  split_ifs with hlive <;> simp [hlive]

theorem sessionCount_eq (h : Refines s m) : s.sessionCount = m.liveCount := by
  refine List.Perm.length_eq ?_
  rw [List.perm_ext_iff_of_nodup s.sessions.keys_nodup
    ((Match.nodup_order h.joined_lt_half).filter _)]
  intro sid
  rw [h.mem_sessions, List.mem_filter]
  exact ⟨fun hlive => ⟨h.mem_order_of_live hlive, hlive⟩, fun hsid => hsid.2⟩

/-- The snapshot of related states. -/
theorem sortedEntitySnapshots_eq (h : Refines s m) :
    s.world.sortedEntitySnapshots = m.entities := by
  rw [World.sortedEntitySnapshots, h.characters, List.map_map]
  rfl

end Refines

/-! ## Accepting -/

/-- The next accept, if an ordinal is left for it, has a player id of its own. -/
def CanAccept (s : Server F) : Prop :=
  s.nextPlayerId.toNat + 1 < 2 ^ 8 →
    ∃ p, s.assignPlayerId s.nextPlayerId = .ok p ∧ p ∉ s.entitySpawnOrder

/-- The assigned player id is the one the configuration gives the session. -/
theorem playerAt_of_assignPlayerId {s : Server F} {ordinal p : PlayerId}
    (h : s.assignPlayerId ordinal = .ok p) : p = s.config.playerAt ordinal.toNat := by
  rcases hids : s.config.testPlayerIds with _ | ids
  · obtain rfl : ordinal = p := by simpa [Server.assignPlayerId, hids] using h
    simp [ServerConfig.playerAt, hids]
  · rcases hget : ids[ordinal.toNat]? with _ | q
    · simp [Server.assignPlayerId, hids, hget] at h
    · obtain rfl : q = p := by simpa [Server.assignPlayerId, hids, hget] using h
      simp [ServerConfig.playerAt, hids, List.getD, hget]

/-- Joining appends the session's character. -/
theorem sortByKey_characters {m : Match F} (config : ServerConfig) (hm : m.joined < 2 ^ 62)
    {c : Character F} (hc : c.entityId = Match.sessionAt m.joined) :
    sortByKey (fun c => c.entityId.toNat) (m.order.map (m.character config) ++ [c]) =
      m.order.map (m.character config) ++ [c] := by
  refine sortByKey_of_pairwise (List.pairwise_append.2 ⟨?_, List.pairwise_singleton _ _, ?_⟩)
  · rw [List.pairwise_map]
    exact (Match.pairwise_order (by omega)).imp fun hab => hab.le
  · intro a ha b hb
    obtain ⟨sid, hsid, rfl⟩ := List.mem_map.1 ha
    rw [List.mem_singleton.1 hb, hc, Match.sessionAt_toNat (by omega)]
    have := ((Match.mem_order (by omega)).1 hsid).2
    simp only [Match.character]
    omega

/-- An accept of a free player id is a join. -/
theorem Refines.accept {s s' : Server F} {m : Match F} {sid : SessionId} {p : PlayerId}
    {e : EntityId} (h : Refines s m) (hs : s.acceptSession = .ok (s', sid, p, e))
    (hp : p ∉ s.entitySpawnOrder) :
    sid = Match.sessionAt m.joined ∧ e = sid ∧ p = s.config.playerOf sid ∧
      Refines s' { m.setLane sid (m.lane sid).join with joined := m.joined + 1 } := by
  obtain ⟨-, rfl, hassign, nextSid, nextPid, world, hnextSid, hnextPid, hspawn, rfl⟩ :=
    Server.acceptSession_eq_ok.1 hs
  obtain ⟨rfl, nextEid, hnextEid, rfl⟩ := World.spawnCharacter_eq_ok.1 hspawn
  have hlt := h.joined_lt
  have hsid : s.nextSessionId = Match.sessionAt m.joined := by
    rw [← UInt64.toNat_inj, h.nextSessionId, Match.sessionAt_toNat (by omega)]
  have heid : s.world.nextEntityId = Match.sessionAt m.joined := by
    rw [← UInt64.toNat_inj, h.nextEntityId, Match.sessionAt_toNat (by omega)]
  have hpid : p = s.config.playerOf (Match.sessionAt m.joined) := by
    rw [playerAt_of_assignPlayerId hassign, h.nextPlayerId, ServerConfig.playerOf,
      Match.sessionAt_toNat (by omega), Nat.add_sub_cancel]
  have hnew : Match.sessionAt m.joined ∉ m.order :=
    Match.sessionAt_notMem_order h.joined_lt_half
  have hfresh : m.lane (Match.sessionAt m.joined) = Lane.fresh := h.fresh _ hnew
  have hne : ∀ sid ∈ m.order, sid ≠ Match.sessionAt m.joined := fun sid hmem heq =>
    hnew (heq ▸ hmem)
  refine ⟨hsid, heid.trans hsid.symm, hsid ▸ hpid, ?_⟩
  rw [hsid, heid]
  subst hpid
  exact {
    rules := h.rules
    tick := h.tick
    dtSeconds := h.dtSeconds
    nextEntityId := by rw [hnextEid, h.nextEntityId]
    nextSessionId := by rw [hnextSid, h.nextSessionId]
    nextPlayerId := by rw [hnextPid, h.nextPlayerId]
    characters := by
      rw [Match.order_succ, h.characters, sortByKey_characters s.config (by omega) rfl,
        List.map_append]
      refine congrArg₂ _ (List.map_congr_left fun sid hmem => ?_) ?_
      · simp [Match.character, hne sid hmem]
      · simp [Match.character, Character.new, hfresh, Lane.join, Lane.fresh]
    spawnOrder := by rw [Match.order_succ, h.spawnOrder, List.map_append, List.map_singleton]
    nodup := by
      exact h.nodup.append (List.nodup_singleton _) (List.disjoint_singleton.2 hp)
    fresh := by
      intro sid hmem
      rw [Match.order_succ, List.mem_append, List.mem_singleton, not_or] at hmem
      simpa [hmem.2] using h.fresh sid hmem.1
    sessions := fun sid => Match.eq_setLane
      (fun sid l => if l.live then some (Session.new sid (s.config.playerOf sid) sid) else none)
      (HashMap.lookup_insert ..) (h.sessions sid)
    sessionPlayers := fun sid => Match.eq_setLane
      (fun sid l => if l.live then some (s.config.playerOf sid) else none)
      (HashMap.lookup_insert ..) (h.sessionPlayers sid)
    maxFutureTicks := h.maxFutureTicks
    perTickLimit := h.perTickLimit
    slots := by
      intro sid hmem t
      rw [Match.order_succ, List.mem_append, List.mem_singleton] at hmem
      rcases hmem with hmem | rfl
      · simpa [hne sid hmem] using h.slots sid hmem t
      · simpa [hfresh, Lane.join, Lane.fresh] using h.noSlots _ hp t
    noSlots := fun q hq t => h.noSlots q (fun hmem => hq (List.mem_append_left _ hmem)) t
    intents := by
      intro sid hmem
      rw [HashMap.lookup_insert]
      rw [Match.order_succ, List.mem_append, List.mem_singleton] at hmem
      rcases hmem with hmem | rfl
      · have hq : s.config.playerOf sid ≠ s.config.playerOf (Match.sessionAt m.joined) := by
          intro heq
          exact hp (heq ▸ h.spawnOrder ▸ List.mem_map_of_mem hmem)
        simpa [hq, hne sid hmem] using h.intents sid hmem
      · simp [hfresh, Lane.join, Lane.fresh]
    floors := by
      intro sid
      refine Match.eq_setLane (fun _ l => l.floor) ?_ (h.floors sid)
      split_ifs with heq
      · rw [heq, h.floors]
        rfl
      · rfl
    log := h.log
    logged := fun a ha => Match.order_succ m .. ▸ List.mem_append_left _ (h.logged a ha) }

/-- Below the cap, an accept that finds its player id completes. -/
theorem Refines.exists_accept {s : Server F} {m : Match F} (h : Refines s m)
    (hcap : s.sessionCount < s.config.maxSessions) (hpid : s.nextPlayerId.toNat + 1 < 2 ^ 8)
    {p : PlayerId} (hassign : s.assignPlayerId s.nextPlayerId = .ok p) :
    ∃ s' sid e, s.acceptSession = .ok (s', sid, p, e) := by
  have hlt := h.joined_lt
  refine Server.exists_accept hcap ?_ hpid ?_ hassign
  · rw [h.nextSessionId]
    omega
  · rw [h.nextEntityId]
    omega

theorem exec_acceptSession_refines {s : Server F} {m : Match F} (h : Refines s m)
    (hcan : CanAccept s) :
    Machine.ResultRel Refines (fun o o' => o = o'.named s.config)
      (s.exec .acceptSession) (m.exec .acceptSession) := by
  have hmax : m.rules.maxSessions = s.config.maxSessions := by
    rw [h.rules]
    rfl
  by_cases hcap : s.config.maxSessions ≤ s.sessionCount
  · -- Both refuse, with the same message.
    have hm : m.rules.maxSessions ≤ m.liveCount := by rwa [hmax, ← h.sessionCount_eq]
    refine Machine.resultRel_error
      (e := ⟨s!"max_sessions ({s.config.maxSessions}) exceeded"⟩) ?_ ?_
    · simp [Server.exec, Server.acceptSession, hcap, bind, Except.bind, throw, throwThe,
        MonadExceptOf.throw]
    · rw [Match.exec, if_pos hm, hmax]
  · have hm : ¬m.rules.maxSessions ≤ m.liveCount := by rwa [hmax, ← h.sessionCount_eq]
    have hone : (1 : UInt64).toNat = 1 := rfl
    have hone' : (1 : UInt8).toNat = 1 := rfl
    have hlt := h.joined_lt
    rw [Match.exec, if_neg hm]
    by_cases hpid : m.joined + 1 < 2 ^ 8
    · obtain ⟨p, hassign, hp⟩ := hcan (h.nextPlayerId ▸ hpid)
      obtain ⟨s', sid, e, hs⟩ :=
        h.exists_accept (Nat.not_le.1 hcap) (h.nextPlayerId ▸ hpid) hassign
      obtain ⟨rfl, rfl, rfl, hrel⟩ := h.accept hs hp
      exact Machine.resultRel_ok (Server.exec_acceptSession.2 ⟨_, _, _, hs, rfl⟩)
        (if_pos hpid) hrel rfl
    · -- The ordinals are used up on both sides.
      obtain ⟨nextSid, hnextSid, -⟩ := addU64_of_lt (a := s.nextSessionId) (b := 1) (by
        rw [h.nextSessionId, hone]
        omega)
      have hoverflow : addU8 s.nextPlayerId 1 = .error addOverflow := by
        rw [addU8, h.nextPlayerId, hone', if_neg hpid]
      refine Machine.resultRel_error (e := addOverflow) ?_ (if_neg hpid)
      simp [Server.exec, Server.acceptSession, hcap, hnextSid, hoverflow, bind, Except.bind]

/-! ## Sessions -/

/-- A change to one joined lane that keeps its motion, and the matching change to the
session's entries in the tables of the server. -/
theorem Refines.setLane {s : Server F} {m : Match F} (h : Refines s m) {sid : SessionId}
    (hmem : sid ∈ m.order) {l : Lane F} (hposition : l.position = (m.lane sid).position)
    (hvelocity : l.velocity = (m.lane sid).velocity) {sessions playerSessions sessionPlayers}
    {inputBuffer : InputBuffer F} {lastKnownIntent lastEmittedFloor}
    (hsessions : ∀ sid', AList.lookup sid' sessions = if sid' = sid then
      if l.live then some (Session.new sid (s.config.playerOf sid) sid) else none
      else s.sessions.lookup sid')
    (hplayers : ∀ sid', AList.lookup sid' sessionPlayers = if sid' = sid then
      if l.live then some (s.config.playerOf sid) else none else s.sessionPlayers.lookup sid')
    (hconfig : inputBuffer.config = s.inputBuffer.config)
    (hlimit : inputBuffer.perTickLimit = s.inputBuffer.perTickLimit)
    (hslots : ∀ p t, inputBuffer.buffer.lookup (p, t) = if p = s.config.playerOf sid then
      l.slots t else s.inputBuffer.buffer.lookup (p, t))
    (hintents : ∀ p, AList.lookup p lastKnownIntent = if p = s.config.playerOf sid then
      some l.intent else s.lastKnownIntent.lookup p)
    (hfloors : ∀ sid', AList.lookup sid' lastEmittedFloor = if sid' = sid then
      l.floor else s.lastEmittedFloor.lookup sid') :
    Refines { s with
      sessions, playerSessions, sessionPlayers, inputBuffer, lastKnownIntent, lastEmittedFloor }
      (m.setLane sid l) where
  rules := h.rules
  tick := h.tick
  dtSeconds := h.dtSeconds
  nextEntityId := h.nextEntityId
  nextSessionId := h.nextSessionId
  nextPlayerId := h.nextPlayerId
  characters := by
    rw [h.characters, Match.order_setLane]
    refine List.map_congr_left fun sid' _ => ?_
    by_cases heq : sid' = sid
    · simp [Match.character, heq, hposition, hvelocity]
    · simp [Match.character, heq]
  spawnOrder := h.spawnOrder
  nodup := h.nodup
  fresh := by
    intro sid' hmem'
    have hne : sid' ≠ sid := fun heq => hmem' (heq ▸ hmem)
    rw [Match.lane_setLane, if_neg hne]
    exact h.fresh sid' hmem'
  sessions := fun sid' => Match.eq_setLane
    (fun sid l => if l.live then some (Session.new sid (s.config.playerOf sid) sid) else none)
    (hsessions sid') (h.sessions sid')
  sessionPlayers := fun sid' => Match.eq_setLane
    (fun sid l => if l.live then some (s.config.playerOf sid) else none)
    (hplayers sid') (h.sessionPlayers sid')
  maxFutureTicks := hconfig ▸ h.maxFutureTicks
  perTickLimit := hlimit ▸ h.perTickLimit
  slots := by
    intro sid' hmem' t
    refine Match.eq_setLane (fun _ l => l.slots t) ?_ (h.slots sid' hmem' t)
    rw [hslots]
    exact if_congr (h.playerOf_eq_iff hmem' hmem) rfl rfl
  noSlots := by
    intro p hp t
    rw [hslots, if_neg]
    · exact h.noSlots p hp t
    · rintro rfl
      exact hp (h.spawnOrder ▸ List.mem_map_of_mem hmem)
  intents := by
    intro sid' hmem'
    refine Match.eq_setLane (fun _ l => some l.intent) ?_ (h.intents sid' hmem')
    rw [hintents]
    exact if_congr (h.playerOf_eq_iff hmem' hmem) rfl rfl
  floors := fun sid' => Match.eq_setLane (fun _ l => l.floor) (hfloors sid') (h.floors sid')
  log := h.log
  logged := h.logged

section

variable {s : Server F} {m : Match F} {sid : SessionId}

theorem Refines.slots_eq_ite (h : Refines s m) (hmem : sid ∈ m.order) (p : PlayerId) (t : Tick) :
    s.inputBuffer.buffer.lookup (p, t) = if p = s.config.playerOf sid then
      (m.lane sid).slots t else s.inputBuffer.buffer.lookup (p, t) := by
  split_ifs with hp
  · rw [hp]
    exact h.slots sid hmem t
  · rfl

theorem Refines.welcome (h : Refines s m) (hlive : (m.lane sid).live) (floor : Tick) :
    Refines { s with lastEmittedFloor := s.lastEmittedFloor.insert sid floor }
      (m.setLane sid ((m.lane sid).welcome floor)) :=
  have hmem := h.mem_order_of_live hlive
  h.setLane (l := (m.lane sid).welcome floor) hmem rfl rfl (HashMap.lookup_eq_ite (h.sessions sid))
    (HashMap.lookup_eq_ite (h.sessionPlayers sid)) rfl rfl (h.slots_eq_ite hmem)
    (HashMap.lookup_eq_ite (h.intents sid hmem))
    (HashMap.lookup_insert s.lastEmittedFloor sid · floor)

theorem exec_welcomeFor_refines (h : Refines s m) (sid : SessionId) :
    Machine.ResultRel Refines (fun o o' => o = o'.named s.config)
      (s.exec (.welcomeFor sid)) (m.exec (.welcomeFor sid)) := by
  have hsession := h.sessions sid
  by_cases hlive : (m.lane sid).live
  · rw [if_pos hlive] at hsession
    rcases hadd : addU64 m.tick m.rules.inputLeadTicks with e | floor
    · refine Machine.resultRel_error (e := e) ?_ ?_
      · have hadd' : addU64 s.world.tick s.config.inputLeadTicks = .error e := by
          rw [h.tick, ← hadd, h.rules]
          rfl
        simp only [Server.exec, Server.welcomeFor, hsession, hadd', bind, Except.bind]
      · simp only [Match.exec, hlive, if_true, hadd, bind, Except.bind]
    · have hadd' : floor.toNat = s.world.tick.toNat + s.config.inputLeadTicks.toNat := by
        rw [addU64_eq_ok.1 hadd, h.tick, h.rules]
        rfl
      have hs := Server.welcomeFor_eq_ok.2 ⟨_, hsession, floor, hadd', rfl, rfl⟩
      have hm : m.exec (.welcomeFor sid) = .ok (m.setLane sid ((m.lane sid).welcome floor),
          .welcomed ⟨floor, m.rules.tickRateHz, 0, sid⟩) := by
        rw [Match.exec, if_pos hlive, hadd]
        rfl
      refine Machine.resultRel_ok (Server.exec_welcomeFor.2 ⟨_, hs, rfl⟩) hm
        (h.welcome hlive floor) ?_
      rw [h.rules]
      rfl
  · rw [if_neg hlive] at hsession
    refine Machine.resultRel_error (e := ⟨"welcome_for: unknown session_id"⟩) ?_ ?_
    · simp only [Server.exec, Server.welcomeFor, hsession, bind, Except.bind]
    · simp only [Match.exec, hlive]
      rfl

theorem Refines.receive (h : Refines s m) (hlive : (m.lane sid).live) (input : InputCmdProto F) :
    Refines { s with
        inputBuffer := (s.inputBuffer.tryBuffer (s.config.playerOf sid) input).1 }
      (m.setLane sid ((m.lane sid).buffer m.rules.perTickLimit input)) := by
  have hmem := h.mem_order_of_live hlive
  refine h.setLane (l := (m.lane sid).buffer m.rules.perTickLimit input) hmem rfl rfl
    (HashMap.lookup_eq_ite (h.sessions sid)) (HashMap.lookup_eq_ite (h.sessionPlayers sid))
    (InputBuffer.tryBuffer_frame ..).1 (InputBuffer.tryBuffer_frame ..).2 (fun p t => ?_)
    (HashMap.lookup_eq_ite (h.intents sid hmem)) (HashMap.lookup_eq_ite (h.floors sid))
  rw [InputBuffer.lookup_tryBuffer, h.perTickLimit, h.slots sid hmem]
  by_cases hp : p = s.config.playerOf sid
  · subst hp
    by_cases ht : t = input.tick
    · simp [ht, Lane.buffer]
    · simp [ht, h.slots sid hmem, Lane.buffer]
  · simp [hp]

theorem exec_receiveInput_refines (h : Refines s m) (sid : SessionId) (input : InputCmdProto F) :
    Machine.ResultRel Refines (fun o o' => o = o'.named s.config)
      (s.exec (.receiveInput sid input)) (m.exec (.receiveInput sid input)) := by
  have hplayer := h.sessionPlayers sid
  by_cases hlive : (m.lane sid).live
  · rw [if_pos hlive] at hplayer
    have hs := s.receiveInput_eq sid input
    simp only [hplayer, h.maxFutureTicks, h.tick, h.floors sid] at hs
    rw [Server.exec, hs, Match.exec, if_pos hlive, Lane.receive]
    rcases screen m.rules.maxFutureTicks m.tick ((m.lane sid).floor.getD 0) input with
      e | _ | result
    · exact Machine.resultRel_error rfl rfl
    · refine Machine.resultRel_ok rfl rfl (h.receive hlive input) ?_
      rw [InputBuffer.tryBuffer_result, h.perTickLimit, h.slots sid (h.mem_order_of_live hlive)]
      rfl
    · refine Machine.resultRel_ok rfl rfl ?_ rfl
      simpa [Match.setLane] using h
  · rw [if_neg hlive] at hplayer
    refine Machine.resultRel_ok (Server.exec_receiveInput.2 ⟨.droppedUnknownSession, ?_, rfl⟩)
      (if_neg hlive) h rfl
    simp [Server.receiveInput_eq, hplayer]

theorem Refines.leave (h : Refines s m) (hlive : (m.lane sid).live) :
    Refines (s.disconnectSession sid) (m.setLane sid (m.lane sid).leave) := by
  have hmem := h.mem_order_of_live hlive
  have hsession := h.sessions sid
  rw [if_pos hlive] at hsession
  simp only [Server.disconnectSession, hsession]
  exact h.setLane (l := (m.lane sid).leave) hmem rfl rfl (HashMap.lookup_erase s.sessions sid)
    (HashMap.lookup_erase s.sessionPlayers sid) rfl rfl (h.slots_eq_ite hmem)
    (HashMap.lookup_insert s.lastKnownIntent _ · _) (HashMap.lookup_erase s.lastEmittedFloor sid)

theorem exec_disconnectSession_refines (h : Refines s m) (sid : SessionId) :
    Machine.ResultRel Refines (fun o o' => o = o'.named s.config)
      (s.exec (.disconnectSession sid)) (m.exec (.disconnectSession sid)) := by
  rw [Match.exec]
  by_cases hlive : (m.lane sid).live
  · rw [if_pos hlive]
    exact Machine.resultRel_ok rfl rfl (h.leave hlive) rfl
  · have hsession := h.sessions sid
    rw [if_neg hlive] at hsession ⊢
    refine Machine.resultRel_ok rfl rfl ?_ rfl
    simpa only [Server.disconnectSession, hsession] using h

/-! ## Ticks -/

theorem choiceFor_eq (h : Refines s m) (hmem : sid ∈ m.order) :
    Server.choiceFor s.world.tick s.inputBuffer s.lastKnownIntent (s.config.playerOf sid) =
      (m.lane sid).choice m.tick := by
  rw [Server.choiceFor, h.slots sid hmem, h.intents sid hmem, h.tick]
  rfl

theorem appliedInputs_eq (h : Refines s m) :
    s.appliedInputs = m.applied.map (Applied.toAppliedInput s.config) := by
  rw [Server.appliedInputs, Server.produced, (Server.produceInputs_of_nodup _ h.nodup _ _).1,
    h.spawnOrder, Match.applied, List.map_map, List.map_map]
  refine List.map_congr_left fun sid hmem => ?_
  simp only [Function.comp_apply, choiceFor_eq h hmem, Applied.toAppliedInput]
  rw [h.tick]

/-- A tick moves every character by its own lane's choice. -/
theorem characters_foldl_stepInputs (h : Refines s m) (next floor : Tick) :
    (s.stepInputs.foldl World.applyMovement s.world).characters =
      m.order.map ((m.advance next floor).character s.config) := by
  have hplayers : (s.stepInputs.map StepInput.playerId).Perm s.entitySpawnOrder := by
    have happlied := Server.playerId_produceInputs s.world.tick s.entitySpawnOrder s.inputBuffer
      s.lastKnownIntent
    have hperm := (perm_sortByKey (fun i : StepInput F => i.playerId.toNat)
      (s.appliedInputs.map AppliedInput.toStepInput)).map StepInput.playerId
    rw [List.map_map] at hperm
    exact hperm.trans (List.Perm.of_eq happlied)
  have hin : (s.stepInputs.map StepInput.playerId).Nodup := hplayers.nodup_iff.2 h.nodup
  have hch : (s.world.characters.map Character.playerId).Nodup := by
    have hnodup := h.nodup
    rw [h.spawnOrder] at hnodup
    rwa [h.characters, List.map_map]
  rw [World.characters_foldl_applyMovement hin hch, h.characters, List.map_map]
  refine List.map_congr_left fun sid hmem => ?_
  have hinput : (⟨s.config.playerOf sid, ((m.lane sid).choice m.tick).1⟩ : StepInput F) ∈
      s.stepInputs := by
    refine (perm_sortByKey _ _).mem_iff.2 (List.mem_map.2 ?_)
    rw [appliedInputs_eq h, Match.applied, List.map_map]
    exact ⟨_, List.mem_map_of_mem hmem, rfl⟩
  have hfind := find?_key_eq hin hinput
  dsimp only at hfind
  simp only [Function.comp_apply, Match.character, hfind, h.dtSeconds, Match.advance, hmem,
    if_true]
  rfl

/-- A step of the server is a tick of the match. -/
theorem Refines.step (h : Refines s m) {next : Tick} (floor : Tick)
    (hnext : next.toNat = s.world.tick.toNat + 1) :
    Refines (s.stepped (s.steppedWorld next) floor) (m.advance next floor) := by
  have hkeep : ∀ t, next ≤ t → t ≠ s.world.tick := by
    rintro t hle rfl
    rw [UInt64.le_iff_toNat_le] at hle
    omega
  have hframe := Server.produceInputs_frame s.world.tick s.entitySpawnOrder s.inputBuffer
    s.lastKnownIntent
  exact {
    rules := h.rules
    tick := rfl
    dtSeconds := h.dtSeconds
    nextEntityId := h.nextEntityId
    nextSessionId := h.nextSessionId
    nextPlayerId := h.nextPlayerId
    characters := characters_foldl_stepInputs h next floor
    spawnOrder := h.spawnOrder
    nodup := h.nodup
    fresh := by
      intro sid hmem
      rw [Match.order_advance] at hmem
      rw [Match.lane_advance, if_neg hmem]
      exact h.fresh sid hmem
    sessions := fun sid => by simpa using h.sessions sid
    sessionPlayers := fun sid => by simpa using h.sessionPlayers sid
    maxFutureTicks := hframe.1 ▸ h.maxFutureTicks
    perTickLimit := hframe.2 ▸ h.perTickLimit
    slots := by
      intro sid hmem t
      rw [Match.order_advance] at hmem
      simp only [Server.stepped, Server.produced, InputBuffer.lookup_evictBefore,
        Server.lookup_produceInputs,
        Server.steppedWorld_tick, Match.lane_advance, if_pos hmem, Lane.advance]
      by_cases hle : next ≤ t
      · simp [hle, hkeep t hle, h.slots sid hmem]
      · simp [hle]
    noSlots := by
      intro p hp t
      simp only [Server.stepped, Server.produced, InputBuffer.lookup_evictBefore,
        Server.lookup_produceInputs]
      simp [h.noSlots p hp]
    intents := by
      intro sid hmem
      rw [Match.order_advance] at hmem
      have hp : s.config.playerOf sid ∈ s.entitySpawnOrder :=
        h.spawnOrder ▸ List.mem_map_of_mem hmem
      simp only [Server.stepped, Server.produced, (Server.produceInputs_of_nodup _ h.nodup _ _).2,
        if_pos hp, choiceFor_eq h hmem, Match.lane_advance, if_pos hmem, Lane.advance]
    floors := by
      intro sid
      simp only [Server.stepped, HashMap.lookup_insertAll, h.mem_sessions, h.floors,
        Match.lane_advance]
      by_cases hmem : sid ∈ m.order
      · simp [hmem, Lane.advance]
      · simp [hmem, h.fresh sid hmem, Lane.fresh]
    log := by
      rw [Server.stepped_replayRecorder, Server.stepped_config, Match.advance, List.map_append,
        ← appliedInputs_eq h, ← h.log]
    logged := by
      intro a ha
      rcases List.mem_append.1 ha with ha | ha
      · exact h.logged a ha
      · obtain ⟨sid, hmem, rfl⟩ := List.mem_map.1 ha
        exact hmem }

/-- Related states have the same snapshot. -/
theorem Refines.snapshotOf_eq (h : Refines s m) : Server.snapshotOf s.world = m.snapshot := by
  rw [Server.snapshotOf, World.stateDigest_eq, h.sortedEntitySnapshots_eq, h.tick]
  rfl

theorem exec_step_refines (h : Refines s m) :
    Machine.ResultRel Refines (fun o o' => o = o'.named s.config) (s.exec .step)
      (m.exec .step) := by
  have hlead : m.rules.inputLeadTicks = s.config.inputLeadTicks := by
    rw [h.rules]
    rfl
  rw [Server.exec, Server.step_eq, Match.exec, hlead, h.tick]
  rcases hadd : addU64 m.tick 1 with e | next
  · exact Machine.resultRel_error rfl rfl
  · rcases hfloor : addU64 next s.config.inputLeadTicks with e | floor
    · refine Machine.resultRel_error (e := e) ?_ ?_ <;> simp [hfloor, bind, Except.bind]
    · have hnext : next.toNat = s.world.tick.toNat + 1 := by
        rw [addU64_eq_ok.1 hadd, h.tick]
        rfl
      have hrel := h.step floor hnext
      refine Machine.resultRel_ok (by simp only [hfloor, bind, Except.bind]; rfl)
        (by simp only [hfloor, bind, Except.bind]; rfl) hrel ?_
      have hsnapshot := hrel.snapshotOf_eq
      rw [Server.stepped_world] at hsnapshot
      rw [hsnapshot]
      rfl

end

/-! ## Runs -/

theorem exec_refines {s : Server F} {m : Match F} (h : Refines s m) (op : Op F)
    (hop : op = .acceptSession → CanAccept s) :
    Machine.ResultRel Refines (fun o o' => o = o'.named s.config) (s.exec op) (m.exec op) := by
  cases op with
  | acceptSession => exact exec_acceptSession_refines h (hop rfl)
  | welcomeFor sid => exact exec_welcomeFor_refines h sid
  | receiveInput sid input => exact exec_receiveInput_refines h sid input
  | disconnectSession sid => exact exec_disconnectSession_refines h sid
  | step => exact exec_step_refines h

/-- An accept that completed, and left the players distinct, could be made. -/
theorem canAccept_of_exec {s s' : Server F} {o : Out F} (h : s.exec .acceptSession = .ok (s', o))
    (hnodup : s'.entitySpawnOrder.Nodup) : CanAccept s := by
  obtain ⟨sid, p, e, hs, rfl⟩ := Server.exec_acceptSession.1 h
  obtain ⟨-, -, hassign, nextSid, nextPid, world, -, -, -, rfl⟩ :=
    Server.acceptSession_eq_ok.1 hs
  exact fun _ =>
    ⟨p, hassign, List.disjoint_singleton.1 (List.disjoint_of_nodup_append hnodup)⟩

theorem Server.new_eq_ok {config : ServerConfig} {s : Server F} :
    Server.new config = .ok s ↔ config.tickRateHz ≠ 0 ∧ s = {
      config
      world := ⟨0, config.tickRateHz, F64.lit 1 / F64.lit config.tickRateHz.toNat, [], 1,
        config.seed⟩
      sessions := ∅
      nextSessionId := 1
      nextPlayerId := 0
      playerSessions := ∅
      sessionPlayers := ∅
      inputBuffer := ⟨⟨config.maxFutureTicks, config.inputRateLimitPerSec, config.tickRateHz⟩, ∅,
        config.perTickLimit⟩
      lastKnownIntent := ∅
      lastEmittedFloor := ∅
      replayRecorder := ReplayRecorder.new ⟨config.seed, config.tickRateHz, "none",
        config.testMode, config.testPlayerIds.getD []⟩
      entitySpawnOrder := []
      playerEntityMapping := ∅
      baselineRecorded := false
      buildFingerprint := none } := by
  unfold Server.new World.new InputBuffer.new divCeil ServerConfig.perTickLimit
  by_cases h : config.tickRateHz = 0
  · simp [h, bind, Except.bind]
  · simp only [h, if_false, bind, Except.bind, pure, Except.pure, ne_eq, not_false_eq_true,
      true_and]
    split_ifs <;> simp [eq_comm]

theorem refines_new {config : ServerConfig} {s : Server F} (h : Server.new config = .ok s) :
    Refines s (Match.new config.rules) := by
  obtain ⟨-, rfl⟩ := Server.new_eq_ok.1 h
  constructor <;> simp [Match.new, Match.order, ServerConfig.rules, Lane.fresh, ReplayRecorder.new]

/-- A run adds the players it accepts. -/
theorem spawnOrder_of_run : ∀ {ops : List (Op F)} {s t : Server F} {outs : List (Out F)},
    (serverMachine F).run s ops = .ok (t, outs) →
      t.entitySpawnOrder = s.entitySpawnOrder ++ outs.flatMap Out.assigned
  | [], s, t, outs, hrun => by
    obtain ⟨rfl, rfl⟩ : s = t ∧ [] = outs := by simpa using hrun
    simp
  | op :: ops, s, t, outs, hrun => by
    obtain ⟨s', o, os, hexec, hrest, rfl⟩ := Machine.run_cons_eq_ok.1 hrun
    rw [spawnOrder_of_run hrest, (Server.exec_frame hexec).2.1, List.flatMap_cons,
      List.append_assoc]

theorem assigned_of_runServer {config : ServerConfig} {ops : List (Op F)} {s : Server F}
    {outs : List (Out F)} (hrun : runServer config ops = .ok (s, outs)) :
    s.entitySpawnOrder = outs.flatMap Out.assigned := by
  obtain ⟨s₀, hnew, hrun⟩ := bind_eq_ok.1 hrun
  obtain ⟨-, rfl⟩ := Server.new_eq_ok.1 hnew
  rw [spawnOrder_of_run hrun, List.nil_append]

theorem config_of_run {ops : List (Op F)} {s t : Server F} {outs : List (Out F)}
    (hrun : (serverMachine F).run s ops = .ok (t, outs)) : t.config = s.config :=
  Machine.run_invariant (P := fun u => u.config = s.config)
    (fun _ _ _ _ hu hexec => (Server.exec_frame hexec).1.trans hu) rfl hrun

/-- A completed run with distinct players is a run of the related match, and keeps a further
relation that the operations both complete keep. -/
theorem run_refines_with {R : Server F → Match F → Prop}
    (hstep : ∀ s m op s' o m' o', Refines s m → R s m → s.exec op = .ok (s', o) →
      s'.entitySpawnOrder.Nodup → m.exec op = .ok (m', o') → R s' m') :
    ∀ {ops : List (Op F)} {s t : Server F} {m : Match F} {outs : List (Out F)},
      Refines s m → R s m → (serverMachine F).run s ops = .ok (t, outs) →
        t.entitySpawnOrder.Nodup → ∃ n mouts, (matchMachine F).run m ops = .ok (n, mouts) ∧
          outs = mouts.map (Out.named s.config) ∧ Refines t n ∧ R t n
  | [], s, t, m, outs, h, hR, hrun, _ => by
    obtain ⟨rfl, rfl⟩ : s = t ∧ [] = outs := by simpa using hrun
    exact ⟨m, [], rfl, rfl, h, hR⟩
  | op :: ops, s, t, m, outs, h, hR, hrun, hnodup => by
    obtain ⟨s', o, os, hexec, hrun', rfl⟩ := Machine.run_cons_eq_ok.1 hrun
    have hnodup' : s'.entitySpawnOrder.Nodup := by
      rw [spawnOrder_of_run hrun'] at hnodup
      exact hnodup.of_append_left
    have hop := exec_refines h op fun hop => canAccept_of_exec (hop ▸ hexec) hnodup'
    rw [show s.exec op = .ok (s', o) from hexec] at hop
    obtain ⟨m', o', hexec', h', rfl⟩ := Machine.resultRel_ok_left hop
    have hR' := hstep s m op s' _ m' o' h hR hexec hnodup' hexec'
    obtain ⟨n, mouts, hn, rfl, hrel⟩ := run_refines_with hstep h' hR' hrun' hnodup
    refine ⟨n, o' :: mouts, Machine.run_cons_eq_ok.2 ⟨m', o', mouts, hexec', hn, rfl⟩, ?_, hrel⟩
    rw [List.map_cons, (Server.exec_frame hexec).1]

theorem run_refines {ops : List (Op F)} {s t : Server F} {m : Match F} {outs : List (Out F)}
    (h : Refines s m) (hrun : (serverMachine F).run s ops = .ok (t, outs))
    (hnodup : t.entitySpawnOrder.Nodup) :
    ∃ n mouts, (matchMachine F).run m ops = .ok (n, mouts) ∧
      outs = mouts.map (Out.named s.config) ∧ Refines t n := by
  obtain ⟨n, mouts, hn, houts, hrel, -⟩ := run_refines_with (R := fun _ _ => True)
    (fun _ _ _ _ _ _ _ _ _ _ _ _ => trivial) h trivial hrun hnodup
  exact ⟨n, mouts, hn, houts, hrel⟩

/-- A completed run of a server with distinct players is a run of the match of its
configuration. -/
theorem runServer_refines {config : ServerConfig} {ops : List (Op F)} {s : Server F}
    {outs : List (Out F)} (hrun : runServer config ops = .ok (s, outs))
    (hnodup : s.entitySpawnOrder.Nodup) :
    ∃ m mouts, (matchMachine F).run (Match.new config.rules) ops = .ok (m, mouts) ∧
      outs = mouts.map (Out.named config) ∧ Refines s m ∧ s.config = config := by
  obtain ⟨s₀, hnew, hrun⟩ := bind_eq_ok.1 hrun
  have hconfig : s₀.config = config := by rw [(Server.new_eq_ok.1 hnew).2]
  obtain ⟨m, mouts, hm, houts, hrel⟩ := run_refines (refines_new hnew) hrun hnodup
  exact ⟨m, mouts, hm, hconfig ▸ houts, hrel, (config_of_run hrun).trans hconfig⟩

/-- The server and the match run alike, panics included, under a condition `A` on the match
and the operations to come that lets every accept find its player id. -/
theorem run_refines_alike {config : ServerConfig} {A : List (Op F) → Match F → Prop}
    (haccept : ∀ u m ops, A (.acceptSession :: ops) m → u.config = config → Refines u m →
      CanAccept u)
    (hnext : ∀ m op ops m' o, A (op :: ops) m → m.exec op = .ok (m', o) → A ops m')
    {ops : List (Op F)} {s : Server F} {m : Match F} (hconfig : s.config = config)
    (h : Refines s m) (hA : A ops m) :
    Machine.ResultRel Refines (fun os os' => os = os'.map (Out.named config))
      ((serverMachine F).run s ops) ((matchMachine F).run m ops) := by
  let R : List (Op F) → Server F → Match F → Prop := fun ops u m =>
    Refines u m ∧ u.config = config ∧ A ops m
  have hstep : ∀ u m op ops, R (op :: ops) u m → Machine.ResultRel (R ops)
      (fun o o' => o = o'.named config) ((serverMachine F).exec u op)
      ((matchMachine F).exec m op) := by
    rintro u m op ops ⟨h, hconfig, hA⟩
    have hexec := exec_refines h op fun hop => haccept u m ops (hop ▸ hA) hconfig h
    rcases hu : u.exec op with e | ⟨u', o⟩ <;> rcases hm : m.exec op with e' | ⟨m', o'⟩ <;>
      rw [hu, hm] at hexec
    · exact Machine.resultRel_error hu (hexec ▸ hm)
    · exact hexec.elim
    · exact hexec.elim
    · exact Machine.resultRel_ok hu hm ⟨hexec.1, (Server.exec_frame hu).1.trans hconfig,
        hnext m op ops m' o' hA hm⟩ (hconfig ▸ hexec.2)
  refine (Machine.run_rel hstep ⟨h, hconfig, hA⟩).imp (fun _ _ hR => hR.1) fun os os' hQ => ?_
  exact List.forall₂_eq_eq_eq ▸ List.forall₂_map_right_iff.2 hQ

/-- Without accepts, the server and the match run alike. -/
theorem run_refines_of_forall_ne {ops : List (Op F)} {s : Server F} {m : Match F}
    (h : Refines s m) (hops : ∀ op ∈ ops, op ≠ .acceptSession) :
    Machine.ResultRel Refines (fun os os' => os = os'.map (Out.named s.config))
      ((serverMachine F).run s ops) ((matchMachine F).run m ops) :=
  run_refines_alike (A := fun ops _ => ∀ op ∈ ops, op ≠ .acceptSession)
    (fun _ _ _ hops => absurd rfl (List.forall_mem_cons.1 hops).1)
    (fun _ _ _ _ _ hops _ => (List.forall_mem_cons.1 hops).2) rfl h hops

/-! ## Configurations with ids to spare -/

/-- The configuration has distinct player ids for `n` accepts, and `n` ordinals. -/
def ServerConfig.HasIds (config : ServerConfig) (n : ℕ) : Prop :=
  n < 2 ^ 8 ∧ ∀ ids, config.testPlayerIds = some ids → ids.Nodup ∧ n ≤ ids.length

theorem ServerConfig.HasIds.playerAt_inj {config : ServerConfig} {n i j : ℕ}
    (h : config.HasIds n) (hi : i < n) (hj : j < n) (hij : config.playerAt i = config.playerAt j) :
    i = j := by
  obtain ⟨hn, hids⟩ := h
  unfold playerAt at hij
  rcases htest : config.testPlayerIds with _ | ids
  · simp only [htest] at hij
    have hij := congrArg UInt8.toNat hij
    rwa [UInt8.toNat_ofNat_of_lt' (hi.trans hn), UInt8.toNat_ofNat_of_lt' (hj.trans hn)] at hij
  · obtain ⟨hnodup, hlen⟩ := hids ids htest
    have hi' := hi.trans_le hlen
    have hj' := hj.trans_le hlen
    simp only [htest, List.getD, List.getElem?_eq_getElem hi', List.getElem?_eq_getElem hj',
      Option.getD_some] at hij
    exact hnodup.getElem_inj_iff.1 hij

/-- The configuration gives every accept a player id of its own. -/
def ServerConfig.Distinct (config : ServerConfig) : Prop :=
  ∀ ids, config.testPlayerIds = some ids → ids.Nodup

/-- What a run has assigned came off the list. -/
theorem lt_length_of_assignPlayerId {s : Server F} {ordinal p : PlayerId} {ids : List PlayerId}
    (h : s.assignPlayerId ordinal = .ok p) (hids : s.config.testPlayerIds = some ids) :
    ordinal.toNat < ids.length := by
  by_contra hlen
  simp [Server.assignPlayerId, hids, List.getElem?_eq_none (Nat.not_lt.1 hlen)] at h

/-- The players of a run are those of the ordinals given out. -/
theorem roster_of_runServer {config : ServerConfig} {ops : List (Op F)} {s : Server F}
    {outs : List (Out F)} (hrun : runServer config ops = .ok (s, outs)) :
    s.entitySpawnOrder = (List.range s.nextPlayerId.toNat).map config.playerAt ∧
      ∀ ids, config.testPlayerIds = some ids → s.nextPlayerId.toNat ≤ ids.length := by
  let P : Server F → Prop := fun u => u.config = config ∧
    u.entitySpawnOrder = (List.range u.nextPlayerId.toNat).map config.playerAt ∧
      ∀ ids, config.testPlayerIds = some ids → u.nextPlayerId.toNat ≤ ids.length
  have hstep : ∀ u op u' o, P u → u.exec op = .ok (u', o) → P u' := by
    rintro u op u' o ⟨hconfig, horder, hlen⟩ hexec
    obtain ⟨hconfig', horder', ⟨hnil, hnext⟩ | ⟨p, hp, hassign, hnext⟩⟩ := Server.exec_frame hexec
    · refine ⟨hconfig'.trans hconfig, ?_, hnext ▸ hlen⟩
      rw [horder', hnil, List.append_nil, horder, hnext]
    · refine ⟨hconfig'.trans hconfig, ?_, fun ids htest => ?_⟩
      · rw [horder', hp, horder, hnext, List.range_succ, List.map_append, List.map_singleton,
          playerAt_of_assignPlayerId hassign, hconfig]
      · rw [hnext]
        exact lt_length_of_assignPlayerId hassign (hconfig ▸ htest)
  have hstart : ∀ u, Server.new config = .ok u → P u := by
    intro u hnew
    obtain ⟨-, rfl⟩ := Server.new_eq_ok.1 hnew
    exact ⟨rfl, rfl, fun ids _ => Nat.zero_le ids.length⟩
  exact (runServer_invariant hstart hstep hrun).2

/-- Distinct ids of a configuration make distinct players. -/
theorem nodup_of_runServer {config : ServerConfig} (hids : config.Distinct) {ops : List (Op F)}
    {s : Server F} {outs : List (Out F)} (hrun : runServer config ops = .ok (s, outs)) :
    s.entitySpawnOrder.Nodup := by
  obtain ⟨horder, hlen⟩ := roster_of_runServer hrun
  have hhas : config.HasIds s.nextPlayerId.toNat :=
    ⟨s.nextPlayerId.toNat_lt, fun ids htest => ⟨hids ids htest, hlen ids htest⟩⟩
  rw [horder]
  exact List.nodup_range.map_on fun i hi j hj hij =>
    hhas.playerAt_inj (List.mem_range.1 hi) (List.mem_range.1 hj) hij

theorem canAccept_of_hasIds {s : Server F} {m : Match F} (h : Refines s m) {n : ℕ}
    (hids : s.config.HasIds n) (hn : m.joined < n) : CanAccept s := by
  have hassign : s.assignPlayerId s.nextPlayerId = .ok (s.config.playerAt m.joined) := by
    rcases htest : s.config.testPlayerIds with _ | ids
    · simp [Server.assignPlayerId, ServerConfig.playerAt, htest, ← h.nextPlayerId]
    · obtain ⟨-, hlen⟩ := hids.2 ids htest
      have hget : ids[m.joined]? = some ids[m.joined] := List.getElem?_eq_getElem (by omega)
      simp [Server.assignPlayerId, ServerConfig.playerAt, htest, h.nextPlayerId, List.getD, hget]
  refine fun _ => ⟨_, hassign, fun hmem => ?_⟩
  rw [h.spawnOrder] at hmem
  obtain ⟨sid, hsid, hplayer⟩ := List.mem_map.1 hmem
  have hsid := (Match.mem_order h.joined_lt_half).1 hsid
  have := hids.playerAt_inj (by omega) hn hplayer
  omega

theorem accepts_cons (op : Op F) (ops : List (Op F)) :
    accepts (op :: ops) = accepts [op] + accepts ops := by
  rw [accepts, ← List.singleton_append, List.countP_append]
  rfl

/-- Only an accept joins a session. -/
theorem Match.joined_of_exec {m m' : Match F} {op : Op F} {o : Out F}
    (h : m.exec op = .ok (m', o)) : m'.joined = m.joined + accepts [op] := by
  cases Match.steps_of_exec h <;> rfl

theorem Match.joined_of_run : ∀ {ops : List (Op F)} {m m' : Match F} {outs : List (Out F)},
    (matchMachine F).run m ops = .ok (m', outs) → m'.joined = m.joined + accepts ops
  | [], m, m', outs, hrun => by
    obtain ⟨rfl, -⟩ : m = m' ∧ [] = outs := by simpa using hrun
    rfl
  | op :: ops, m, m', outs, hrun => by
    obtain ⟨m₁, o, os, hexec, hrest, -⟩ := Machine.run_cons_eq_ok.1 hrun
    rw [joined_of_run hrest, Match.joined_of_exec hexec, accepts_cons op ops, Nat.add_assoc]

/-- With ids to spare, the server and the match run alike. -/
theorem run_refines_of_hasIds {ops : List (Op F)} {s : Server F} {m : Match F} (h : Refines s m)
    (hids : s.config.HasIds (m.joined + accepts ops)) :
    Machine.ResultRel Refines (fun os os' => os = os'.map (Out.named s.config))
      ((serverMachine F).run s ops) ((matchMachine F).run m ops) := by
  refine run_refines_alike (A := fun ops m => s.config.HasIds (m.joined + accepts ops))
    (fun u m ops hids hconfig h => ?_) (fun m op ops m' o hids hexec => ?_) rfl h hids
  · refine canAccept_of_hasIds h (hconfig ▸ hids) ?_
    rw [accepts_cons]
    change m.joined < m.joined + (1 + accepts ops)
    omega
  · rwa [Match.joined_of_exec hexec, Nat.add_assoc, ← accepts_cons]

end Flowstate
