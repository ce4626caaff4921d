import Flowstate.Binding

/-!
# The order of the maps

A `HashMap` of the source iterates in an order that is random in every process, where the
model's `HashMap` keeps its entries in one. Nothing depends on it. Two servers whose maps hold
the same entries in whatever order (`Server.Reordered`) answer every operation alike, and so do
two loops. Hence the entries of every map may be put in another order whenever something is
about to happen : each run ends as the model's does, with the same broadcasts, the same
messages to each peer, the same panics and the same artifact (`reordered`).
-/

set_option linter.unusedSectionVars false

open Rust

namespace Flowstate

variable {F : Type} [F64 F]

/-! ## The input buffer -/

/-- The same buffer, but for the order of its entries. -/
structure InputBuffer.Reordered (b b' : InputBuffer F) : Prop where
  config : b.config = b'.config
  perTickLimit : b.perTickLimit = b'.perTickLimit
  buffer : b.buffer.Same b'.buffer

namespace InputBuffer.Reordered

variable {b b' : InputBuffer F}

theorem trans {b'' : InputBuffer F} (h : b.Reordered b') (h' : b'.Reordered b'') :
    b.Reordered b'' :=
  ⟨h.config.trans h'.config, h.perTickLimit.trans h'.perTickLimit, h.buffer.trans h'.buffer⟩

theorem tryBuffer (h : b.Reordered b') (p : PlayerId) (input : InputCmdProto F) :
    (b.tryBuffer p input).1.Reordered (b'.tryBuffer p input).1 ∧
      (b.tryBuffer p input).2 = (b'.tryBuffer p input).2 := by
  obtain ⟨hconfig, hlimit⟩ := b.tryBuffer_frame p input
  obtain ⟨hconfig', hlimit'⟩ := b'.tryBuffer_frame p input
  refine ⟨⟨?_, ?_, fun key => ?_⟩, ?_⟩
  · rw [hconfig, hconfig', h.config]
  · rw [hlimit, hlimit', h.perTickLimit]
  · rw [lookup_tryBuffer, lookup_tryBuffer, h.perTickLimit, h.buffer (p, input.tick), h.buffer key]
  · rw [tryBuffer_result, tryBuffer_result, h.perTickLimit, h.buffer (p, input.tick)]

theorem takeInput (h : b.Reordered b') (p : PlayerId) (tick : Tick) :
    (b.takeInput p tick).1.Reordered (b'.takeInput p tick).1 := by
  rw [takeInput_eq, takeInput_eq]
  exact ⟨h.config, h.perTickLimit, h.buffer.erase _⟩

theorem evictBefore (h : b.Reordered b') (tick : Tick) :
    (b.evictBefore tick).Reordered (b'.evictBefore tick) :=
  ⟨h.config, h.perTickLimit, h.buffer.retain _⟩

/-- The inputs of a tick are the same, and leave the same behind. -/
theorem produceInputs (tick : Tick) : ∀ (players : List PlayerId) {b b' : InputBuffer F}
    {lki lki' : HashMap PlayerId (F × F)}, b.Reordered b' → lki.Same lki' →
    (Server.produceInputs tick players b lki).1.Reordered
        (Server.produceInputs tick players b' lki').1 ∧
      (Server.produceInputs tick players b lki).2.1.Same
        (Server.produceInputs tick players b' lki').2.1 ∧
      (Server.produceInputs tick players b lki).2.2 =
        (Server.produceInputs tick players b' lki').2.2
  | [], _, _, _, _, h, hlki => ⟨h, hlki, rfl⟩
  | p :: players, b, b', lki, lki', h, hlki => by
    have hchoice : Server.choiceFor tick b lki p = Server.choiceFor tick b' lki' p := by
      rw [Server.choiceFor, Server.choiceFor, h.buffer (p, tick), hlki p]
    simp only [Server.produceInputs, Server.produceInput_eq, hchoice]
    obtain ⟨hb, hlki, happlied⟩ := produceInputs tick players (h.takeInput p tick)
      (hlki.insert p (Server.choiceFor tick b' lki' p).1)
    exact ⟨hb, hlki, congrArg _ happlied⟩

end InputBuffer.Reordered

/-! ## The maps of a server -/

/-- The hash maps of a server. -/
structure Maps (F : Type) where
  sessions : HashMap SessionId Session
  playerSessions : HashMap PlayerId SessionId
  sessionPlayers : HashMap SessionId PlayerId
  inputBuffer : InputBuffer F
  lastKnownIntent : HashMap PlayerId (F × F)
  lastEmittedFloor : HashMap SessionId Tick
  playerEntityMapping : HashMap PlayerId EntityId

/-- The same entries in every map. -/
structure Maps.Same (m m' : Maps F) : Prop where
  sessions : m.sessions.Same m'.sessions
  playerSessions : m.playerSessions.Same m'.playerSessions
  sessionPlayers : m.sessionPlayers.Same m'.sessionPlayers
  inputBuffer : m.inputBuffer.Reordered m'.inputBuffer
  lastKnownIntent : m.lastKnownIntent.Same m'.lastKnownIntent
  lastEmittedFloor : m.lastEmittedFloor.Same m'.lastEmittedFloor
  playerEntityMapping : m.playerEntityMapping.Same m'.playerEntityMapping

theorem Maps.Same.trans {m m' m'' : Maps F} (h : m.Same m') (h' : m'.Same m'') : m.Same m'' where
  sessions := h.sessions.trans h'.sessions
  playerSessions := h.playerSessions.trans h'.playerSessions
  sessionPlayers := h.sessionPlayers.trans h'.sessionPlayers
  inputBuffer := h.inputBuffer.trans h'.inputBuffer
  lastKnownIntent := h.lastKnownIntent.trans h'.lastKnownIntent
  lastEmittedFloor := h.lastEmittedFloor.trans h'.lastEmittedFloor
  playerEntityMapping := h.playerEntityMapping.trans h'.playerEntityMapping

namespace Server

def maps (s : Server F) : Maps F :=
  ⟨s.sessions, s.playerSessions, s.sessionPlayers, s.inputBuffer, s.lastKnownIntent,
    s.lastEmittedFloor, s.playerEntityMapping⟩

def withMaps (s : Server F) (m : Maps F) : Server F :=
  { s with
    sessions := m.sessions
    playerSessions := m.playerSessions
    sessionPlayers := m.sessionPlayers
    inputBuffer := m.inputBuffer
    lastKnownIntent := m.lastKnownIntent
    lastEmittedFloor := m.lastEmittedFloor
    playerEntityMapping := m.playerEntityMapping }

/-- The same server, but for the order of the entries of its maps. -/
def Reordered (s t : Server F) : Prop := s.maps.Same t.maps ∧ t = s.withMaps t.maps

namespace Reordered

variable {s t : Server F}

theorem exists_maps (h : s.Reordered t) : ∃ m, s.maps.Same m ∧ t = s.withMaps m := ⟨t.maps, h⟩

theorem trans {u : Server F} (h : s.Reordered t) (h' : t.Reordered u) : s.Reordered u := by
  obtain ⟨m, hm, rfl⟩ := h.exists_maps
  obtain ⟨m', hm', rfl⟩ := h'.exists_maps
  exact ⟨hm.trans hm', rfl⟩

theorem sessionCount_eq (h : s.Reordered t) : t.sessionCount = s.sessionCount := by
  obtain ⟨m, hm, rfl⟩ := h.exists_maps
  exact hm.sessions.keys_perm.length_eq.symm

/-- What the replay of the match is made of. -/
theorem finalize_eq (h : s.Reordered t) (reason : EndReason) :
    t.finalize reason = s.finalize reason := by
  obtain ⟨m, -, rfl⟩ := h.exists_maps
  rfl

theorem acceptSession (h : s.Reordered t) :
    Machine.ResultRel Reordered Eq s.acceptSession t.acceptSession := by
  have hcount := h.sessionCount_eq
  obtain ⟨m, hm, rfl⟩ := h.exists_maps
  have hassign : ∀ ordinal, (s.withMaps m).assignPlayerId ordinal = s.assignPlayerId ordinal :=
    fun _ => rfl
  by_cases hcap : s.config.maxSessions ≤ s.sessionCount
  · have hcap' : (s.withMaps m).config.maxSessions ≤ (s.withMaps m).sessionCount :=
      hcount.symm ▸ hcap
    simp only [Server.acceptSession, hcap, hcap', if_true]
    exact Machine.resultRel_error rfl rfl
  · have hcap' : ¬(s.withMaps m).config.maxSessions ≤ (s.withMaps m).sessionCount :=
      hcount.symm ▸ hcap
    simp only [Server.acceptSession, hcap, hcap', if_false, hassign]
    simp only [withMaps]
    rcases addU64 s.nextSessionId 1 with e | nextSid
    · exact Machine.resultRel_error rfl rfl
    · rcases addU8 s.nextPlayerId 1 with e | nextPid
      · exact Machine.resultRel_error rfl rfl
      · rcases hp : s.assignPlayerId s.nextPlayerId with e | p
        · exact Machine.resultRel_error rfl rfl
        · rcases hspawn : s.world.spawnCharacter p with e | ⟨world, e⟩
          · simp only [bind, Except.bind, hspawn]
            exact Machine.resultRel_error rfl rfl
          · simp only [bind, Except.bind, pure, Except.pure, hspawn]
            exact Machine.resultRel_ok rfl rfl ⟨⟨hm.sessions.insert _ _,
              hm.playerSessions.insert _ _, hm.sessionPlayers.insert _ _, hm.inputBuffer,
              hm.lastKnownIntent.insert _ _, hm.lastEmittedFloor,
              hm.playerEntityMapping.insert _ _⟩, rfl⟩ rfl

theorem welcomeFor (h : s.Reordered t) (sid : SessionId) :
    Machine.ResultRel Reordered Eq (s.welcomeFor sid) (t.welcomeFor sid) := by
  obtain ⟨m, hm, rfl⟩ := h.exists_maps
  have hlookup : (s.withMaps m).sessions.lookup sid = s.sessions.lookup sid :=
    (hm.sessions sid).symm
  rw [Server.welcomeFor, Server.welcomeFor, hlookup]
  rcases s.sessions.lookup sid with - | session
  · exact Machine.resultRel_error rfl rfl
  · simp only [withMaps]
    rcases addU64 s.world.tick s.config.inputLeadTicks with e | floor
    · exact Machine.resultRel_error rfl rfl
    · exact Machine.resultRel_ok rfl rfl
        ⟨⟨hm.sessions, hm.playerSessions, hm.sessionPlayers, hm.inputBuffer, hm.lastKnownIntent,
          hm.lastEmittedFloor.insert _ _, hm.playerEntityMapping⟩, rfl⟩ rfl

theorem disconnectSession (h : s.Reordered t) (sid : SessionId) :
    (s.disconnectSession sid).Reordered (t.disconnectSession sid) := by
  have hreordered := h
  obtain ⟨m, hm, rfl⟩ := h.exists_maps
  have hlookup : (s.withMaps m).sessions.lookup sid = s.sessions.lookup sid :=
    (hm.sessions sid).symm
  rw [Server.disconnectSession, Server.disconnectSession, hlookup]
  rcases s.sessions.lookup sid with - | session
  · exact hreordered
  · exact ⟨⟨hm.sessions.erase _, hm.playerSessions.erase _, hm.sessionPlayers.erase _,
      hm.inputBuffer, hm.lastKnownIntent.insert _ _, hm.lastEmittedFloor.erase _,
      hm.playerEntityMapping⟩, rfl⟩

theorem receiveInput (h : s.Reordered t) (sid : SessionId) (input : InputCmdProto F) :
    Machine.ResultRel Reordered Eq (s.receiveInput sid input) (t.receiveInput sid input) := by
  have hreordered := h
  obtain ⟨m, hm, rfl⟩ := h.exists_maps
  have hplayer : (s.withMaps m).sessionPlayers.lookup sid = s.sessionPlayers.lookup sid :=
    (hm.sessionPlayers sid).symm
  have hfloor : (s.withMaps m).lastEmittedFloor.lookup sid = s.lastEmittedFloor.lookup sid :=
    (hm.lastEmittedFloor sid).symm
  rw [receiveInput_eq, receiveInput_eq, hplayer, hfloor]
  rcases s.sessionPlayers.lookup sid with - | p
  · exact Machine.resultRel_ok rfl rfl hreordered rfl
  · have hconfig : (s.withMaps m).inputBuffer.config = s.inputBuffer.config :=
      hm.inputBuffer.config.symm
    have hworld : (s.withMaps m).world = s.world := rfl
    simp only [hconfig, hworld]
    rcases screen s.inputBuffer.config.maxFutureTicks s.world.tick
      ((s.lastEmittedFloor.lookup sid).getD 0) input with e | - | result
    · exact Machine.resultRel_error rfl rfl
    · obtain ⟨hbuffer, hresult⟩ := hm.inputBuffer.tryBuffer p input
      have hverdict := congrArg BufferResult.verdict hresult
      exact Machine.resultRel_ok rfl rfl ⟨⟨hm.sessions, hm.playerSessions, hm.sessionPlayers,
        hbuffer, hm.lastKnownIntent, hm.lastEmittedFloor, hm.playerEntityMapping⟩, rfl⟩ hverdict
    · exact Machine.resultRel_ok rfl rfl hreordered rfl

theorem step (h : s.Reordered t) : Machine.ResultRel Reordered Eq s.step t.step := by
  obtain ⟨m, hm, rfl⟩ := h.exists_maps
  obtain ⟨hleft, hlki, happlied⟩ :=
    hm.inputBuffer.produceInputs s.world.tick s.entitySpawnOrder hm.lastKnownIntent
  have happlied : (s.withMaps m).produced.2.2 = s.produced.2.2 := happlied.symm
  have hworld : ∀ next, (s.withMaps m).steppedWorld next = s.steppedWorld next := by
    intro next
    rw [steppedWorld, stepInputs, appliedInputs, happlied]
    rfl
  have hstepped : ∀ world floor, (s.stepped world floor).Reordered
      ((s.withMaps m).stepped world floor) := by
    intro world floor
    refine ⟨⟨hm.sessions, hm.playerSessions, hm.sessionPlayers, hleft.evictBefore world.tick,
      hlki, hm.lastEmittedFloor.insertAll hm.sessions.keys_perm floor,
      hm.playerEntityMapping⟩, ?_⟩
    rw [stepped, happlied]
    rfl
  have hconfig : (s.withMaps m).config = s.config := rfl
  have hsworld : (s.withMaps m).world = s.world := rfl
  rw [step_eq, step_eq, hconfig, hsworld]
  simp only [hworld]
  rcases addU64 s.world.tick 1 with e | next
  · exact Machine.resultRel_error rfl rfl
  · simp only [bind, Except.bind]
    rcases addU64 next s.config.inputLeadTicks with e | floor
    · exact Machine.resultRel_error rfl rfl
    · exact Machine.resultRel_ok rfl rfl (hstepped _ _) rfl

/-- Servers that differ in the order of their maps answer every operation alike. -/
theorem exec (h : s.Reordered t) (op : Op F) :
    Machine.ResultRel Reordered Eq (s.exec op) (t.exec op) := by
  cases op with
  | acceptSession =>
    refine h.acceptSession.bind fun _ o _ _ hst ho => ?_
    subst ho
    exact ⟨hst, rfl⟩
  | welcomeFor sid =>
    refine (h.welcomeFor sid).bind fun _ _ _ _ hst ho => ?_
    subst ho
    exact ⟨hst, rfl⟩
  | receiveInput sid input =>
    refine (h.receiveInput sid input).bind fun _ _ _ _ hst ho => ?_
    subst ho
    exact ⟨hst, rfl⟩
  | disconnectSession sid => exact ⟨h.disconnectSession sid, rfl⟩
  | step =>
    refine h.step.bind fun _ _ _ _ hst ho => ?_
    subst ho
    exact ⟨hst, rfl⟩

end Reordered

end Server

/-! ## The loop -/

theorem resultRel_liftLoop {S T Out Out' : Type} {R : S → T → Prop}
    {Q : Out → Out' → Prop} {x : Except Panic (S × Out)} {y : Except Panic (T × Out')}
    (h : Machine.ResultRel R Q x y) : Machine.ResultRel R Q (liftLoop x) (liftLoop y) := by
  rcases x with e | x <;> rcases y with e' | y
  · exact congrArg LoopError.panic h
  · exact h.elim
  · exact h.elim
  · exact h

/-- The same loop, but for the order of the entries of its maps and of its server's. -/
structure TickLoop.Reordered (l l' : TickLoop F) : Prop where
  server : l.server.Reordered l'.server
  peerSessions : l.peerSessions.Same l'.peerSessions
  phase : l.phase = l'.phase
  consecutiveErrors : l.consecutiveErrors = l'.consecutiveErrors

namespace TickLoop.Reordered

variable {l l' : TickLoop F}

theorem trans {l'' : TickLoop F} (h : l.Reordered l') (h' : l'.Reordered l'') :
    l.Reordered l'' :=
  ⟨h.server.trans h'.server, h.peerSessions.trans h'.peerSessions, h.phase.trans h'.phase,
    h.consecutiveErrors.trans h'.consecutiveErrors⟩

theorem nextTick (h : l.Reordered l') {s t : Server F} (hserver : s.Reordered t) :
    (l.nextTick s).Reordered (l'.nextTick t) := by
  refine ⟨hserver, h.peerSessions, ?_, rfl⟩
  obtain ⟨m, -, rfl⟩ := hserver.exists_maps
  rfl

theorem acceptAndWelcome (h : l.Reordered l') (peer : PeerId) :
    Machine.ResultRel Reordered Eq (l.acceptAndWelcome peer) (l'.acceptAndWelcome peer) := by
  refine h.server.acceptSession.bind fun _ o _ _ haccepted ho => ?_
  subst ho
  refine (haccepted.welcomeFor o.1).bind fun s _ t _ hwelcomed ho => ?_
  subst ho
  have hbaseline : t.baselineProto = s.baselineProto := by
    obtain ⟨m, -, rfl⟩ := hwelcomed.exists_maps
    rfl
  refine ⟨⟨hwelcomed, h.peerSessions.insert peer o.1, h.phase, h.consecutiveErrors⟩, ?_⟩
  rw [hbaseline]

theorem waitForFirst (h : l.Reordered l') (d : Decoder F) (e : Event) :
    Machine.ResultRel Reordered Eq (l.waitForFirst d e) (l'.waitForFirst d e) := by
  cases e with
  | receive peer channelId packet =>
    simp only [TickLoop.waitForFirst, h.peerSessions.mem_iff peer]
    split_ifs
    · exact h.acceptAndWelcome peer
    · exact ⟨h, rfl⟩
  | connect peer | disconnect peer => exact ⟨h, rfl⟩

theorem handle (h : l.Reordered l') (d : Decoder F) (e : Event) :
    Machine.ResultRel Reordered Eq (l.handle d e) (l'.handle d e) := by
  cases e with
  | receive peer channelId packet =>
    simp only [TickLoop.handle, h.peerSessions.mem_iff peer, h.peerSessions peer]
    split_ifs
    · exact h.acceptAndWelcome peer
    · rcases l'.peerSessions.lookup peer with - | sid
      · exact ⟨h, rfl⟩
      · rcases d.inputCmd packet with - | input
        · exact ⟨h, rfl⟩
        · refine (h.server.receiveInput sid input).bind fun _ _ _ _ hserver ho => ?_
          subst ho
          exact ⟨⟨hserver, h.peerSessions, h.phase, h.consecutiveErrors⟩, rfl⟩
    · exact ⟨h, rfl⟩
  | disconnect peer =>
    rw [TickLoop.handle, TickLoop.handle, h.peerSessions peer]
    rcases l'.peerSessions.lookup peer with - | sid
    · exact ⟨h, rfl⟩
    · exact ⟨⟨h.server.disconnectSession sid, h.peerSessions.erase peer, h.phase,
        h.consecutiveErrors⟩, rfl⟩
  | connect peer => exact ⟨h, rfl⟩

theorem drained (h : l.Reordered l') (late : Bool) :
    Machine.ResultRel Reordered Eq (l.drained late) (l'.drained late) := by
  rw [TickLoop.drained, TickLoop.drained, ← h.phase]
  rcases l.phase with - | - | reason | -
  · simp only [h.server.sessionCount_eq]
    by_cases hnone : l.server.sessionCount < 1
    · simp only [hnone, if_true]
      exact ⟨⟨h.server, h.peerSessions, rfl, rfl⟩, rfl⟩
    · simp only [hnone, if_false]
      exact ⟨h.nextTick h.server, rfl⟩
  · refine (resultRel_liftLoop h.server.step).bind fun _ _ _ _ hserver ho => ?_
    subst ho
    exact ⟨h.nextTick hserver, rfl⟩
  · exact Machine.resultRel_error rfl rfl
  · exact Machine.resultRel_error rfl rfl

theorem exec (h : l.Reordered l') (d : Decoder F) (x : Service) :
    Machine.ResultRel Reordered Eq (l.exec d x) (l'.exec d x) := by
  cases x with
  | event e =>
    rw [TickLoop.exec, TickLoop.exec, ← h.phase]
    rcases l.phase with - | - | reason | -
    · exact resultRel_liftLoop (h.waitForFirst d e)
    · exact resultRel_liftLoop (h.handle d e)
    · exact Machine.resultRel_error rfl rfl
    · exact Machine.resultRel_error rfl rfl
  | idle late => exact h.drained late
  | error late =>
    rw [TickLoop.exec, TickLoop.exec]
    simp only [← h.consecutiveErrors]
    split_ifs
    · exact h.drained late
    · exact ⟨⟨h.server, h.peerSessions, h.phase, rfl⟩, rfl⟩

end TickLoop.Reordered

/-- The same edge, but for the order of the entries of the loop's maps and of its server's. -/
def Edge.Reordered (s t : Edge F) : Prop := s.host = t.host ∧ s.loop.Reordered t.loop

namespace Edge.Reordered

theorem refl (s : Edge F) : s.Reordered s :=
  ⟨rfl, ⟨⟨⟨fun _ => rfl, fun _ => rfl, fun _ => rfl, ⟨rfl, rfl, fun _ => rfl⟩, fun _ => rfl,
    fun _ => rfl, fun _ => rfl⟩, rfl⟩, fun _ => rfl, rfl, rfl⟩⟩

theorem trans (s t u : Edge F) (h : s.Reordered t) (h' : t.Reordered u) : s.Reordered u :=
  ⟨h.1.trans h'.1, h.2.trans h'.2⟩

theorem exec (d : Decoder F) (s t : Edge F) (x : Service) (h : s.Reordered t) :
    Machine.ResultRel Reordered Eq (s.exec d x) (t.exec d x) := by
  have hloop := h.2.exec d x
  cases x with
  | event e =>
    rw [Edge.exec, Edge.exec, ← h.1]
    rcases s.host.yields d e with - | host
    · exact Machine.resultRel_error rfl rfl
    · refine hloop.bind fun _ _ _ _ hl ho => ?_
      subst ho
      exact ⟨⟨rfl, hl⟩, rfl⟩
  | idle late | error late =>
    refine hloop.bind fun _ _ _ _ hl ho => ?_
    subst ho
    exact ⟨⟨h.1, hl⟩, rfl⟩

end Edge.Reordered

/-- Put the entries of every map in another order whenever something is about to happen : the
run ends as it would have, with the same outputs, in the same phase and with the same
artifact. -/
theorem reordered {d : Decoder F} {config : ServerConfig} {s : Edge F}
    (hnew : Edge.new config = .ok s) {xs : List Service}
    {r : Except LoopError (Edge F × List (LoopOut F))}
    (h : (edgeMachine d).Drifts Edge.Reordered s xs r) :
    Machine.ResultRel (fun u v : Edge F => u.loop.phase = v.loop.phase ∧
      ∀ reason, u.loop.server.finalize reason = v.loop.server.finalize reason) Eq
      (runEdge d config xs) r := by
  have hrun := Machine.run_of_drifts Edge.Reordered.trans (Edge.Reordered.exec d) h
    (Edge.Reordered.refl s)
  have hedge : runEdge d config xs = (edgeMachine d).run s xs := by
    rw [runEdge, hnew]
    rfl
  rw [hedge]
  exact hrun.imp (fun u v huv => ⟨huv.2.phase, fun reason => (huv.2.server.finalize_eq reason).symm⟩)
    fun _ _ ho => ho

/-- Two peers join, and then the sessions are listed the other way round. -/
theorem reordered_of_two : ∃ (s t u : Edge ℚ) (outs : List (LoopOut ℚ)),
    Edge.new {} = .ok s ∧
    (edgeMachine oneCommand).run s [.event (.connect 0), .event (.receive 0 channelControl []),
      .event (.connect 1), .event (.receive 1 channelControl []), .idle false] = .ok (t, outs) ∧
    t.loop.server.sessions.keys = [2, 1] ∧ t.Reordered u ∧
    u.loop.server.sessions.keys = [1, 2] ∧
    Machine.ResultRel (fun u v : Edge ℚ => u.loop.phase = v.loop.phase ∧
      ∀ reason, u.loop.server.finalize reason = v.loop.server.finalize reason) Eq
      (runEdge oneCommand {} ([.event (.connect 0), .event (.receive 0 channelControl []),
        .event (.connect 1), .event (.receive 1 channelControl []), .idle false] ++ [.idle false]))
      (((edgeMachine oneCommand).run u [.idle false]).map fun x => (x.1, outs ++ x.2)) := by
  have h : (runEdge oneCommand {} [.event (.connect 0), .event (.receive 0 channelControl []),
      .event (.connect 1), .event (.receive 1 channelControl []), .idle false]).map
      (fun x => x.1.loop.server.sessions.keys) = .ok [2, 1] := by
    decide +kernel
  obtain ⟨⟨t, outs⟩, ht, hkeys⟩ := map_eq_ok.1 h
  obtain ⟨s, hs, hrun⟩ := bind_eq_ok.1 ht
  have hnew : Edge.new {} = .ok s := liftLoop_eq_ok.1 hs
  let m : Maps ℚ := { t.loop.server.maps with sessions := t.loop.server.sessions.reverse }
  let u : Edge ℚ := ⟨t.host, { t.loop with server := t.loop.server.withMaps m }⟩
  have hu : t.Reordered u := by
    obtain ⟨-, ⟨hmaps, -⟩, hpeers, -, -⟩ := Edge.Reordered.refl t
    exact ⟨rfl, ⟨{ hmaps with sessions := HashMap.same_reverse _ }, rfl⟩, hpeers, rfl, rfl⟩
  have hdrifts := Machine.Drifts.of_run Edge.Reordered.refl Edge.Reordered.trans
    (Machine.drifts_run (M := edgeMachine oneCommand) Edge.Reordered.refl [.idle false] u) hrun hu
  refine ⟨s, t, u, outs, hnew, hrun, hkeys, hu, ?_, reordered hnew hdrifts⟩
  have hreverse : u.loop.server.sessions.keys = t.loop.server.sessions.keys.reverse :=
    List.map_reverse
  rw [hreverse, hkeys]
  rfl

end Flowstate
