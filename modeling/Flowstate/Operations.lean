import Flowstate.Server

/-!
# What one operation does

One lemma per operation of the server. `acceptSession_eq_ok`, `welcomeFor_eq_ok` and
`step_eq_ok` say when an operation completes and in which state, `receiveInput_eq` is the
screen before the buffer, and `produceInputs` is described slot by slot : it empties the
current tick's slots of the listed players (`lookup_produceInputs`), and with distinct
players it applies `chooseInput` to each of them on its own (`produceInputs_of_nodup`).
-/

set_option linter.unusedSectionVars false

open Rust

namespace Flowstate

variable {F : Type} [F64 F]

/-- The player id an output assigns, if it is an accept's. -/
def Out.assigned : Out F → List PlayerId
  | .accepted _ p _ => [p]
  | _ => []

/-! ## Applied inputs -/

/-- The direction applied for a player, from its slot and its intent, and whether it is the
fallback. -/
def chooseInput (slot : Option (BufferEntry F)) (intent : F × F) : (F × F) × Bool :=
  match BufferEntry.taken slot with
  | some cmd => (Server.commandMoveDir cmd, false)
  | none => (intent, true)

namespace Server

/-- `chooseInput` for a player at tick `t`. -/
def choiceFor (t : Tick) (b : InputBuffer F) (lki : HashMap PlayerId (F × F)) (p : PlayerId) :
    (F × F) × Bool :=
  chooseInput (b.buffer.lookup (p, t)) ((lki.lookup p).getD (F64.lit 0, F64.lit 0))

theorem produceInput_eq (t : Tick) (p : PlayerId) (b : InputBuffer F)
    (lki : HashMap PlayerId (F × F)) :
    produceInput t p b lki = ((b.takeInput p t).1, lki.insert p (choiceFor t b lki p).1,
      ⟨t, p, (choiceFor t b lki p).1, (choiceFor t b lki p).2⟩) := by
  unfold produceInput choiceFor chooseInput
  rcases htaken : BufferEntry.taken (b.buffer.lookup (p, t)) with _ | cmd <;>
    simp only [InputBuffer.takeInput_eq, htaken]

/-- The current tick's slots of the listed players are emptied, all others kept. -/
theorem lookup_produceInputs (t : Tick) : ∀ (players : List PlayerId) (b : InputBuffer F)
    (lki : HashMap PlayerId (F × F)) (key : PlayerId × Tick),
    (produceInputs t players b lki).1.buffer.lookup key =
      if key.1 ∈ players ∧ key.2 = t then none else b.buffer.lookup key
  | [], b, lki, key => by simp [produceInputs]
  | p :: players, b, lki, key => by
    simp only [produceInputs, produceInput_eq, lookup_produceInputs t players,
      InputBuffer.lookup_takeInput, List.mem_cons, Prod.ext_iff]
    by_cases h : key.1 ∈ players ∧ key.2 = t
    · simp [h]
    · by_cases hp : key.1 = p ∧ key.2 = t
      · simp [hp]
      · rw [if_neg h, if_neg hp, if_neg]
        rintro ⟨hmem | hmem, ht⟩
        · exact hp ⟨hmem, ht⟩
        · exact h ⟨hmem, ht⟩

theorem produceInputs_frame (t : Tick) : ∀ (players : List PlayerId) (b : InputBuffer F)
    (lki : HashMap PlayerId (F × F)),
    (produceInputs t players b lki).1.config = b.config ∧
      (produceInputs t players b lki).1.perTickLimit = b.perTickLimit
  | [], b, lki => ⟨rfl, rfl⟩
  | p :: players, b, lki => by
    have ih := produceInputs_frame t players (b.takeInput p t).1
      (lki.insert p (choiceFor t b lki p).1)
    simpa only [produceInputs, produceInput_eq, InputBuffer.takeInput_eq] using ih

/-- One applied input per listed player, in order. -/
theorem playerId_produceInputs (t : Tick) : ∀ (players : List PlayerId) (b : InputBuffer F)
    (lki : HashMap PlayerId (F × F)),
    (produceInputs t players b lki).2.2.map AppliedInput.playerId = players
  | [], b, lki => rfl
  | p :: players, b, lki => by
    simp only [produceInputs, produceInput_eq, List.map_cons, playerId_produceInputs t players]

theorem tick_of_mem_produceInputs (t : Tick) : ∀ (players : List PlayerId) (b : InputBuffer F)
    (lki : HashMap PlayerId (F × F)), ∀ a ∈ (produceInputs t players b lki).2.2, a.tick = t
  | [], b, lki, a, h => by simp [produceInputs] at h
  | p :: players, b, lki, a, h => by
    simp only [produceInputs, produceInput_eq, List.mem_cons] at h
    rcases h with rfl | h
    · rfl
    · exact tick_of_mem_produceInputs t players _ _ a h

/-- The applied inputs and intents read the buffer through what its slots yield at the
current tick only. -/
theorem produceInputs_congr (t : Tick) : ∀ (players : List PlayerId) {b b' : InputBuffer F}
    (lki : HashMap PlayerId (F × F)),
    (∀ p, BufferEntry.taken (b.buffer.lookup (p, t)) =
      BufferEntry.taken (b'.buffer.lookup (p, t))) →
    (produceInputs t players b lki).2 = (produceInputs t players b' lki).2
  | [], b, b', lki, _ => rfl
  | p :: players, b, b', lki, h => by
    have hchoice : choiceFor t b lki p = choiceFor t b' lki p := by
      unfold choiceFor chooseInput
      rw [h p]
    have hrest : ∀ q, BufferEntry.taken ((b.takeInput p t).1.buffer.lookup (q, t)) =
        BufferEntry.taken ((b'.takeInput p t).1.buffer.lookup (q, t)) := by
      intro q
      rw [InputBuffer.lookup_takeInput, InputBuffer.lookup_takeInput]
      split_ifs
      · rfl
      · exact h q
    have ih := produceInputs_congr t players (lki.insert p (choiceFor t b' lki p).1) hrest
    obtain ⟨hlki, happlied⟩ := Prod.ext_iff.1 ih
    simp only [produceInputs, produceInput_eq, hchoice, hlki, happlied]

/-- With distinct players, each is applied what its own slot and intent give, and that
becomes its intent. -/
theorem produceInputs_of_nodup (t : Tick) : ∀ {players : List PlayerId}, players.Nodup →
    ∀ (b : InputBuffer F) (lki : HashMap PlayerId (F × F)),
    (produceInputs t players b lki).2.2 =
        players.map (fun p => ⟨t, p, (choiceFor t b lki p).1, (choiceFor t b lki p).2⟩) ∧
      ∀ q, (produceInputs t players b lki).2.1.lookup q =
        if q ∈ players then some (choiceFor t b lki q).1 else lki.lookup q
  | [], _, b, lki => by simp [produceInputs]
  | p :: players, hnodup, b, lki => by
    obtain ⟨hp, hnodup⟩ := List.nodup_cons.1 hnodup
    obtain ⟨hlist, hlki⟩ := produceInputs_of_nodup t hnodup (b.takeInput p t).1
      (lki.insert p (choiceFor t b lki p).1)
    -- Taking `p`'s input leaves the choice of every other player.
    have hother : ∀ q, q ≠ p → choiceFor t (b.takeInput p t).1
        (lki.insert p (choiceFor t b lki p).1) q = choiceFor t b lki q := by
      intro q hq
      simp [choiceFor, InputBuffer.lookup_takeInput, hq, AList.lookup_insert_ne hq]
    simp only [produceInputs, produceInput_eq, hlist, hlki, List.map_cons, List.cons.injEq,
      true_and]
    refine ⟨List.map_congr_left fun q hq => ?_, fun q => ?_⟩
    · rw [hother q (ne_of_mem_of_not_mem hq hp)]
    · by_cases hqp : q = p
      · subst hqp
        simp [hp]
      · simp [hqp, hother q hqp, AList.lookup_insert_ne hqp]

/-! ## Operations -/

theorem assignPlayerId_of_none {s : Server F} {ordinal : PlayerId}
    (h : s.config.testPlayerIds = none) : s.assignPlayerId ordinal = .ok ordinal := by
  simp [assignPlayerId, h]

end Server

theorem World.spawnCharacter_eq_ok {w w' : World F} {p : PlayerId} {e : EntityId} :
    w.spawnCharacter p = .ok (w', e) ↔ e = w.nextEntityId ∧ ∃ next : EntityId,
      next.toNat = w.nextEntityId.toNat + 1 ∧
      w' = { w with
        nextEntityId := next
        characters := sortByKey (fun c => c.entityId.toNat)
          (w.characters ++ [Character.new w.nextEntityId p]) } := by
  have hone : (1 : UInt64).toNat = 1 := rfl
  simp only [spawnCharacter, bind_eq_ok, addU64_eq_ok, hone, pure, Except.pure, Except.ok.injEq,
    Prod.mk.injEq]
  constructor
  · rintro ⟨next, hnext, rfl, rfl⟩
    exact ⟨rfl, next, hnext, rfl⟩
  · rintro ⟨rfl, next, hnext, rfl⟩
    exact ⟨next, hnext, rfl, rfl⟩

namespace Server

/-- An accept completes below the cap, while the counters, the ids and the entity ids last. -/
theorem acceptSession_eq_ok {s s' : Server F} {sid : SessionId} {p : PlayerId} {e : EntityId} :
    s.acceptSession = .ok (s', sid, p, e) ↔
      s.sessionCount < s.config.maxSessions ∧ sid = s.nextSessionId ∧
      s.assignPlayerId s.nextPlayerId = .ok p ∧
      ∃ nextSid : SessionId, ∃ nextPid : PlayerId, ∃ world,
        nextSid.toNat = s.nextSessionId.toNat + 1 ∧ nextPid.toNat = s.nextPlayerId.toNat + 1 ∧
        s.world.spawnCharacter p = .ok (world, e) ∧
        s' = { s with
          world
          nextSessionId := nextSid
          nextPlayerId := nextPid
          sessions := s.sessions.insert sid (Session.new sid p e)
          playerSessions := s.playerSessions.insert p sid
          sessionPlayers := s.sessionPlayers.insert sid p
          entitySpawnOrder := s.entitySpawnOrder ++ [p]
          playerEntityMapping := s.playerEntityMapping.insert p e
          replayRecorder := s.replayRecorder.recordSpawn p e
          lastKnownIntent := s.lastKnownIntent.insert p (F64.lit 0, F64.lit 0) } := by
  have hone : (1 : UInt64).toNat = 1 := rfl
  have hone' : (1 : UInt8).toNat = 1 := rfl
  unfold acceptSession
  by_cases hcap : s.config.maxSessions ≤ s.sessionCount
  · simp [hcap, Nat.not_lt.2 hcap, bind, Except.bind, throw, throwThe, MonadExceptOf.throw]
  · simp only [hcap, if_false, bind_eq_ok, addU64_eq_ok, addU8_eq_ok, hone, hone', pure,
      Except.pure, Except.ok.injEq, Prod.mk.injEq, Nat.not_le.1 hcap, true_and, Prod.exists]
    constructor
    · rintro ⟨nextSid, hsid, nextPid, hpid, p, hassign, world, e, hspawn, rfl, rfl, rfl, rfl⟩
      exact ⟨rfl, hassign, nextSid, nextPid, world, hsid, hpid, hspawn, rfl⟩
    · rintro ⟨rfl, hassign, nextSid, nextPid, world, hsid, hpid, hspawn, rfl⟩
      exact ⟨nextSid, hsid, nextPid, hpid, p, hassign, world, e, hspawn, rfl, rfl, rfl, rfl⟩

/-- Below the cap, an accept that finds its player id completes while the counters last. -/
theorem exists_accept {s : Server F} (hcap : s.sessionCount < s.config.maxSessions)
    (hsid : s.nextSessionId.toNat + 1 < 2 ^ 64) (hpid : s.nextPlayerId.toNat + 1 < 2 ^ 8)
    (heid : s.world.nextEntityId.toNat + 1 < 2 ^ 64) {p : PlayerId}
    (hassign : s.assignPlayerId s.nextPlayerId = .ok p) :
    ∃ s' sid e, s.acceptSession = .ok (s', sid, p, e) := by
  obtain ⟨nextSid, -, hnextSid⟩ := addU64_of_lt (a := s.nextSessionId) (b := 1) hsid
  obtain ⟨nextEid, -, hnextEid⟩ := addU64_of_lt (a := s.world.nextEntityId) (b := 1) heid
  have hnextPid : (s.nextPlayerId + 1).toNat = s.nextPlayerId.toNat + 1 := by
    rw [UInt8.toNat_add]
    exact Nat.mod_eq_of_lt hpid
  exact ⟨_, _, _, acceptSession_eq_ok.2 ⟨hcap, rfl, hassign, nextSid, _, _, hnextSid, hnextPid,
    World.spawnCharacter_eq_ok.2 ⟨rfl, nextEid, hnextEid, rfl⟩, rfl⟩⟩

/-- The buffer, the intents and the inputs a step produces. -/
def produced (s : Server F) :
    InputBuffer F × HashMap PlayerId (F × F) × List (AppliedInput F) :=
  produceInputs s.world.tick s.entitySpawnOrder s.inputBuffer s.lastKnownIntent

/-- The state a step leaves behind, once the world has advanced to `world`. -/
def stepped (s : Server F) (world : World F) (floor : Tick) : Server F :=
  { s with
    world
    inputBuffer := s.produced.1.evictBefore world.tick
    lastKnownIntent := s.produced.2.1
    lastEmittedFloor := s.lastEmittedFloor.insertAll s.sessions.keys floor
    replayRecorder := s.produced.2.2.foldl ReplayRecorder.recordInput s.recordBaselineOnce
    baselineRecorded := true }

@[simp] theorem stepped_config (s : Server F) (world : World F) (floor : Tick) :
    (s.stepped world floor).config = s.config := rfl

@[simp] theorem stepped_world (s : Server F) (world : World F) (floor : Tick) :
    (s.stepped world floor).world = world := rfl

@[simp] theorem stepped_sessions (s : Server F) (world : World F) (floor : Tick) :
    (s.stepped world floor).sessions = s.sessions := rfl

@[simp] theorem stepped_sessionPlayers (s : Server F) (world : World F) (floor : Tick) :
    (s.stepped world floor).sessionPlayers = s.sessionPlayers := rfl

@[simp] theorem stepped_entitySpawnOrder (s : Server F) (world : World F) (floor : Tick) :
    (s.stepped world floor).entitySpawnOrder = s.entitySpawnOrder := rfl

/-- The inputs a step applies, in the order they are recorded. -/
def appliedInputs (s : Server F) : List (AppliedInput F) := s.produced.2.2

/-- Recording a list of inputs appends it, and changes nothing else. -/
theorem foldl_recordInput (r : ReplayRecorder F) (inputs : List (AppliedInput F)) :
    inputs.foldl ReplayRecorder.recordInput r = { r with inputs := r.inputs ++ inputs } := by
  induction inputs generalizing r with
  | nil => simp
  | cons a inputs ih => simp [ih, ReplayRecorder.recordInput]

theorem recordBaselineOnce_eq (s : Server F) :
    s.recordBaselineOnce = { s.replayRecorder with
      initialBaseline := if s.baselineRecorded then s.replayRecorder.initialBaseline
        else some s.world.baseline } := by
  unfold recordBaselineOnce
  split_ifs <;> rfl

/-- A step records the inputs it applies, and the baseline if there is none yet. -/
theorem stepped_replayRecorder (s : Server F) (world : World F) (floor : Tick) :
    (s.stepped world floor).replayRecorder = { s.replayRecorder with
      initialBaseline := if s.baselineRecorded then s.replayRecorder.initialBaseline
        else some s.world.baseline
      inputs := s.replayRecorder.inputs ++ s.appliedInputs } := by
  change s.appliedInputs.foldl ReplayRecorder.recordInput s.recordBaselineOnce = _
  rw [foldl_recordInput, recordBaselineOnce_eq]

/-- The inputs a step advances the world with. -/
def stepInputs (s : Server F) : List (StepInput F) :=
  sortByKey (fun i => i.playerId.toNat) (s.appliedInputs.map AppliedInput.toStepInput)

/-- The message of a step's snapshot. -/
def snapshotBytes (snapshot : Snapshot F) (floor : Tick) : Protobuf.Bytes :=
  (⟨snapshot.tick, snapshot.entities.map EntitySnapshot.toProto, snapshot.digest, floor⟩ :
    SnapshotProto F).encode

theorem sorted_stepInputs (s : Server F) :
    s.stepInputs.IsChain fun a b => a.playerId ≤ b.playerId := by
  have h := pairwise_sortByKey (fun i : StepInput F => i.playerId.toNat)
    (s.appliedInputs.map AppliedInput.toStepInput)
  exact (h.imp UInt8.le_iff_toNat_le.2).isChain

/-- The world after a step, `t` its new tick. -/
def steppedWorld (s : Server F) (t : Tick) : World F :=
  { s.world with
    tick := t
    characters := (s.stepInputs.foldl World.applyMovement s.world).characters }

@[simp] theorem steppedWorld_tick (s : Server F) (t : Tick) : (s.steppedWorld t).tick = t := rfl

/-- The snapshot of a world. -/
def snapshotOf (world : World F) : Snapshot F :=
  ⟨world.tick, world.sortedEntitySnapshots, world.stateDigest⟩

/-- A step panics where the tick counter or the floor overflows, and nowhere else. -/
theorem step_eq (s : Server F) :
    s.step = addU64 s.world.tick 1 >>= fun t => addU64 t s.config.inputLeadTicks >>= fun floor =>
      .ok (s.stepped (s.steppedWorld t) floor, snapshotOf (s.steppedWorld t), floor,
        snapshotBytes (snapshotOf (s.steppedWorld t)) floor) := by
  have h : s.step = (s.world.advance s.world.tick s.stepInputs >>= fun x =>
      addU64 x.1.tick s.config.inputLeadTicks >>= fun floor =>
        .ok (s.stepped x.1 floor, x.2, floor, snapshotBytes x.2 floor)) := rfl
  rw [h, World.advance_of_isChain s.world s.sorted_stepInputs]
  rcases addU64 s.world.tick 1 with e | t <;> rfl

theorem step_eq_ok {s s' : Server F} {snapshot : Snapshot F} {floor : Tick}
    {bytes : Protobuf.Bytes} :
    s.step = .ok (s', snapshot, floor, bytes) ↔ ∃ t : Tick, t.toNat = s.world.tick.toNat + 1 ∧
      floor.toNat = t.toNat + s.config.inputLeadTicks.toNat ∧
      s' = s.stepped (s.steppedWorld t) floor ∧ snapshot = snapshotOf (s.steppedWorld t) ∧
      bytes = snapshotBytes snapshot floor := by
  have hone : (1 : UInt64).toNat = 1 := rfl
  simp only [step_eq, bind_eq_ok, addU64_eq_ok, hone, Except.ok.injEq, Prod.mk.injEq]
  constructor
  · rintro ⟨t, ht, floor, hfloor, rfl, rfl, rfl, rfl⟩
    exact ⟨t, ht, hfloor, rfl, rfl, rfl⟩
  · rintro ⟨t, ht, hfloor, rfl, rfl, rfl⟩
    exact ⟨t, ht, floor, hfloor, rfl, rfl, rfl, rfl⟩

theorem welcomeFor_eq_ok {s s' : Server F} {sid : SessionId} {welcome : ServerWelcome} :
    s.welcomeFor sid = .ok (s', welcome) ↔ ∃ session, s.sessions.lookup sid = some session ∧
      ∃ floor : Tick, floor.toNat = s.world.tick.toNat + s.config.inputLeadTicks.toNat ∧
        s' = { s with lastEmittedFloor := s.lastEmittedFloor.insert sid floor } ∧
        welcome = ⟨floor, s.config.tickRateHz, session.playerId.toUInt32,
          session.controlledEntityId⟩ := by
  unfold welcomeFor
  rcases s.sessions.lookup sid with _ | session
  · simp
  · simp only [bind_eq_ok, addU64_eq_ok, pure, Except.pure, Except.ok.injEq, Prod.mk.injEq,
      Option.some.injEq, exists_eq_left']
    exact exists_congr fun floor => and_congr_right fun _ =>
      and_congr eq_comm eq_comm

/-- The buffer of a server after a command it did not screen out. -/
theorem receiveInput_eq (s : Server F) (sid : SessionId) (input : InputCmdProto F) :
    s.receiveInput sid input =
      match s.sessionPlayers.lookup sid with
      | none => .ok (s, .droppedUnknownSession)
      | some p =>
        match screen s.inputBuffer.config.maxFutureTicks s.world.tick
            ((s.lastEmittedFloor.lookup sid).getD 0) input with
        | .error e => .error e
        | .ok (some result) => .ok (s, result)
        | .ok none =>
          .ok ({ s with inputBuffer := (s.inputBuffer.tryBuffer p input).1 },
            (s.inputBuffer.tryBuffer p input).2.verdict) := by
  unfold receiveInput
  rcases s.sessionPlayers.lookup sid with _ | p
  · rfl
  · simp only [validateInput_eq]
    rcases screen s.inputBuffer.config.maxFutureTicks s.world.tick
      ((s.lastEmittedFloor.lookup sid).getD 0) input with e | _ | result <;> rfl

/-- A command that is answered leaves the server as it is, or writes its slot. -/
theorem receiveInput_cases {s s' : Server F} {sid : SessionId} {input : InputCmdProto F}
    {result : ValidationResult} (h : s.receiveInput sid input = .ok (s', result)) :
    s' = s ∨ ∃ p, s.sessionPlayers.lookup sid = some p ∧
      screen s.inputBuffer.config.maxFutureTicks s.world.tick
        ((s.lastEmittedFloor.lookup sid).getD 0) input = .ok none ∧
      s' = { s with inputBuffer := (s.inputBuffer.tryBuffer p input).1 } ∧
      result = (s.inputBuffer.tryBuffer p input).2.verdict := by
  rw [receiveInput_eq] at h
  rcases hp : s.sessionPlayers.lookup sid with _ | p
  · simp only [hp, Except.ok.injEq, Prod.mk.injEq] at h
    exact .inl h.1.symm
  · rcases hscreen : screen s.inputBuffer.config.maxFutureTicks s.world.tick
      ((s.lastEmittedFloor.lookup sid).getD 0) input with e | _ | verdict
    · simp [hp, hscreen] at h
    · simp only [hp, hscreen, Except.ok.injEq, Prod.mk.injEq] at h
      exact .inr ⟨p, rfl, rfl, h.1.symm, h.2.symm⟩
    · simp only [hp, hscreen, Except.ok.injEq, Prod.mk.injEq] at h
      exact .inl h.1.symm

/-! ## Execution -/

theorem exec_acceptSession {s s' : Server F} {o : Out F} :
    s.exec .acceptSession = .ok (s', o) ↔
      ∃ sid p e, s.acceptSession = .ok (s', sid, p, e) ∧ o = .accepted sid p e := by
  simp only [exec, bind_eq_ok, pure, Except.pure, Except.ok.injEq, Prod.mk.injEq, Prod.exists]
  constructor
  · rintro ⟨s', sid, p, e, h, rfl, rfl⟩
    exact ⟨sid, p, e, h, rfl⟩
  · rintro ⟨sid, p, e, h, rfl⟩
    exact ⟨s', sid, p, e, h, rfl, rfl⟩

theorem exec_welcomeFor {s s' : Server F} {sid : SessionId} {o : Out F} :
    s.exec (.welcomeFor sid) = .ok (s', o) ↔
      ∃ welcome, s.welcomeFor sid = .ok (s', welcome) ∧ o = .welcomed welcome := by
  simp only [exec, bind_eq_ok, pure, Except.pure, Except.ok.injEq, Prod.mk.injEq, Prod.exists]
  constructor
  · rintro ⟨s', welcome, h, rfl, rfl⟩
    exact ⟨welcome, h, rfl⟩
  · rintro ⟨welcome, h, rfl⟩
    exact ⟨s', welcome, h, rfl, rfl⟩

theorem exec_receiveInput {s s' : Server F} {sid : SessionId} {input : InputCmdProto F}
    {o : Out F} :
    s.exec (.receiveInput sid input) = .ok (s', o) ↔
      ∃ result, s.receiveInput sid input = .ok (s', result) ∧ o = .verdict result := by
  simp only [exec, bind_eq_ok, pure, Except.pure, Except.ok.injEq, Prod.mk.injEq, Prod.exists]
  constructor
  · rintro ⟨s', result, h, rfl, rfl⟩
    exact ⟨result, h, rfl⟩
  · rintro ⟨result, h, rfl⟩
    exact ⟨s', result, h, rfl, rfl⟩

theorem exec_disconnectSession {s s' : Server F} {sid : SessionId} {o : Out F} :
    s.exec (.disconnectSession sid) = .ok (s', o) ↔
      s' = s.disconnectSession sid ∧ o = .disconnected := by
  simp only [exec, pure, Except.pure, Except.ok.injEq, Prod.mk.injEq]
  exact and_congr eq_comm eq_comm

theorem exec_step {s s' : Server F} {o : Out F} :
    s.exec .step = .ok (s', o) ↔ ∃ snapshot floor bytes,
      s.step = .ok (s', snapshot, floor, bytes) ∧ o = .stepped snapshot floor bytes := by
  simp only [exec, bind_eq_ok, pure, Except.pure, Except.ok.injEq, Prod.mk.injEq, Prod.exists]
  constructor
  · rintro ⟨s', snapshot, floor, bytes, h, rfl, rfl⟩
    exact ⟨snapshot, floor, bytes, h, rfl⟩
  · rintro ⟨snapshot, floor, bytes, h, rfl⟩
    exact ⟨s', snapshot, floor, bytes, h, rfl, rfl⟩

/-- No operation changes the configuration, and only an accept adds a player : the one
assigned to the next ordinal, which it uses up. -/
theorem exec_frame {s s' : Server F} {op : Op F} {o : Out F} (h : s.exec op = .ok (s', o)) :
    s'.config = s.config ∧ s'.entitySpawnOrder = s.entitySpawnOrder ++ o.assigned ∧
      (o.assigned = [] ∧ s'.nextPlayerId = s.nextPlayerId ∨
        ∃ p, o.assigned = [p] ∧ s.assignPlayerId s.nextPlayerId = .ok p ∧
          s'.nextPlayerId.toNat = s.nextPlayerId.toNat + 1) := by
  cases op with
  | acceptSession =>
    obtain ⟨sid, p, e, hs, rfl⟩ := exec_acceptSession.1 h
    obtain ⟨-, -, hp, nextSid, nextPid, world, -, hnext, -, rfl⟩ := acceptSession_eq_ok.1 hs
    exact ⟨rfl, rfl, .inr ⟨p, rfl, hp, hnext⟩⟩
  | welcomeFor sid =>
    obtain ⟨welcome, hs, rfl⟩ := exec_welcomeFor.1 h
    obtain ⟨session, -, floor, -, rfl, -⟩ := welcomeFor_eq_ok.1 hs
    exact ⟨rfl, (List.append_nil _).symm, .inl ⟨rfl, rfl⟩⟩
  | receiveInput sid input =>
    obtain ⟨result, hs, rfl⟩ := exec_receiveInput.1 h
    rcases receiveInput_cases hs with rfl | ⟨p, -, -, rfl, -⟩ <;>
      exact ⟨rfl, (List.append_nil _).symm, .inl ⟨rfl, rfl⟩⟩
  | disconnectSession sid =>
    obtain ⟨rfl, rfl⟩ := exec_disconnectSession.1 h
    unfold disconnectSession
    rcases s.sessions.lookup sid with _ | session <;>
      exact ⟨rfl, (List.append_nil _).symm, .inl ⟨rfl, rfl⟩⟩
  | step =>
    obtain ⟨snapshot, floor, bytes, hs, rfl⟩ := exec_step.1 h
    obtain ⟨t, -, -, rfl, -, -⟩ := step_eq_ok.1 hs
    exact ⟨rfl, (List.append_nil _).symm, .inl ⟨rfl, rfl⟩⟩

/-- No operation changes what the buffer is configured with. -/
theorem exec_bufferFrame {s s' : Server F} {op : Op F} {o : Out F}
    (h : s.exec op = .ok (s', o)) : s'.inputBuffer.config = s.inputBuffer.config ∧
      s'.inputBuffer.perTickLimit = s.inputBuffer.perTickLimit := by
  cases op with
  | acceptSession =>
    obtain ⟨sid, p, e, hs, rfl⟩ := exec_acceptSession.1 h
    obtain ⟨-, -, -, nextSid, nextPid, world, -, -, -, rfl⟩ := acceptSession_eq_ok.1 hs
    exact ⟨rfl, rfl⟩
  | welcomeFor sid =>
    obtain ⟨welcome, hs, rfl⟩ := exec_welcomeFor.1 h
    obtain ⟨session, -, floor, -, rfl, -⟩ := welcomeFor_eq_ok.1 hs
    exact ⟨rfl, rfl⟩
  | receiveInput sid input =>
    obtain ⟨result, hs, rfl⟩ := exec_receiveInput.1 h
    rcases receiveInput_cases hs with rfl | ⟨p, -, -, rfl, -⟩
    · exact ⟨rfl, rfl⟩
    · exact s.inputBuffer.tryBuffer_frame p input
  | disconnectSession sid =>
    obtain ⟨rfl, rfl⟩ := exec_disconnectSession.1 h
    unfold disconnectSession
    rcases s.sessions.lookup sid with _ | session <;> exact ⟨rfl, rfl⟩
  | step =>
    obtain ⟨snapshot, floor, bytes, hs, rfl⟩ := exec_step.1 h
    obtain ⟨t, -, -, rfl, -, -⟩ := step_eq_ok.1 hs
    exact produceInputs_frame ..

end Server

/-! ## Runs of a new server -/

section Runs

variable {config : ServerConfig} {ops : List (Op F)} {s : Server F} {outs : List (Out F)}

/-- What holds of a new server and is preserved by every operation holds after every run. -/
theorem runServer_invariant {P : Server F → Prop} (new : ∀ s, Server.new config = .ok s → P s)
    (exec : ∀ s op s' o, P s → s.exec op = .ok (s', o) → P s')
    (hrun : runServer config ops = .ok (s, outs)) : P s := by
  obtain ⟨s₀, hnew, hrun⟩ := bind_eq_ok.1 hrun
  exact Machine.run_invariant (M := serverMachine F) exec (new s₀ hnew) hrun

/-- What relates a server to the history of its run, if it holds at the start and is preserved
by every operation, holds after every run. -/
theorem runServer_history {P : List (Op F × Out F) → Server F → Prop}
    (new : ∀ s, Server.new config = .ok s → P [] s)
    (exec : ∀ h s op s' o, P h s → s.exec op = .ok (s', o) → P (h ++ [(op, o)]) s')
    (hrun : runServer config ops = .ok (s, outs)) : P (ops.zip outs) s := by
  obtain ⟨s₀, hnew, hrun⟩ := bind_eq_ok.1 hrun
  exact Machine.run_history (M := serverMachine F) exec (new s₀ hnew) hrun

end Runs

end Flowstate
