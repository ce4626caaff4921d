import Flowstate.Refinement
import Flowstate.Verification

/-!
# Server and verifier in lockstep

The recorder of a server holds its roster and, tick by tick, the inputs it applied
(`Recorded`). While nobody joins, replaying these inputs from the world before the first
step gives the server's world, and goes on doing so whatever is recorded later
(`Lockstep`). So if all sessions join before the first step, the verifier's world after `k`
ticks is the server's after its `k`-th step (`lockstep`), and the artifact verifies. A session
that joins later has no input for the first tick, which the verifier demands of every player
of the roster : the artifact verifies exactly if no step precedes an accept
(`verifyReplay_iff_joinsFirst`).
-/

set_option linter.unusedSectionVars false

open Rust

namespace Flowstate

variable {F : Type} [F64 F]

/-- The number of steps among `ops`. -/
def steps (ops : List (Op F)) : ℕ := ops.countP Op.isStep

/-- No step precedes an accept. -/
def JoinsFirst (ops : List (Op F)) : Prop :=
  ∀ before after, ops = before ++ .acceptSession :: after → .step ∉ before

/-- The world before anybody has joined. -/
def ServerConfig.blank (config : ServerConfig) : World F :=
  ⟨0, config.tickRateHz, F64.lit 1 / F64.lit config.tickRateHz.toNat, [], 1, config.seed⟩

/-! ## What the recorder holds -/

/-- The recorder has the roster, inputs of its players for ticks gone by, and a baseline of
tick zero once there has been a step. -/
structure Recorded (s : Server F) : Prop where
  seed : s.replayRecorder.config.seed = s.config.seed
  tickRateHz : s.replayRecorder.config.tickRateHz = s.config.tickRateHz
  spawnOrder : s.replayRecorder.entitySpawnOrder = s.entitySpawnOrder
  mapping : s.replayRecorder.playerEntityMapping.map Prod.fst = s.entitySpawnOrder
  past : ∀ a ∈ s.replayRecorder.inputs, a.tick.toNat < s.world.tick.toNat ∧
    a.playerId ∈ s.entitySpawnOrder
  unstepped : s.baselineRecorded = false → s.world.tick = 0
  stepped : s.baselineRecorded = true → 0 < s.world.tick.toNat ∧
    ∃ baseline, s.replayRecorder.initialBaseline = some baseline ∧ baseline.tick = 0

/-- Operations other than an accept and a step leave the world and the recorder alone. -/
theorem Server.exec_quiet {s s' : Server F} {op : Op F} {o : Out F}
    (h : s.exec op = .ok (s', o)) (haccept : op ≠ .acceptSession) (hstep : op ≠ .step) :
    ∃ sessions playerSessions sessionPlayers inputBuffer lastKnownIntent lastEmittedFloor,
      s' = { s with
        sessions, playerSessions, sessionPlayers, inputBuffer, lastKnownIntent,
        lastEmittedFloor } := by
  cases op with
  | acceptSession => exact absurd rfl haccept
  | welcomeFor sid =>
    obtain ⟨welcome, hs, rfl⟩ := exec_welcomeFor.1 h
    obtain ⟨session, -, floor, -, rfl, -⟩ := welcomeFor_eq_ok.1 hs
    exact ⟨_, _, _, _, _, _, rfl⟩
  | receiveInput sid input =>
    obtain ⟨result, hs, rfl⟩ := exec_receiveInput.1 h
    rcases receiveInput_cases hs with rfl | ⟨p, -, -, rfl, -⟩ <;> exact ⟨_, _, _, _, _, _, rfl⟩
  | disconnectSession sid =>
    obtain ⟨rfl, rfl⟩ := exec_disconnectSession.1 h
    unfold disconnectSession
    rcases s.sessions.lookup sid with _ | session <;> exact ⟨_, _, _, _, _, _, rfl⟩
  | step => exact absurd rfl hstep

/-- The inputs a step applies are of its tick and of the roster. -/
theorem Server.mem_appliedInputs {s : Server F} {a : AppliedInput F} (h : a ∈ s.appliedInputs) :
    a.tick = s.world.tick ∧ a.playerId ∈ s.entitySpawnOrder := by
  refine ⟨tick_of_mem_produceInputs _ _ _ _ a h, ?_⟩
  rw [← playerId_produceInputs s.world.tick s.entitySpawnOrder s.inputBuffer s.lastKnownIntent]
  exact List.mem_map_of_mem h

namespace Recorded

theorem exec {s s' : Server F} (h : Recorded s) {op : Op F} {o : Out F}
    (hexec : s.exec op = .ok (s', o)) : Recorded s' := by
  by_cases haccept : op = .acceptSession
  · subst haccept
    obtain ⟨sid, p, e, hs, rfl⟩ := Server.exec_acceptSession.1 hexec
    obtain ⟨-, -, -, nextSid, nextPid, world, -, -, hspawn, rfl⟩ := Server.acceptSession_eq_ok.1 hs
    obtain ⟨rfl, next, -, rfl⟩ := World.spawnCharacter_eq_ok.1 hspawn
    exact {
      seed := h.seed
      tickRateHz := h.tickRateHz
      spawnOrder := congrArg (· ++ [p]) h.spawnOrder
      mapping := by
        simp only [ReplayRecorder.recordSpawn, List.map_append, h.mapping, List.map_singleton]
      past := fun a ha => ⟨(h.past a ha).1, List.mem_append_left _ (h.past a ha).2⟩
      unstepped := h.unstepped
      stepped := h.stepped }
  · by_cases hstep : op = .step
    · subst hstep
      obtain ⟨snapshot, floor, bytes, hs, rfl⟩ := Server.exec_step.1 hexec
      obtain ⟨next, hnext, -, rfl, -, -⟩ := Server.step_eq_ok.1 hs
      have hrecorder := s.stepped_replayRecorder (s.steppedWorld next) floor
      have hlater : s.world.tick.toNat < next.toNat := hnext ▸ Nat.lt_succ_self _
      refine ⟨by rw [hrecorder]; exact h.seed, by rw [hrecorder]; exact h.tickRateHz,
        by rw [hrecorder]; exact h.spawnOrder, by rw [hrecorder]; exact h.mapping,
        fun a ha => ?_, nofun, fun _ => ⟨?_, ?_⟩⟩
      · rw [hrecorder] at ha
        rcases List.mem_append.1 ha with ha | ha
        · exact ⟨(h.past a ha).1.trans hlater, (h.past a ha).2⟩
        · obtain ⟨htick, hplayer⟩ := Server.mem_appliedInputs ha
          exact ⟨htick ▸ hlater, hplayer⟩
      · exact (Nat.zero_le _).trans_lt hlater
      · rw [hrecorder]
        dsimp only
        split_ifs with hbaseline
        · exact (h.stepped hbaseline).2
        · exact ⟨_, rfl, h.unstepped (Bool.not_eq_true _ ▸ hbaseline)⟩
    · obtain ⟨_, _, _, _, _, _, rfl⟩ := Server.exec_quiet hexec haccept hstep
      exact ⟨h.seed, h.tickRateHz, h.spawnOrder, h.mapping, h.past, h.unstepped, h.stepped⟩

variable {s : Server F}

/-- What is recorded is of ticks gone by. -/
theorem tick_ne (h : Recorded s) {a : AppliedInput F} (ha : a ∈ s.replayRecorder.inputs) :
    a.tick ≠ s.world.tick := by
  intro heq
  have hlt := (h.past a ha).1
  rw [heq] at hlt
  exact lt_irrefl _ hlt

/-- Of all inputs there will be, those of the current tick are the ones its step applies. -/
theorem filter_tick (h : Recorded s) {more : List (AppliedInput F)}
    (hmore : ∀ a ∈ more, s.world.tick.toNat < a.tick.toNat) :
    (s.replayRecorder.inputs ++ s.appliedInputs ++ more).filter
      (fun a => a.tick = s.world.tick) = s.appliedInputs := by
  have hpast : s.replayRecorder.inputs.filter (fun a => a.tick = s.world.tick) = [] :=
    List.filter_eq_nil_iff.2 fun a ha heq => h.tick_ne ha (of_decide_eq_true heq)
  have hnow : s.appliedInputs.filter (fun a => a.tick = s.world.tick) = s.appliedInputs :=
    List.filter_eq_self.2 fun a ha => decide_eq_true (Server.mem_appliedInputs ha).1
  have hfuture : more.filter (fun a => a.tick = s.world.tick) = [] := by
    refine List.filter_eq_nil_iff.2 fun a ha heq => ?_
    have hlt := hmore a ha
    rw [of_decide_eq_true heq] at hlt
    exact lt_irrefl _ hlt
  rw [List.filter_append, List.filter_append, hpast, hnow, hfuture, List.nil_append,
    List.append_nil]

/-- A step adds one input per player for its own tick, and none for another. -/
theorem countP_step (h : Recorded s) (hnodup : s.entitySpawnOrder.Nodup) {p : PlayerId}
    (hp : p ∈ s.entitySpawnOrder) (t : Tick) :
    ((s.replayRecorder.inputs ++ s.appliedInputs).countP fun a => a.playerId = p ∧ a.tick = t) =
      if t = s.world.tick then 1
      else s.replayRecorder.inputs.countP fun a => a.playerId = p ∧ a.tick = t := by
  rw [List.countP_append]
  split_ifs with hlast
  · subst hlast
    have hold : (s.replayRecorder.inputs.countP fun a =>
        a.playerId = p ∧ a.tick = s.world.tick) = 0 :=
      List.countP_eq_zero.2 fun a ha heq => h.tick_ne ha (of_decide_eq_true heq).2
    have hcount : (s.appliedInputs.countP fun a => a.playerId = p ∧ a.tick = s.world.tick) =
        (s.appliedInputs.map AppliedInput.playerId).count p := by
      rw [List.count, List.countP_map]
      refine List.countP_congr fun a ha => ?_
      simp [(Server.mem_appliedInputs ha).1]
    have hplayers : s.appliedInputs.map AppliedInput.playerId = s.entitySpawnOrder :=
      Server.playerId_produceInputs ..
    rw [hold, hcount, hplayers, List.count_eq_one_of_mem hnodup hp]
  · have hnew : (s.appliedInputs.countP fun a => a.playerId = p ∧ a.tick = t) = 0 := by
      refine List.countP_eq_zero.2 fun a ha heq => hlast ?_
      rw [← (of_decide_eq_true heq).2]
      exact (Server.mem_appliedInputs ha).1
    rw [hnew, Nat.add_zero]

theorem new {config : ServerConfig} (h : Server.new config = .ok s) : Recorded s := by
  obtain ⟨-, rfl⟩ := Server.new_eq_ok.1 h
  exact ⟨rfl, rfl, rfl, rfl, nofun, fun _ => rfl, nofun⟩

end Recorded

/-! ## What replaying it gives -/

/-- The recording of `s`, replayed from `start`, gives the world of `s`. -/
structure Lockstep (start : World F) (s : Server F) : Prop where
  recorded : Recorded s
  start_tick : start.tick = 0
  unstepped : s.baselineRecorded = false → s.world = start
  baseline : s.baselineRecorded = true → s.replayRecorder.initialBaseline = some start.baseline
  /-- Inputs recorded from now on do not disturb the replay up to now. -/
  replay : ∀ more : List (AppliedInput F), (∀ a ∈ more, s.world.tick.toNat ≤ a.tick.toNat) →
    replayTicks (inputsByTick (s.replayRecorder.inputs ++ more)) (rangeU64 0 s.world.tick) start =
      .ok s.world
  counts : s.entitySpawnOrder.Nodup → ∀ p ∈ s.entitySpawnOrder, ∀ t : Tick,
    t.toNat < s.world.tick.toNat →
      (s.replayRecorder.inputs.countP fun a => a.playerId = p ∧ a.tick = t) = 1
  respawned : ∀ entities : HashMap UInt32 EntityId,
    (∀ row ∈ s.replayRecorder.playerEntityMapping,
      entities.lookup row.1.toUInt32 = some row.2) →
    respawn entities (s.entitySpawnOrder.map UInt8.toUInt32) s.config.blank = .ok start

namespace Lockstep

variable {start : World F} {s s' : Server F}

/-- Before the first step an accept moves the start along. -/
theorem accept (h : Lockstep start s) (hstep : s.baselineRecorded = false) {o : Out F}
    (hexec : s.exec .acceptSession = .ok (s', o)) :
    Lockstep s'.world s' ∧ s'.baselineRecorded = false := by
  have hrecorded := h.recorded.exec hexec
  have hzero := h.recorded.unstepped hstep
  obtain ⟨sid, p, e, hs, rfl⟩ := Server.exec_acceptSession.1 hexec
  obtain ⟨-, -, -, nextSid, nextPid, world, -, -, hspawn, rfl⟩ := Server.acceptSession_eq_ok.1 hs
  have htick : world.tick = 0 := by
    obtain ⟨-, next, -, rfl⟩ := World.spawnCharacter_eq_ok.1 hspawn
    exact hzero
  refine ⟨⟨hrecorded, htick, fun _ => rfl, fun hb => ?_, fun more _ => ?_, fun _ q _ t ht => ?_,
    fun entities hentities => ?_⟩, hstep⟩
  · rw [show s.baselineRecorded = true from hb] at hstep
    cases hstep
  · change replayTicks _ (rangeU64 0 world.tick) world = .ok world
    rw [htick]
    rfl
  · change t.toNat < world.tick.toNat at ht
    rw [htick] at ht
    exact absurd ht (Nat.not_lt_zero _)
  · have hrow : entities.lookup p.toUInt32 = some e := hentities (p, e) (by
      simp [ReplayRecorder.recordSpawn])
    have hrows : ∀ row ∈ s.replayRecorder.playerEntityMapping,
        entities.lookup row.1.toUInt32 = some row.2 := fun row hmem =>
      hentities row (List.mem_append_left _ hmem)
    change respawn entities ((s.entitySpawnOrder ++ [p]).map UInt8.toUInt32) s.config.blank = _
    rw [List.map_append, respawn_append, h.respawned entities hrows, ← h.unstepped hstep]
    simp only [bind, Except.bind, List.map_singleton, respawn, UInt8.toUInt8_toUInt32, hspawn,
      liftPanic, hrow]
    simp

/-- A step applies what it records. -/
theorem step (h : Lockstep start s) {next floor : Tick}
    (hnext : next.toNat = s.world.tick.toNat + 1)
    (hrecorded : Recorded (s.stepped (s.steppedWorld next) floor)) :
    Lockstep start (s.stepped (s.steppedWorld next) floor) := by
  have hinputs : (s.stepped (s.steppedWorld next) floor).replayRecorder.inputs =
      s.replayRecorder.inputs ++ s.appliedInputs := by
    rw [Server.stepped_replayRecorder]
  refine ⟨hrecorded, h.start_tick, nofun, fun _ => ?_, fun more hmore => ?_,
    fun hnodup p hp t ht => ?_, fun entities hentities => ?_⟩
  · rw [Server.stepped_replayRecorder]
    dsimp only
    split_ifs with hb
    · exact h.baseline hb
    · rw [h.unstepped (Bool.not_eq_true _ ▸ hb)]
  · rw [Server.stepped_world, Server.steppedWorld_tick] at hmore ⊢
    have hlater : ∀ a ∈ s.appliedInputs ++ more, s.world.tick.toNat ≤ a.tick.toNat := by
      intro a ha
      rcases List.mem_append.1 ha with ha | ha
      · rw [(Server.mem_appliedInputs ha).1]
      · have := hmore a ha
        omega
    have hsofar := h.replay _ hlater
    rw [← List.append_assoc] at hsofar
    rw [hinputs, rangeU64_succ (Nat.zero_le _) hnext, replayTicks_append, hsofar]
    have hadvance : s.world.advance s.world.tick s.stepInputs =
        .ok (s.steppedWorld next, Server.snapshotOf (s.steppedWorld next)) :=
      World.advance_eq_ok.2 ⟨rfl, s.sorted_stepInputs, next, hnext, rfl, rfl⟩
    have hstepInputs : stepInputsAt (inputsByTick (s.replayRecorder.inputs ++ s.appliedInputs ++
        more)) s.world.tick = s.stepInputs := by
      rw [stepInputsAt_inputsByTick, Server.stepInputs, h.recorded.filter_tick]
      intro a ha
      have := hmore a ha
      omega
    simp only [bind, Except.bind, replayTicks, hstepInputs, hadvance]
  · rw [Server.stepped_world, Server.steppedWorld_tick, hnext] at ht
    rw [Server.stepped_entitySpawnOrder] at hnodup hp
    rw [hinputs, h.recorded.countP_step hnodup hp]
    split_ifs with hlast
    · rfl
    · have hne : t.toNat ≠ s.world.tick.toNat := fun heq => hlast (UInt64.toNat_inj.1 heq)
      exact h.counts hnodup p hp t (by omega)
  · refine h.respawned entities fun row hrow => hentities row ?_
    rw [Server.stepped_replayRecorder]
    exact hrow

/-- While nobody joins, the start stays where it is. -/
theorem exec (h : Lockstep start s) {op : Op F} {o : Out F} (hop : op ≠ .acceptSession)
    (hexec : s.exec op = .ok (s', o)) : Lockstep start s' := by
  by_cases hstep : op = .step
  · subst hstep
    have hrecorded := h.recorded.exec hexec
    obtain ⟨snapshot, floor, bytes, hs, rfl⟩ := Server.exec_step.1 hexec
    obtain ⟨next, hnext, -, rfl, -, -⟩ := Server.step_eq_ok.1 hs
    exact h.step hnext hrecorded
  · have hrecorded := h.recorded.exec hexec
    obtain ⟨_, _, _, _, _, _, rfl⟩ := Server.exec_quiet hexec hop hstep
    exact ⟨hrecorded, h.start_tick, h.unstepped, h.baseline, h.replay, h.counts, h.respawned⟩

theorem of_new {config : ServerConfig} (h : Server.new config = .ok s) :
    Lockstep s.world s ∧ s.baselineRecorded = false := by
  have hrecorded := Recorded.new h
  obtain ⟨-, rfl⟩ := Server.new_eq_ok.1 h
  exact ⟨⟨hrecorded, rfl, fun _ => rfl, nofun, fun _ _ => rfl,
    fun _ _ _ t ht => absurd ht (Nat.not_lt_zero _), fun _ _ => rfl⟩, rfl⟩

/-- Before the first step the start is the server's own world. -/
theorem of_joins {config : ServerConfig} {ops : List (Op F)} {outs : List (Out F)}
    (hrun : runServer config ops = .ok (s, outs)) (hops : .step ∉ ops) :
    Lockstep s.world s ∧ s.baselineRecorded = false := by
  obtain ⟨s₀, hnew, hrun⟩ := bind_eq_ok.1 hrun
  refine Machine.run_invariant_of (P := fun u => Lockstep u.world u ∧ u.baselineRecorded = false)
    (A := fun op => op ≠ .step) (fun u op u' o hop ⟨h, hb⟩ hexec => ?_)
    (fun op hmem => ne_of_mem_of_not_mem hmem hops) (of_new hnew) hrun
  by_cases haccept : op = .acceptSession
  · subst haccept
    exact h.accept hb hexec
  · have h' := h.exec haccept hexec
    obtain ⟨_, _, _, _, _, _, rfl⟩ := Server.exec_quiet hexec haccept hop
    exact ⟨h', hb⟩

theorem run {ops : List (Op F)} {outs : List (Out F)} (h : Lockstep start s)
    (hrun : (serverMachine F).run s ops = .ok (s', outs)) (hops : .acceptSession ∉ ops) :
    Lockstep start s' :=
  Machine.run_invariant_of (P := Lockstep start) (A := fun op => op ≠ .acceptSession)
    (fun _ _ _ _ hop h hexec => h.exec hop hexec)
    (fun _ hmem => ne_of_mem_of_not_mem hmem hops) h hrun

end Lockstep

/-! ## Runs -/

/-- A step advances the tick by one and records the inputs it applies, and no other operation
does either. -/
theorem Server.exec_log {s s' : Server F} {op : Op F} {o : Out F} (h : s.exec op = .ok (s', o)) :
    op = .step ∧ s'.world.tick.toNat = s.world.tick.toNat + 1 ∧
        s'.replayRecorder.inputs = s.replayRecorder.inputs ++ s.appliedInputs ∨
      op ≠ .step ∧ s'.world.tick = s.world.tick ∧
        s'.replayRecorder.inputs = s.replayRecorder.inputs := by
  by_cases haccept : op = .acceptSession
  · subst haccept
    obtain ⟨sid, p, e, hs, rfl⟩ := exec_acceptSession.1 h
    obtain ⟨-, -, -, nextSid, nextPid, world, -, -, hspawn, rfl⟩ := acceptSession_eq_ok.1 hs
    obtain ⟨rfl, next, -, rfl⟩ := World.spawnCharacter_eq_ok.1 hspawn
    exact .inr ⟨nofun, rfl, rfl⟩
  · by_cases hstep : op = .step
    · subst hstep
      obtain ⟨snapshot, floor, bytes, hs, rfl⟩ := exec_step.1 h
      obtain ⟨next, hnext, -, rfl, -, -⟩ := step_eq_ok.1 hs
      exact .inl ⟨rfl, hnext, by rw [stepped_replayRecorder]⟩
    · obtain ⟨_, _, _, _, _, _, rfl⟩ := exec_quiet h haccept hstep
      exact .inr ⟨hstep, rfl, rfl⟩

theorem steps_cons (op : Op F) (ops : List (Op F)) : steps (op :: ops) = steps [op] + steps ops := by
  rw [steps, ← List.singleton_append, List.countP_append]
  rfl

theorem steps_of_ne {op : Op F} (h : op ≠ .step) : steps [op] = 0 := by
  cases op <;> first | rfl | exact absurd rfl h

/-- Every step advances the tick by one and records inputs of the tick it leaves. -/
theorem tick_of_run : ∀ {ops : List (Op F)} {s t : Server F} {outs : List (Out F)},
    (serverMachine F).run s ops = .ok (t, outs) →
      t.world.tick.toNat = s.world.tick.toNat + steps ops ∧
      ∃ more, t.replayRecorder.inputs = s.replayRecorder.inputs ++ more ∧
        ∀ a ∈ more, s.world.tick.toNat ≤ a.tick.toNat
  | [], s, t, outs, hrun => by
    obtain ⟨rfl, -⟩ : s = t ∧ [] = outs := by simpa using hrun
    exact ⟨rfl, [], (List.append_nil _).symm, nofun⟩
  | op :: ops, s, t, outs, hrun => by
    obtain ⟨s', o, os, hexec, hrest, -⟩ := Machine.run_cons_eq_ok.1 hrun
    obtain ⟨htick, more, hmore, hle⟩ := tick_of_run hrest
    rw [steps_cons]
    rcases Server.exec_log hexec with ⟨rfl, hnext, hlog⟩ | ⟨hstep, hsame, hlog⟩
    · have hone : steps [(.step : Op F)] = 1 := rfl
      refine ⟨by omega, s.appliedInputs ++ more, ?_, fun a ha => ?_⟩
      · rw [hmore, hlog, List.append_assoc]
      · rcases List.mem_append.1 ha with ha | ha
        · rw [(Server.mem_appliedInputs ha).1]
        · have := hle a ha
          omega
    · rw [hsame] at htick hle
      exact ⟨by rw [htick, steps_of_ne hstep, Nat.zero_add], more, hlog ▸ hmore, hle⟩

theorem steps_pos {ops : List (Op F)} (h : .step ∈ ops) : 0 < steps ops :=
  List.countP_pos_iff.2 ⟨_, h, rfl⟩

theorem recorded_of_run {config : ServerConfig} {ops : List (Op F)} {s : Server F}
    {outs : List (Out F)} (hrun : runServer config ops = .ok (s, outs)) : Recorded s := by
  exact runServer_invariant (P := Recorded) (fun _ hnew => Recorded.new hnew)
    (fun _ _ _ _ h hexec => h.exec hexec) hrun

theorem runServer_append {config : ServerConfig} {ops ops' : List (Op F)} {t : Server F}
    {outs : List (Out F)} (hrun : runServer config (ops ++ ops') = .ok (t, outs)) :
    ∃ s os os', runServer config ops = .ok (s, os) ∧ (serverMachine F).run s ops' = .ok (t, os') ∧
      outs = os ++ os' := by
  obtain ⟨s₀, hnew, hrun⟩ := bind_eq_ok.1 hrun
  obtain ⟨s, os, os', hfirst, hrest, rfl⟩ := Machine.run_append_eq_ok.1 hrun
  exact ⟨s, os, os', bind_eq_ok.2 ⟨s₀, hnew, hfirst⟩, hrest, rfl⟩

/-- A run through an operation executes it in the state the operations before it lead to. -/
theorem runServer_split {config : ServerConfig} {before after : List (Op F)} {op : Op F}
    {s t : Server F} {os outs : List (Out F)}
    (hrun : runServer config (before ++ op :: after) = .ok (t, outs))
    (hbefore : runServer config before = .ok (s, os)) :
    ∃ u o os', s.exec op = .ok (u, o) ∧ (serverMachine F).run u after = .ok (t, os') ∧
      outs = os ++ o :: os' := by
  obtain ⟨s', os₁, os₂, hbefore', hrest, rfl⟩ := runServer_append hrun
  obtain ⟨rfl, rfl⟩ := Prod.mk.inj (Except.ok.inj (hbefore.symm.trans hbefore'))
  obtain ⟨u, o, os', hexec, hafter, rfl⟩ := Machine.run_cons_eq_ok.1 hrest
  exact ⟨u, o, os', hexec, hafter, rfl⟩

theorem runServer_concat {config : ServerConfig} {ops ops' : List (Op F)} {s t : Server F}
    {outs outs' : List (Out F)} (hrun : runServer config ops = .ok (s, outs))
    (hrest : (serverMachine F).run s ops' = .ok (t, outs')) :
    runServer config (ops ++ ops') = .ok (t, outs ++ outs') := by
  obtain ⟨s₀, hnew, hrun⟩ := bind_eq_ok.1 hrun
  exact bind_eq_ok.2 ⟨s₀, hnew, Machine.run_append_eq_ok.2 ⟨s, outs, outs', hrun, hrest, rfl⟩⟩

theorem runServer_snoc {config : ServerConfig} {ops : List (Op F)} {op : Op F} {s t : Server F}
    {outs : List (Out F)} {o : Out F} (hrun : runServer config ops = .ok (s, outs))
    (hexec : s.exec op = .ok (t, o)) :
    runServer config (ops ++ [op]) = .ok (t, outs ++ [o]) :=
  have hexec : (serverMachine F).exec s op = .ok (t, o) := hexec
  runServer_concat hrun (Machine.run_singleton hexec)

theorem length_of_runServer {config : ServerConfig} {ops : List (Op F)} {s : Server F}
    {outs : List (Out F)} (hrun : runServer config ops = .ok (s, outs)) :
    outs.length = ops.length := by
  obtain ⟨s₀, -, hrun⟩ := bind_eq_ok.1 hrun
  exact Machine.length_of_run hrun

theorem config_of_runServer {config : ServerConfig} {ops : List (Op F)} {s : Server F}
    {outs : List (Out F)} (hrun : runServer config ops = .ok (s, outs)) :
    s.config = config ∧ s.inputBuffer.config.maxFutureTicks = config.maxFutureTicks := by
  refine runServer_invariant (P := fun s => s.config = config ∧
    s.inputBuffer.config.maxFutureTicks = config.maxFutureTicks) ?_ ?_ hrun
  · intro s hnew
    obtain ⟨-, rfl⟩ := Server.new_eq_ok.1 hnew
    exact ⟨rfl, rfl⟩
  · rintro s op s' o ⟨hconfig, hwindow⟩ hexec
    exact ⟨(Server.exec_frame hexec).1.trans hconfig,
      (congrArg _ (Server.exec_bufferFrame hexec).1).trans hwindow⟩

theorem tickRateHz_ne_zero {config : ServerConfig} {ops : List (Op F)} {s : Server F}
    {outs : List (Out F)} (hrun : runServer config ops = .ok (s, outs)) :
    s.config.tickRateHz ≠ 0 := by
  obtain ⟨s₀, hnew, hrun⟩ := bind_eq_ok.1 hrun
  obtain ⟨hrate, rfl⟩ := Server.new_eq_ok.1 hnew
  rwa [config_of_run hrun]

theorem tick_of_runServer {config : ServerConfig} {ops : List (Op F)} {s : Server F}
    {outs : List (Out F)} (hrun : runServer config ops = .ok (s, outs)) :
    s.world.tick.toNat = steps ops := by
  obtain ⟨s₀, hnew, hrun⟩ := bind_eq_ok.1 hrun
  obtain ⟨-, rfl⟩ := Server.new_eq_ok.1 hnew
  rw [(tick_of_run hrun).1]
  exact Nat.zero_add _

/-- Once there has been a step, the baseline is recorded. -/
theorem Recorded.baselineRecorded {config : ServerConfig} {ops : List (Op F)} {s : Server F}
    {outs : List (Out F)} (h : Recorded s) (hrun : runServer config ops = .ok (s, outs))
    (hstep : .step ∈ ops) : s.baselineRecorded = true := by
  refine (Bool.eq_false_or_eq_true _).resolve_right fun hb => ?_
  have hpos := steps_pos hstep
  rw [← tick_of_runServer hrun, h.unstepped hb] at hpos
  exact absurd hpos (Nat.lt_irrefl _)

/-! ## The artifact -/

theorem toUInt32_inj {p q : PlayerId} : p.toUInt32 = q.toUInt32 ↔ p = q := by
  refine ⟨fun h => ?_, congrArg _⟩
  rw [← UInt8.toUInt8_toUInt32 p, ← UInt8.toUInt8_toUInt32 q, h]

/-- The inputs an artifact holds for a player and a tick are those recorded for them. -/
theorem inputCount_finalize (s : Server F) (p : PlayerId) (tick : Tick) :
    (s.finalize .complete).inputCount p.toUInt32 tick =
      s.replayRecorder.inputs.countP fun a => a.playerId = p ∧ a.tick = tick := by
  change (s.replayRecorder.inputs.map AppliedInput.toProto).countP _ = _
  rw [List.countP_map]
  refine List.countP_congr fun a _ => ?_
  simp only [Function.comp_apply, AppliedInput.toProto, toUInt32_inj]

namespace Lockstep

variable {start : World F} {s t : Server F}

theorem validateInputStream_finalize (h : Lockstep start t) (hstep : t.baselineRecorded = true)
    (hnodup : t.entitySpawnOrder.Nodup) : validateInputStream (t.finalize .complete) = .ok () := by
  have hrange : ∀ tick : Tick, tick ∈ rangeU64 start.baseline.toProto.tick t.world.tick ↔
      tick.toNat < t.world.tick.toNat := by
    intro tick
    rw [mem_rangeU64]
    change start.tick.toNat ≤ _ ∧ _ ↔ _
    rw [h.start_tick]
    simp
  refine validateInputStream_eq_ok.2 ⟨start.baseline.toProto, ?_, ?_, ?_⟩
  · exact congrArg (Option.map Baseline.toProto) (h.baseline hstep)
  · intro row hrow tick htick
    obtain ⟨⟨p, e⟩, hmem, rfl⟩ := List.mem_map.1 hrow
    have hp : p ∈ t.entitySpawnOrder :=
      h.recorded.mapping ▸ List.mem_map_of_mem (f := Prod.fst) hmem
    rw [inputCount_finalize, h.counts hnodup p hp tick ((hrange tick).1 htick)]
  · intro input hinput
    obtain ⟨a, ha, rfl⟩ := List.mem_map.1 hinput
    obtain ⟨htick, hplayer⟩ := h.recorded.past a ha
    rw [← h.recorded.mapping] at hplayer
    obtain ⟨row, hrow, hplayer⟩ := List.mem_map.1 hplayer
    exact ⟨(hrange a.tick).2 htick, _, List.mem_map_of_mem hrow, congrArg UInt8.toUInt32 hplayer⟩

theorem reconstruct_finalize (h : Lockstep start t) (hrate : t.config.tickRateHz ≠ 0)
    (hnodup : t.entitySpawnOrder.Nodup) : reconstruct (t.finalize .complete) = .ok start := by
  have hentities : ∀ row ∈ t.replayRecorder.playerEntityMapping,
      (playerEntityMap (t.finalize .complete)).lookup row.1.toUInt32 = some row.2 := by
    intro row hrow
    rcases lookup_playerEntityMap (t.finalize .complete) row.1.toUInt32 with
      ⟨proto, hproto, hplayer, hlookup⟩ | ⟨hnone, -⟩
    · obtain ⟨row', hrow', rfl⟩ := List.mem_map.1 hproto
      have hrows : (t.replayRecorder.playerEntityMapping.map Prod.fst).Nodup := by
        rwa [h.recorded.mapping]
      obtain rfl : row' = row := List.inj_on_of_nodup_map hrows hrow' hrow (toUInt32_inj.1 hplayer)
      exact hlookup
    · exact absurd rfl (hnone _ (List.mem_map_of_mem hrow))
  have hblank : World.new t.replayRecorder.config.seed t.replayRecorder.config.tickRateHz =
      .ok (t.config.blank : World F) := by
    rw [h.recorded.seed, h.recorded.tickRateHz, World.new, if_neg hrate]
    rfl
  change (liftPanic (World.new t.replayRecorder.config.seed t.replayRecorder.config.tickRateHz) >>=
    respawn (playerEntityMap (t.finalize .complete))
      (t.replayRecorder.entitySpawnOrder.map UInt8.toUInt32)) = _
  rw [hblank, h.recorded.spawnOrder]
  exact h.respawned _ hentities

/-- The verifier's world, after the ticks that had gone by in `s`, is that of `s`. -/
theorem verifyWorld_finalize (hs : Lockstep start s) (ht : Lockstep start t)
    (hstep : t.baselineRecorded = true) (hrate : t.config.tickRateHz ≠ 0)
    (hnodup : t.entitySpawnOrder.Nodup) {more : List (AppliedInput F)}
    (hmore : t.replayRecorder.inputs = s.replayRecorder.inputs ++ more)
    (hle : ∀ a ∈ more, s.world.tick.toNat ≤ a.tick.toNat)
    (htick : s.world.tick.toNat ≤ t.world.tick.toNat) :
    verifyWorld (t.finalize .complete) s.world.tick.toNat = .ok s.world := by
  refine verifyWorld_eq_ok.2 ⟨start.baseline.toProto, start, t.replayRecorder.inputs,
    ht.validateInputStream_finalize hstep hnodup,
    congrArg (Option.map Baseline.toProto) (ht.baseline hstep),
    ht.reconstruct_finalize hrate hnodup, rfl, convertInputs_toProto _, ?_⟩
  change replayTicks _ ((rangeU64 start.tick t.world.tick).take s.world.tick.toNat) _ = _
  have htake := take_rangeU64 (a := 0) (Nat.zero_le _) htick
  rw [UInt64.toNat_zero, Nat.sub_zero] at htake
  rw [ht.start_tick, htake, hmore]
  exact hs.replay more hle

end Lockstep

/-- The server and the verifier run in lockstep. If all sessions join before the first step,
the verifier's world after `k` ticks of the final artifact is the server's world after its
`k`-th step. -/
theorem lockstep {config : ServerConfig} {joins before after : List (Op F)} {s t : Server F}
    {outs outs' : List (Out F)} (hbefore : runServer config (joins ++ before) = .ok (s, outs))
    (hafter : (serverMachine F).run s after = .ok (t, outs')) (hnodup : t.entitySpawnOrder.Nodup)
    (hjoins : .step ∉ joins) (hlater : .acceptSession ∉ before ++ after)
    (hstep : .step ∈ before ++ after) :
    verifyWorld (t.finalize .complete) (steps before) = .ok s.world := by
  obtain ⟨s₁, _, _, hjoin, hmid, -⟩ := runServer_append hbefore
  obtain ⟨hstart, -⟩ := Lockstep.of_joins hjoin hjoins
  have hs := hstart.run hmid fun hmem => hlater (List.mem_append_left _ hmem)
  have ht := hs.run hafter fun hmem => hlater (List.mem_append_right _ hmem)
  have hrun := runServer_concat hbefore hafter
  have hrecorded := ht.recorded.baselineRecorded hrun (by
    rw [List.append_assoc]
    exact List.mem_append_right _ hstep)
  obtain ⟨htick, more, hmore, hle⟩ := tick_of_run hafter
  have hsteps : s.world.tick.toNat = steps before := by
    rw [(tick_of_run hmid).1, hstart.start_tick, UInt64.toNat_zero, Nat.zero_add]
  rw [← hsteps]
  exact hs.verifyWorld_finalize ht hrecorded (tickRateHz_ne_zero hrun) hnodup hmore hle (by omega)

/-- The world after the first of three steps, a move and a leave on the way. -/
theorem lockstep_of_leave : ∃ s t outs outs',
    runServer (F := ℚ) {} ([.acceptSession, .acceptSession] ++
      [.receiveInput 1 ⟨1, 1, [3, 4]⟩, .step]) = .ok (s, outs) ∧
    (serverMachine ℚ).run s [.disconnectSession 2, .step, .step] = .ok (t, outs') ∧
    verifyWorld (t.finalize .complete) 1 = .ok s.world := by
  have h : (runServer (F := ℚ) {} ([.acceptSession, .acceptSession] ++
      [.receiveInput 1 ⟨1, 1, [3, 4]⟩, .step]) >>= fun x =>
        ((serverMachine ℚ).run x.1 [.disconnectSession 2, .step, .step]).map fun y =>
          y.1.entitySpawnOrder) = .ok [0, 1] := by
    decide +kernel
  obtain ⟨⟨s, outs⟩, hs, h⟩ := bind_eq_ok.1 h
  obtain ⟨⟨t, outs'⟩, ht, hplayers⟩ := map_eq_ok.1 h
  have hverify := lockstep hs ht (by rw [hplayers]; decide) (by simp) (by simp) (by simp)
  have hsteps : steps [(.receiveInput 1 ⟨1, 1, [3, 4]⟩ : Op ℚ), .step] = 1 := rfl
  rw [hsteps] at hverify
  exact ⟨s, t, outs, outs', hs, ht, hverify⟩

/-- A run that joins first falls into the joins and the rest, which has a step if the run has. -/
theorem JoinsFirst.split {ops : List (Op F)} (h : JoinsFirst ops) :
    ∃ joins rest, ops = joins ++ rest ∧ .step ∉ joins ∧ .acceptSession ∉ rest := by
  induction ops with
  | nil => exact ⟨[], [], rfl, List.not_mem_nil, List.not_mem_nil⟩
  | cons op ops ih =>
    by_cases hstep : op = .step
    · refine ⟨[], op :: ops, rfl, List.not_mem_nil, fun hmem => ?_⟩
      obtain ⟨before, after, hsplit⟩ := List.append_of_mem hmem
      refine h before after hsplit ?_
      rcases before with _ | ⟨op', before⟩
      · rw [hstep] at hsplit
        cases hsplit
      · rw [List.cons_append] at hsplit
        rw [← (List.cons.inj hsplit).1, hstep]
        exact List.mem_cons_self
    · obtain ⟨joins, rest, rfl, hjoins, hrest⟩ := ih fun before after hsplit hmem =>
        h (op :: before) after (by rw [hsplit]; rfl) (List.mem_cons_of_mem _ hmem)
      refine ⟨op :: joins, rest, rfl, fun hmem => ?_, hrest⟩
      rcases List.mem_cons.1 hmem with heq | hmem
      · exact hstep heq.symm
      · exact hjoins hmem

/-- Whoever joins after a step misses the first tick. -/
theorem not_joined_later {config : ServerConfig} {before after : List (Op F)} {t : Server F}
    {outs : List (Out F)}
    (hrun : runServer config (before ++ .acceptSession :: after) = .ok (t, outs))
    (hnodup : t.entitySpawnOrder.Nodup)
    (hvalid : validateInputStream (t.finalize .complete) = .ok ()) : .step ∉ before := by
  intro hstep
  obtain ⟨s, _, _, hbefore, hrest, -⟩ := runServer_append hrun
  obtain ⟨s', o, os, hexec, hafter, rfl⟩ := Machine.run_cons_eq_ok.1 hrest
  have hs := recorded_of_run hbefore
  have ht := recorded_of_run hrun
  obtain ⟨-, more, hmore, hle⟩ := tick_of_run hrest
  have hpos := steps_pos hstep
  rw [← tick_of_runServer hbefore] at hpos
  -- The player is new, and in the roster.
  obtain ⟨sid, p, e, -, rfl⟩ := Server.exec_acceptSession.1 hexec
  have horder : t.entitySpawnOrder = s.entitySpawnOrder ++ ([p] ++ os.flatMap Out.assigned) :=
    spawnOrder_of_run hrest
  have hnew : p ∉ s.entitySpawnOrder := by
    rw [horder, ← List.append_assoc] at hnodup
    exact List.disjoint_singleton.1 (List.disjoint_of_nodup_append hnodup.of_append_left)
  have hplayer : p ∈ t.replayRecorder.playerEntityMapping.map Prod.fst := by
    rw [ht.mapping, horder]
    simp
  obtain ⟨row, hrow, rfl⟩ := List.mem_map.1 hplayer
  -- The stream check asks for its input of tick zero.
  have hrecorded := ht.baselineRecorded hrun (List.mem_append_left _ hstep)
  obtain ⟨htick, baseline, hsome, hzero⟩ := ht.stepped hrecorded
  obtain ⟨baseline', hsome', hcounts, -⟩ := validateInputStream_eq_ok.1 hvalid
  obtain rfl : baseline.toProto = baseline' := by
    have heq := congrArg (Option.map Baseline.toProto) hsome
    exact Option.some.inj (heq.symm.trans hsome')
  have hcount := hcounts _ (List.mem_map_of_mem hrow) 0 (mem_rangeU64.2 ⟨by
    change baseline.tick.toNat ≤ _
    rw [hzero], htick⟩)
  rw [inputCount_finalize] at hcount
  obtain ⟨a, ha, heq⟩ := List.countP_pos_iff.1 (hcount ▸ Nat.one_pos)
  obtain ⟨hp, ht0⟩ := of_decide_eq_true heq
  rw [hmore] at ha
  rcases List.mem_append.1 ha with ha | ha
  · exact hnew (hp ▸ (hs.past a ha).2)
  · have hle := hle a ha
    rw [ht0] at hle
    exact absurd hpos (Nat.not_lt.2 hle)

/-- The artifact of a run with distinct players and at least one step verifies exactly if no
step precedes an accept. -/
theorem verifyReplay_iff_joinsFirst {config : ServerConfig} {ops : List (Op F)} {t : Server F}
    {outs : List (Out F)} {options : VerifyOptions} (hrun : runServer config ops = .ok (t, outs))
    (hnodup : t.entitySpawnOrder.Nodup) (hstep : .step ∈ ops)
    (hbuild : options.currentBuild = none) :
    verifyReplay (t.finalize .complete) options = .ok () ↔ JoinsFirst ops := by
  rw [verifyReplay_eq_ok]
  constructor
  · rintro ⟨-, world, hworld, -⟩ before after rfl
    obtain ⟨_, _, _, hvalid, -⟩ := verifyWorld_eq_ok.1 hworld
    exact not_joined_later hrun hnodup hvalid
  · intro hfirst
    obtain ⟨joins, rest, rfl, hjoins, hrest⟩ := hfirst.split
    have hrest' : .step ∈ rest ++ [] := by
      rw [List.append_nil]
      exact (List.mem_append.1 hstep).resolve_left hjoins
    have hworld := lockstep hrun (Machine.run_nil t) hnodup hjoins
      (by rwa [List.append_nil]) hrest'
    have hlength : replayLength (t.finalize .complete) = steps rest := by
      have hrecorded := recorded_of_run hrun
      obtain ⟨-, baseline, hsome, hzero⟩ :=
        hrecorded.stepped (hrecorded.baselineRecorded hrun hstep)
      have hsome' : (t.finalize .complete).initialBaseline = some baseline.toProto :=
        congrArg (Option.map Baseline.toProto) hsome
      have hnone : steps joins = 0 := List.countP_eq_zero.2 fun op hmem hop => hjoins (by
        cases op <;> first | exact hmem | cases hop)
      rw [replayLength, hsome']
      change t.world.tick.toNat - baseline.tick.toNat = _
      rw [hzero, tick_of_runServer hrun, steps, List.countP_append]
      change steps joins + steps rest - 0 = _
      rw [hnone, Nat.zero_add, Nat.sub_zero]
    exact ⟨verifyBuild_of_none hbuild, t.world, hlength ▸ hworld, rfl, rfl⟩

/-- A match of one session and one step verifies. -/
theorem verifyReplay_of_step : ∃ t outs, runServer (F := ℚ) {} [.acceptSession, .step] =
    .ok (t, outs) ∧ verifyReplay (t.finalize .complete) ⟨true, none⟩ = .ok () := by
  have h : (runServer (F := ℚ) {} [.acceptSession, .step]).map (fun x => x.1.entitySpawnOrder) =
      .ok [0] := by
    decide +kernel
  obtain ⟨⟨t, outs⟩, ht, hplayers⟩ := map_eq_ok.1 h
  refine ⟨t, outs, ht, (verifyReplay_iff_joinsFirst ht (hplayers ▸ by decide) (by decide) rfl).2 ?_⟩
  rintro (_ | ⟨op, _ | ⟨op', before⟩⟩) after hsplit hmem <;> simp_all

/-- A session that joins after a step makes the artifact fail. -/
theorem not_verifyReplay_late_join : ∃ t outs,
    runServer (F := ℚ) {} [.acceptSession, .step, .acceptSession] = .ok (t, outs) ∧
    t.entitySpawnOrder.Nodup ∧ verifyReplay (t.finalize .complete) ⟨true, none⟩ =
      .error (.err (.inputStreamInvalid "Missing input for player 1 at tick 0")) := by
  have h : (runServer (F := ℚ) {} [.acceptSession, .step, .acceptSession]).map (fun x =>
      (x.1.entitySpawnOrder, verifyReplay (x.1.finalize .complete) ⟨true, none⟩)) =
      .ok ([0, 1], .error (.err (.inputStreamInvalid "Missing input for player 1 at tick 0"))) := by
    decide +kernel
  obtain ⟨⟨t, outs⟩, ht, heq⟩ := map_eq_ok.1 h
  obtain ⟨hplayers, hverify⟩ := Prod.mk.inj heq
  exact ⟨t, outs, ht, hplayers ▸ by decide, hverify⟩

end Flowstate
