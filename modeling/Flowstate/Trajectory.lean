import Flowstate.Advance
import Flowstate.Bookkeeping
import Flowstate.Ledger

/-!
# The recorded inputs are the trajectories

A character is nowhere but where its player's recorded inputs take it. Its position and
velocity come from folding the movement of one tick (`Character.motion`) over the directions
recorded for its player, from the origin at rest (`Character.travel`). No other player, no
session that comes or goes and no command that was not applied has a part in it. So every
row of every broadcast snapshot, and the digest that seals the recording, can be computed
from the log alone, without a world (`travelled`).

In the match this is an invariant of each lane by itself (`Match.Tracked`).
-/

set_option linter.unusedSectionVars false

open Rust

namespace Flowstate

variable {F : Type} [F64 F]

/-- The position and the velocity of a character that was driven by the directions in order,
from the origin at rest. -/
def Character.travel (dtSeconds : F) (moveDirs : List (F × F)) : (F × F) × (F × F) :=
  moveDirs.foldl (fun now moveDir => motion dtSeconds moveDir now.1)
    ((F64.lit 0, F64.lit 0), (F64.lit 0, F64.lit 0))

@[simp] theorem Character.travel_nil (dtSeconds : F) :
    travel dtSeconds [] = ((F64.lit 0, F64.lit 0), (F64.lit 0, F64.lit 0)) := rfl

theorem Character.travel_concat (dtSeconds : F) (moveDirs : List (F × F)) (moveDir : F × F) :
    travel dtSeconds (moveDirs ++ [moveDir]) =
      motion dtSeconds moveDir (travel dtSeconds moveDirs).1 := by
  rw [travel, List.foldl_append]
  rfl

namespace ReplayRecorder

/-- The directions recorded for a player before a tick. -/
def movesBefore (r : ReplayRecorder F) (p : PlayerId) (t : Tick) : List (F × F) :=
  (r.inputs.filter fun a => a.playerId = p ∧ a.tick < t).map AppliedInput.moveDir

/-- The entities at a tick, as the log tells them. -/
def entitiesAt (r : ReplayRecorder F) (dtSeconds : F) (t : Tick) : List (EntitySnapshot F) :=
  r.playerEntityMapping.map fun row =>
    ⟨row.2, (Character.travel dtSeconds (r.movesBefore row.1 t)).1,
      (Character.travel dtSeconds (r.movesBefore row.1 t)).2⟩

end ReplayRecorder

/-- What the recording of `s` says of the run that led to it. -/
structure Travelled (dtSeconds : F) (outs : List (Out F)) (s : Server F) (reason : EndReason) :
    Prop where
  /-- A snapshot shows the entities accepted by then where the log has them at its tick. -/
  snapshots : ∀ before after snapshot floor bytes,
    outs = before ++ .stepped snapshot floor bytes :: after →
      snapshot.entities = (s.replayRecorder.entitiesAt dtSeconds snapshot.tick).take
        (before.flatMap Out.assigned).length
  /-- The final digest is that of the entities where the log has them in the end. -/
  finalDigest : (s.finalize reason).finalDigest =
    digestOf s.world.tick (s.replayRecorder.entitiesAt dtSeconds s.world.tick)

/-! ## One lane -/

namespace Match

/-- The directions applied to a session, in order. -/
def moves (m : Match F) (sid : SessionId) : List (F × F) :=
  (m.log.filter fun a => a.session == sid).map Applied.moveDir

/-- Every lane is where its moves take it. -/
structure Tracked (m : Match F) : Prop where
  joined : m.joined < 2 ^ 8
  path : ∀ sid, ((m.lane sid).position, (m.lane sid).velocity) =
    Character.travel m.rules.dtSeconds (m.moves sid)

variable {m m' : Match F}

/-- A tick applies one direction to each session that has joined. -/
theorem moves_applied (h : m.joined < 2 ^ 8) (sid : SessionId) :
    (m.applied.filter fun a => a.session == sid).map Applied.moveDir =
      if sid ∈ m.order then [((m.lane sid).choice m.tick).1] else [] := by
  have hnodup := nodup_order (h.trans (by norm_num) : m.joined < 2 ^ 63)
  have hfilter : m.order.filter (fun a => a == sid) = if sid ∈ m.order then [sid] else [] := by
    rw [List.filter_beq]
    split_ifs with hsid
    · rw [List.count_eq_one_of_mem hnodup hsid]
      rfl
    · rw [List.count_eq_zero_of_not_mem hsid]
      rfl
  rw [applied, List.filter_map, List.map_map]
  change (m.order.filter fun a => a == sid).map (fun a => ((m.lane a).choice m.tick).1) = _
  rw [hfilter]
  split_ifs <;> rfl

namespace Tracked

theorem new (rules : Rules F) : (Match.new rules).Tracked :=
  ⟨Nat.two_pow_pos 8, fun _ => rfl⟩

/-- A lane that changes but does not move stays on its path. -/
theorem setLane (h : m.Tracked) (sid : SessionId) (l : Lane F)
    (hposition : l.position = (m.lane sid).position)
    (hvelocity : l.velocity = (m.lane sid).velocity) : (m.setLane sid l).Tracked := by
  refine ⟨h.joined, fun sid' => ?_⟩
  have hpath := h.path sid'
  rw [lane_setLane]
  split_ifs with heq
  · rw [hposition, hvelocity, ← heq]
    exact hpath
  · exact hpath

/-- A tick moves every lane that has joined by what it records for it. -/
theorem advance (h : m.Tracked) (next floor : Tick) : (m.advance next floor).Tracked := by
  refine ⟨h.joined, fun sid => ?_⟩
  have hmoves : (m.advance next floor).moves sid = m.moves sid ++
      if sid ∈ m.order then [((m.lane sid).choice m.tick).1] else [] := by
    rw [← moves_applied h.joined sid]
    change ((m.log ++ m.applied).filter _).map _ = _
    rw [List.filter_append, List.map_append]
    rfl
  have hpath := h.path sid
  rw [hmoves, lane_advance]
  split_ifs with hsid
  · change _ = Character.travel m.rules.dtSeconds _
    rw [Character.travel_concat, ← hpath]
    rfl
  · rw [List.append_nil]
    exact hpath

theorem exec (h : m.Tracked) {op : Op F} {o : Out F} (hexec : m.exec op = .ok (m', o)) :
    m'.Tracked := by
  cases steps_of_exec hexec with
  | join hcap hjoined =>
    have hset := h.setLane (sessionAt m.joined) (m.lane (sessionAt m.joined)).join rfl rfl
    exact ⟨hjoined, hset.path⟩
  | welcome | buffer | leave => exact h.setLane _ _ rfl rfl
  | unknown | drop | absent => exact h
  | tick => exact h.advance _ _

theorem of_run {rules : Rules F} {ops : List (Op F)} {outs : List (Out F)}
    (hrun : (matchMachine F).run (Match.new rules) ops = .ok (m, outs)) : m.Tracked :=
  Machine.run_invariant (P := Tracked) (fun _ _ _ _ h hexec => h.exec hexec) (new rules) hrun

end Tracked

end Match

/-! ## The log of a server -/

/-- The rows of the mapping are those of the players accepted so far, in order. -/
theorem Server.mapping_prefix {s s' : Server F} {op : Op F} {o : Out F}
    (h : s.exec op = .ok (s', o)) :
    s.replayRecorder.playerEntityMapping <+: s'.replayRecorder.playerEntityMapping := by
  by_cases haccept : op = .acceptSession
  · subst haccept
    obtain ⟨sid, p, e, hs, rfl⟩ := exec_acceptSession.1 h
    obtain ⟨-, -, -, nextSid, nextPid, world, -, -, -, rfl⟩ := acceptSession_eq_ok.1 hs
    exact List.prefix_append _ _
  · by_cases hstep : op = .step
    · subst hstep
      obtain ⟨snapshot, floor, bytes, hs, rfl⟩ := exec_step.1 h
      obtain ⟨t, -, -, rfl, -, -⟩ := step_eq_ok.1 hs
      rw [stepped_replayRecorder]
    · obtain ⟨_, _, _, _, _, _, rfl⟩ := exec_quiet h haccept hstep
      exact List.prefix_refl _

/-- A step shows the world it leads to. -/
theorem Server.snapshot_of_exec {s s' : Server F} {op : Op F} {snapshot : Snapshot F}
    {floor : Tick} {bytes : Protobuf.Bytes}
    (h : s.exec op = .ok (s', .stepped snapshot floor bytes)) : snapshot = snapshotOf s'.world := by
  cases op with
  | acceptSession =>
    obtain ⟨_, _, _, -, heq⟩ := exec_acceptSession.1 h
    cases heq
  | welcomeFor sid =>
    obtain ⟨_, -, heq⟩ := exec_welcomeFor.1 h
    cases heq
  | receiveInput sid input =>
    obtain ⟨_, -, heq⟩ := exec_receiveInput.1 h
    cases heq
  | disconnectSession sid =>
    obtain ⟨-, heq⟩ := exec_disconnectSession.1 h
    cases heq
  | step =>
    obtain ⟨_, _, _, hs, heq⟩ := exec_step.1 h
    obtain ⟨rfl, rfl, rfl⟩ := Out.stepped.inj heq
    obtain ⟨t, -, -, rfl, hsnapshot, -⟩ := step_eq_ok.1 hs
    exact hsnapshot

/-- A run with distinct players is a run of the match, with the books in order. -/
theorem runServer_books {config : ServerConfig} {ops : List (Op F)} {s : Server F}
    {outs : List (Out F)} (hrun : runServer config ops = .ok (s, outs))
    (hnodup : s.entitySpawnOrder.Nodup) :
    ∃ m mouts, (matchMachine F).run (Match.new config.rules) ops = .ok (m, mouts) ∧
      Refines s m ∧ Books s m ∧ s.config = config := by
  obtain ⟨s₀, hnew, hrun⟩ := bind_eq_ok.1 hrun
  have hconfig : s₀.config = config := by rw [(Server.new_eq_ok.1 hnew).2]
  have hbooks₀ : Books s₀ (Match.new config.rules) := by
    obtain ⟨-, rfl⟩ := Server.new_eq_ok.1 hnew
    exact ⟨fun _ h => absurd h List.not_mem_nil, fun _ _ => rfl,
      fun _ h => absurd h List.not_mem_nil, rfl, fun _ _ => rfl⟩
  obtain ⟨m, mouts, hm, -, h, hbooks⟩ := run_refines_with (R := Books)
    (fun _ _ _ _ _ _ _ h hbooks hexec hnodup hm => hbooks.exec h hexec hnodup hm)
    (refines_new hnew) hbooks₀ hrun hnodup
  exact ⟨m, mouts, hm, h, hbooks, (config_of_run hrun).trans hconfig⟩

/-- The entities of a server are where its log has them at its tick. -/
theorem sortedEntitySnapshots_of_run {config : ServerConfig} (hids : config.Distinct)
    {ops : List (Op F)} {s : Server F} {outs : List (Out F)}
    (hrun : runServer config ops = .ok (s, outs)) :
    s.world.sortedEntitySnapshots =
      s.replayRecorder.entitiesAt config.rules.dtSeconds s.world.tick := by
  obtain ⟨m, mouts, hm, h, hbooks, rfl⟩ := runServer_books hrun (nodup_of_runServer hids hrun)
  have hrecorded := recorded_of_run hrun
  rw [h.sortedEntitySnapshots_eq, Match.entities, ReplayRecorder.entitiesAt, hbooks.rows,
    List.map_map]
  refine List.map_congr_left fun sid hsid => ?_
  -- What is recorded is of ticks gone by, and a player's is its session's.
  have hmoves : s.replayRecorder.movesBefore (s.config.playerOf sid) s.world.tick =
      m.moves sid := by
    have hpast : (s.replayRecorder.inputs.filter fun a =>
        a.playerId = s.config.playerOf sid ∧ a.tick < s.world.tick) =
        s.replayRecorder.inputs.filter fun a => id (a.playerId == s.config.playerOf sid) := by
      refine List.filter_congr fun a ha => ?_
      have hlt : a.tick < s.world.tick := UInt64.lt_iff_toNat_lt.2 (hrecorded.past a ha).1
      simp only [hlt, and_true]
      rfl
    rw [ReplayRecorder.movesBefore, hpast, h.filter_inputs hsid id, List.map_map]
    rfl
  have hpath := (Match.Tracked.of_run hm).path sid
  rw [h.rules, ← hmoves] at hpath
  exact congrArg (fun x : (F × F) × (F × F) => EntitySnapshot.mk sid x.1 x.2) hpath

/-- What a log says of a tick stays, as it grows. -/
theorem entitiesAt_of_run {config : ServerConfig} {before ops : List (Op F)} {s t : Server F}
    {os outs : List (Out F)} (hbefore : runServer config before = .ok (s, os))
    (hrun : (serverMachine F).run s ops = .ok (t, outs)) (dtSeconds : F) :
    s.replayRecorder.entitiesAt dtSeconds s.world.tick =
      (t.replayRecorder.entitiesAt dtSeconds s.world.tick).take
        (os.flatMap Out.assigned).length := by
  obtain ⟨-, more, hmore, hle⟩ := tick_of_run hrun
  have hprefix : s.replayRecorder.playerEntityMapping <+:
      t.replayRecorder.playerEntityMapping :=
    Machine.run_invariant
      (P := fun u : Server F => s.replayRecorder.playerEntityMapping <+:
        u.replayRecorder.playerEntityMapping)
      (fun _ _ _ _ hpre hexec => hpre.trans (Server.mapping_prefix hexec))
      (List.prefix_refl _) hrun
  have hlength : s.replayRecorder.playerEntityMapping.length =
      (os.flatMap Out.assigned).length := by
    rw [← assigned_of_runServer hbefore, ← (recorded_of_run hbefore).mapping, List.length_map]
  have hmoves : ∀ p, t.replayRecorder.movesBefore p s.world.tick =
      s.replayRecorder.movesBefore p s.world.tick := by
    intro p
    have hnone : (more.filter fun a => a.playerId = p ∧ a.tick < s.world.tick) = [] := by
      refine List.filter_eq_nil_iff.2 fun a ha hlt => ?_
      have hlt := UInt64.lt_iff_toNat_lt.1 (of_decide_eq_true hlt).2
      have := hle a ha
      omega
    rw [ReplayRecorder.movesBefore, hmore, List.filter_append, hnone, List.append_nil]
    rfl
  rw [ReplayRecorder.entitiesAt, ReplayRecorder.entitiesAt, ← List.map_take, ← hlength,
    ← List.prefix_iff_eq_take.1 hprefix]
  simp only [hmoves]

/-- Every broadcast snapshot and the final digest of a run with distinct players are what the
recorded inputs alone tell. -/
theorem travelled {config : ServerConfig} (hids : config.Distinct) {ops : List (Op F)}
    {s : Server F} {outs : List (Out F)} (hrun : runServer config ops = .ok (s, outs))
    (reason : EndReason) : Travelled config.rules.dtSeconds outs s reason where
  snapshots := by
    rintro before after snapshot floor bytes rfl
    obtain ⟨s₀, hnew, hrun⟩ := bind_eq_ok.1 hrun
    obtain ⟨ops₁, op, ops₂, u, v, rfl, hbefore, hexec, hafter⟩ := Machine.run_split_output hrun
    have hrun₁ : runServer config (ops₁ ++ [op]) =
        .ok (v, before ++ [.stepped snapshot floor bytes]) :=
      bind_eq_ok.2 ⟨s₀, hnew, Machine.run_append_eq_ok.2
        ⟨u, before, _, hbefore, Machine.run_singleton hexec, rfl⟩⟩
    have hsnapshot := Server.snapshot_of_exec hexec
    have hentities := entitiesAt_of_run hrun₁ hafter config.rules.dtSeconds
    have hnone : [Out.stepped snapshot floor bytes].flatMap Out.assigned = [] := rfl
    rw [← sortedEntitySnapshots_of_run hids hrun₁, List.flatMap_append, hnone,
      List.append_nil] at hentities
    rw [hsnapshot]
    exact hentities
  finalDigest := by
    change s.world.stateDigest = _
    rw [World.stateDigest_eq, sortedEntitySnapshots_of_run hids hrun]

/-- Two sessions, the second of which joins after a step and the first of which moves, leaves
and has its last intent forgotten. -/
theorem travelled_of_late_join : ∃ s outs,
    runServer (F := ℚ) { testPlayerIds := some [17, 99], tickRateHz := 60 } [.acceptSession,
      .welcomeFor 1, .step, .acceptSession, .receiveInput 1 ⟨2, 1, [1, 0]⟩, .step, .step,
      .disconnectSession 1, .step] = .ok (s, outs) ∧
    Travelled (1 / 60) outs s .complete ∧
    s.replayRecorder.entitiesAt (1 / 60) 3 =
      [⟨1, (1 / 12, 0), (5, 0)⟩, ⟨2, (0, 0), (0, 0)⟩] := by
  have h : (runServer (F := ℚ) { testPlayerIds := some [17, 99], tickRateHz := 60 }
      [.acceptSession, .welcomeFor 1, .step, .acceptSession, .receiveInput 1 ⟨2, 1, [1, 0]⟩,
        .step, .step, .disconnectSession 1, .step]).map
      (fun x => x.1.replayRecorder.entitiesAt (1 / 60) 3) =
        .ok [⟨1, (1 / 12, 0), (5, 0)⟩, ⟨2, (0, 0), (0, 0)⟩] := by
    decide +kernel
  obtain ⟨⟨s, outs⟩, hrun, hentities⟩ := map_eq_ok.1 h
  have hids : ServerConfig.Distinct { testPlayerIds := some [17, 99], tickRateHz := 60 } := by
    rintro ids heq
    obtain rfl := Option.some.inj heq
    decide
  exact ⟨s, outs, hrun, travelled hids hrun .complete, hentities⟩

end Flowstate
