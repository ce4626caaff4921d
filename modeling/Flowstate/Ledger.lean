import Flowstate.Lockstep

/-!
# The replay log

The log says what happened, once each (`Ledger`). A step appends one entry per player of the
roster, all of the tick it leaves, and nothing else touches the log. So the entries of a
player count up from the tick it was accepted at (`ticks_of_run`), and those of a tick are
the inputs the world was advanced with.
-/

set_option linter.unusedSectionVars false

open Rust

namespace Flowstate

variable {F : Type} [F64 F]

namespace ReplayRecorder

/-- The ticks of the entries of a player, in the order of the log. -/
def ticksOf (r : ReplayRecorder F) (p : PlayerId) : List Tick :=
  (r.inputs.filter fun a => a.playerId = p).map AppliedInput.tick

/-- What the log holds for a tick, each entry's player and direction, sorted by player. -/
def stepInputsAt (r : ReplayRecorder F) (t : Tick) : List (StepInput F) :=
  sortByKey (fun i => i.playerId.toNat)
    ((r.inputs.filter fun a => a.tick = t).map fun a => ⟨a.playerId, a.moveDir⟩)

end ReplayRecorder

/-- What the log of `t` says of the run that led to `t`. -/
structure Ledger (config : ServerConfig) (ops : List (Op F)) (outs : List (Out F))
    (t : Server F) : Prop where
  /-- A player accepted at tick `j` has one entry for each tick from `j` on, in order. -/
  entries : ∀ before after s os sid p e os', ops = before ++ .acceptSession :: after →
    runServer config before = .ok (s, os) → outs = os ++ .accepted sid p e :: os' →
      t.replayRecorder.ticksOf p = rangeU64 s.world.tick t.world.tick
  ordered : t.replayRecorder.inputs.Pairwise fun a b => a.tick ≤ b.tick
  accepted : ∀ a ∈ t.replayRecorder.inputs, ∃ sid e, .accepted sid a.playerId e ∈ outs
  /-- The step of a tick advances the world with the entries of the tick. -/
  advanced : ∀ before after s os, ops = before ++ .step :: after →
    runServer config before = .ok (s, os) →
      s.step = s.world.advance s.world.tick (t.replayRecorder.stepInputsAt s.world.tick) >>=
        fun x => addU64 x.1.tick s.config.inputLeadTicks >>= fun floor =>
          .ok (s.stepped x.1 floor, x.2, floor, Server.snapshotBytes x.2 floor)
  /-- Every tick gone by had its step. -/
  stepped : ∀ j < t.world.tick.toNat, ∃ before after s os, ops = before ++ .step :: after ∧
    runServer config before = .ok (s, os) ∧ s.world.tick.toNat = j

/-! ## One player -/

/-- Each step gives a player of the roster one entry. -/
theorem Server.ticks_appliedInputs {s : Server F} (hnodup : s.entitySpawnOrder.Nodup)
    {p : PlayerId} (hp : p ∈ s.entitySpawnOrder) :
    (s.appliedInputs.filter fun a => a.playerId = p).map AppliedInput.tick = [s.world.tick] := by
  have hplayers : s.appliedInputs.map AppliedInput.playerId = s.entitySpawnOrder :=
    playerId_produceInputs ..
  have hlen : (s.appliedInputs.filter fun a => a.playerId = p).length = 1 := by
    rw [← List.countP_eq_length_filter, ← List.count_eq_one_of_mem hnodup hp, ← hplayers,
      List.count, List.countP_map]
    exact List.countP_congr fun a _ => by simp
  obtain ⟨a, ha⟩ := List.length_eq_one_iff.1 hlen
  have hmem : a ∈ s.appliedInputs :=
    List.mem_of_mem_filter (ha ▸ List.mem_singleton_self a : a ∈ s.appliedInputs.filter _)
  rw [ha, List.map_singleton, (mem_appliedInputs hmem).1]

/-- The roster only grows. -/
theorem Server.spawnOrder_prefix {s s' : Server F} {op : Op F} {o : Out F}
    (h : s.exec op = .ok (s', o)) : s.entitySpawnOrder <+: s'.entitySpawnOrder :=
  ⟨_, (exec_frame h).2.1.symm⟩

/-- From a server whose log has a player's entries up to date, a run keeps them so. -/
theorem ticks_of_run {j : Tick} {p : PlayerId} {ops : List (Op F)} {s t : Server F}
    {outs : List (Out F)} (hrun : (serverMachine F).run s ops = .ok (t, outs))
    (hp : p ∈ s.entitySpawnOrder) (hj : j.toNat ≤ s.world.tick.toNat)
    (hticks : s.replayRecorder.ticksOf p = rangeU64 j s.world.tick)
    (hnodup : t.entitySpawnOrder.Nodup) :
    t.replayRecorder.ticksOf p = rangeU64 j t.world.tick := by
  let P : Server F → Prop := fun u => p ∈ u.entitySpawnOrder ∧ j.toNat ≤ u.world.tick.toNat ∧
    (u.entitySpawnOrder.Nodup → u.replayRecorder.ticksOf p = rangeU64 j u.world.tick)
  have hstep : ∀ u op u' o, P u → u.exec op = .ok (u', o) → P u' := by
    rintro u op u' o ⟨hp, hj, hticks⟩ hexec
    have hpre := Server.spawnOrder_prefix hexec
    refine ⟨hpre.subset hp, ?_⟩
    rcases Server.exec_log hexec with ⟨-, hnext, hlog⟩ | ⟨-, hsame, hlog⟩
    · refine ⟨by omega, fun hnodup => ?_⟩
      have hnodup := hnodup.sublist hpre.sublist
      rw [rangeU64_succ hj hnext, ← hticks hnodup, ← Server.ticks_appliedInputs hnodup hp,
        ReplayRecorder.ticksOf, ReplayRecorder.ticksOf, hlog, List.filter_append, List.map_append]
    · rw [hsame, ReplayRecorder.ticksOf, hlog]
      exact ⟨hj, fun hnodup => hticks (hnodup.sublist hpre.sublist)⟩
  have hP : P s := ⟨hp, hj, fun _ => hticks⟩
  exact (Machine.run_invariant (P := P) hstep hP hrun).2.2 hnodup

/-! ## The whole log -/

theorem Out.mem_assigned {o : Out F} {p : PlayerId} :
    p ∈ o.assigned ↔ ∃ sid e, o = .accepted sid p e := by
  cases o <;> simp [assigned, eq_comm]

/-- What a step appends is later than all there is. -/
theorem Recorded.pairwise {config : ServerConfig} {ops : List (Op F)} {t : Server F}
    {outs : List (Out F)} (hrun : runServer config ops = .ok (t, outs)) :
    t.replayRecorder.inputs.Pairwise fun a b => a.tick ≤ b.tick := by
  refine (runServer_invariant (P := fun u : Server F => Recorded u ∧
    u.replayRecorder.inputs.Pairwise fun a b => a.tick ≤ b.tick) ?_ ?_ hrun).2
  · intro u hnew
    refine ⟨Recorded.new hnew, ?_⟩
    obtain ⟨-, rfl⟩ := Server.new_eq_ok.1 hnew
    exact List.Pairwise.nil
  · rintro u op u' o ⟨hrecorded, hordered⟩ hexec
    refine ⟨hrecorded.exec hexec, ?_⟩
    rcases Server.exec_log hexec with ⟨-, -, hlog⟩ | ⟨-, -, hlog⟩ <;> rw [hlog]
    · refine List.pairwise_append.2 ⟨hordered, ?_, fun a ha b hb => ?_⟩
      · refine List.pairwise_of_forall_mem_list fun a ha b hb => ?_
        rw [(Server.mem_appliedInputs ha).1, (Server.mem_appliedInputs hb).1,
          UInt64.le_iff_toNat_le]
      · rw [(Server.mem_appliedInputs hb).1, UInt64.le_iff_toNat_le]
        exact (hrecorded.past a ha).1.le
    · exact hordered

theorem exists_step : ∀ {ops : List (Op F)} {j : ℕ}, j < steps ops →
    ∃ before after, ops = before ++ .step :: after ∧ steps before = j
  | [], j, h => absurd h (Nat.not_lt_zero j)
  | op :: ops, j, h => by
    rw [steps_cons] at h
    by_cases hop : op = .step
    · subst hop
      have hone : steps [(.step : Op F)] = 1 := rfl
      rcases j with _ | j
      · exact ⟨[], ops, rfl, rfl⟩
      · have hj : j < steps ops := by omega
        obtain ⟨before, after, rfl, rfl⟩ := exists_step hj
        exact ⟨.step :: before, after, rfl, by rw [steps_cons, hone, Nat.add_comm]⟩
    · rw [steps_of_ne hop, Nat.zero_add] at h
      obtain ⟨before, after, rfl, rfl⟩ := exists_step h
      exact ⟨op :: before, after, rfl, by rw [steps_cons, steps_of_ne hop, Nat.zero_add]⟩

/-- The log of a run with distinct players is its ledger. -/
theorem ledger {config : ServerConfig} {ops : List (Op F)} {t : Server F} {outs : List (Out F)}
    (hrun : runServer config ops = .ok (t, outs)) (hnodup : t.entitySpawnOrder.Nodup) :
    Ledger config ops outs t where
  entries := by
    rintro before after s os sid p e os' rfl hbefore houts
    obtain ⟨u, o, os₁, hexec, hafter, rfl⟩ := runServer_split hrun hbefore
    obtain ⟨rfl, -⟩ := List.cons.inj (List.append_cancel_left houts)
    have hrecorded := recorded_of_run hbefore
    have horder := (Server.exec_frame hexec).2.1
    rcases Server.exec_log hexec with ⟨hop, -⟩ | ⟨-, htick, hlog⟩
    · cases hop
    have hpre : u.entitySpawnOrder <+: t.entitySpawnOrder := by
      rw [spawnOrder_of_run hafter]
      exact List.prefix_append _ _
    have hnew : p ∉ s.entitySpawnOrder := by
      have hnodup' := hnodup.sublist hpre.sublist
      rw [horder] at hnodup'
      exact List.disjoint_singleton.1 (List.disjoint_of_nodup_append hnodup')
    have hnone : u.replayRecorder.ticksOf p = [] := by
      rw [ReplayRecorder.ticksOf, hlog, List.map_eq_nil_iff, List.filter_eq_nil_iff]
      exact fun a ha hp => hnew (of_decide_eq_true hp ▸ (hrecorded.past a ha).2)
    rw [← htick]
    refine ticks_of_run hafter ?_ le_rfl ?_ hnodup
    · rw [horder]
      exact List.mem_append_right _ (List.mem_singleton_self p)
    · rw [hnone, rangeU64, Nat.sub_self]
      rfl
  ordered := Recorded.pairwise hrun
  accepted := by
    intro a ha
    have hplayer := ((recorded_of_run hrun).past a ha).2
    rw [assigned_of_runServer hrun] at hplayer
    obtain ⟨o, ho, hp⟩ := List.mem_flatMap.1 hplayer
    obtain ⟨sid, e, rfl⟩ := Out.mem_assigned.1 hp
    exact ⟨sid, e, ho⟩
  advanced := by
    rintro before after s os rfl hbefore
    obtain ⟨u, o, os₁, hexec, hafter, rfl⟩ := runServer_split hrun hbefore
    rcases Server.exec_log hexec with ⟨-, hnext, hlog⟩ | ⟨hop, -⟩
    · obtain ⟨-, more, hmore, hle⟩ := tick_of_run hafter
      have hinputs : t.replayRecorder.stepInputsAt s.world.tick = s.stepInputs := by
        rw [ReplayRecorder.stepInputsAt, hmore, hlog, (recorded_of_run hbefore).filter_tick]
        · rfl
        · intro a ha
          have := hle a ha
          omega
      rw [hinputs]
      rfl
    · exact absurd rfl hop
  stepped := by
    intro j hj
    rw [tick_of_runServer hrun] at hj
    obtain ⟨before, after, rfl, rfl⟩ := exists_step hj
    obtain ⟨s, os, _, hbefore, -⟩ := runServer_append hrun
    exact ⟨before, after, s, os, rfl, hbefore, tick_of_runServer hbefore⟩

/-- Two sessions, the second of which joins after a step and the first of which leaves. -/
theorem ledger_of_late_join : ∃ t outs,
    runServer (F := ℚ) {} [.acceptSession, .step, .acceptSession, .receiveInput 1 ⟨1, 1, [3, 4]⟩,
      .step, .disconnectSession 1, .step] = .ok (t, outs) ∧
    Ledger {} [.acceptSession, .step, .acceptSession, .receiveInput 1 ⟨1, 1, [3, 4]⟩, .step,
      .disconnectSession 1, .step] outs t := by
  have h : (runServer (F := ℚ) {} [.acceptSession, .step, .acceptSession,
      .receiveInput 1 ⟨1, 1, [3, 4]⟩, .step, .disconnectSession 1, .step]).map
        (fun x => x.1.entitySpawnOrder) = .ok [0, 1] := by
    decide +kernel
  obtain ⟨⟨t, outs⟩, ht, hplayers⟩ := map_eq_ok.1 h
  exact ⟨t, outs, ht, ledger ht (hplayers ▸ by decide)⟩

end Flowstate
