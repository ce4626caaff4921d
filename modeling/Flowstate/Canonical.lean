import Flowstate.Lockstep

/-!
# The order of the artifact

A replay artifact is to hold its inputs by tick and player, and its mapping by player. A step
sorts the inputs it advances the world with, but records them in the order of the roster,
and so does an accept record the mapping. The ticks of the log go up by themselves. The
players do within a tick, and in the mapping, if the roster is ascending, which it is unless
the configuration names its players in another order (`canonical_iff`).
-/

set_option linter.unusedSectionVars false

open Rust

namespace Flowstate

variable {F : Type} [F64 F]

/-- The artifact is in its canonical order. -/
structure Canonical (a : ReplayArtifact F) : Prop where
  inputs : a.inputs.Pairwise fun x y =>
    x.tick < y.tick ∨ x.tick = y.tick ∧ x.playerId < y.playerId
  mapping : a.playerEntityMapping.Pairwise fun x y => x.playerId < y.playerId
  tuning : a.tuningParameters.Pairwise fun x y => x.key < y.key

/-- The configuration gives the first `n` sessions ascending player ids. -/
def ServerConfig.Ascending (config : ServerConfig) (n : ℕ) : Prop :=
  ∀ ids, config.testPlayerIds = some ids → (ids.take n).Pairwise (· < ·)

instance (config : ServerConfig) (n : ℕ) : Decidable (config.Ascending n) :=
  match h : config.testPlayerIds with
  | none => .isTrue fun ids hids => by simp [h] at hids
  | some ids => decidable_of_iff ((ids.take n).Pairwise (· < ·)) ⟨fun hasc ids' hids' => by
      obtain rfl := Option.some.inj (h.symm.trans hids')
      exact hasc, fun hasc => hasc ids h⟩

/-! ## The roster -/

/-- An accept uses up one ordinal. -/
theorem Server.nextPlayerId_of_exec {s s' : Server F} {op : Op F} {o : Out F}
    (h : s.exec op = .ok (s', o)) :
    s'.nextPlayerId.toNat = s.nextPlayerId.toNat + accepts [op] := by
  by_cases haccept : op = .acceptSession
  · subst haccept
    obtain ⟨sid, p, e, hs, rfl⟩ := exec_acceptSession.1 h
    obtain ⟨-, -, -, nextSid, nextPid, world, -, hnext, -, rfl⟩ := acceptSession_eq_ok.1 hs
    exact hnext
  · by_cases hstep : op = .step
    · subst hstep
      obtain ⟨snapshot, floor, bytes, hs, rfl⟩ := exec_step.1 h
      obtain ⟨next, -, -, rfl, -, -⟩ := step_eq_ok.1 hs
      rfl
    · obtain ⟨_, _, _, _, _, _, rfl⟩ := exec_quiet h haccept hstep
      cases op with
      | acceptSession => exact absurd rfl haccept
      | welcomeFor | receiveInput | disconnectSession | step => rfl

theorem nextPlayerId_of_run : ∀ {ops : List (Op F)} {s t : Server F} {outs : List (Out F)},
    (serverMachine F).run s ops = .ok (t, outs) →
      t.nextPlayerId.toNat = s.nextPlayerId.toNat + accepts ops
  | [], s, t, outs, hrun => by
    obtain ⟨rfl, -⟩ : s = t ∧ [] = outs := by simpa using hrun
    rfl
  | op :: ops, s, t, outs, hrun => by
    obtain ⟨s', o, os, hexec, hrest, -⟩ := Machine.run_cons_eq_ok.1 hrun
    rw [nextPlayerId_of_run hrest, Server.nextPlayerId_of_exec hexec, accepts_cons op ops,
      Nat.add_assoc]

/-- The roster of a run is ascending if the ids it has used are. -/
theorem pairwise_roster_iff {config : ServerConfig} {ops : List (Op F)} {s : Server F}
    {outs : List (Out F)} (hrun : runServer config ops = .ok (s, outs)) :
    s.entitySpawnOrder.Pairwise (· < ·) ↔ config.Ascending (accepts ops) := by
  obtain ⟨horder, hlen⟩ := roster_of_runServer hrun
  have hnext : s.nextPlayerId.toNat = accepts ops := by
    obtain ⟨s₀, hnew, hrun⟩ := bind_eq_ok.1 hrun
    obtain ⟨-, rfl⟩ := Server.new_eq_ok.1 hnew
    rw [nextPlayerId_of_run hrun]
    exact Nat.zero_add _
  have hlt := s.nextPlayerId.toNat_lt
  rw [hnext] at horder hlen hlt
  rw [horder, ServerConfig.Ascending]
  rcases htest : config.testPlayerIds with _ | ids
  · refine iff_of_true (List.pairwise_map.2 (List.pairwise_lt_range.imp_of_mem ?_)) nofun
    intro i j hi hj hij
    rw [List.mem_range] at hi hj
    simp only [ServerConfig.playerAt, htest, UInt8.lt_iff_toNat_lt]
    rwa [UInt8.toNat_ofNat_of_lt' (hi.trans hlt), UInt8.toNat_ofNat_of_lt' (hj.trans hlt)]
  · have htake : (List.range (accepts ops)).map config.playerAt = ids.take (accepts ops) := by
      have hle := hlen ids htest
      refine List.ext_getElem (by simp [hle]) fun i hi _ => ?_
      rw [List.length_map, List.length_range] at hi
      simp [ServerConfig.playerAt, htest, List.getD, List.getElem?_eq_getElem (hi.trans_le hle)]
    rw [htake]
    constructor
    · rintro h _ ⟨⟩
      exact h
    · exact fun h => h ids rfl

/-! ## The log -/

/-- The order of the log : by tick, then by player. -/
def AppliedInput.Precedes (a b : AppliedInput F) : Prop :=
  a.tick < b.tick ∨ a.tick = b.tick ∧ a.playerId < b.playerId

/-- What a step records is in order, if its roster is ascending. -/
theorem Server.pairwise_appliedInputs {s : Server F} (h : s.entitySpawnOrder.Pairwise (· < ·)) :
    s.appliedInputs.Pairwise AppliedInput.Precedes := by
  have hplayers : s.appliedInputs.map AppliedInput.playerId = s.entitySpawnOrder :=
    playerId_produceInputs ..
  rw [← hplayers, List.pairwise_map] at h
  refine h.imp_of_mem fun ha hb hlt => .inr ⟨?_, hlt⟩
  rw [(mem_appliedInputs ha).1, (mem_appliedInputs hb).1]

theorem pairwise_inputs_of_run {config : ServerConfig} {ops : List (Op F)} {s : Server F}
    {outs : List (Out F)} (hrun : runServer config ops = .ok (s, outs))
    (h : s.entitySpawnOrder.Pairwise (· < ·)) :
    s.replayRecorder.inputs.Pairwise AppliedInput.Precedes := by
  let P : Server F → Prop := fun u => Recorded u ∧
    (u.entitySpawnOrder.Pairwise (· < ·) →
      u.replayRecorder.inputs.Pairwise AppliedInput.Precedes)
  have hstep : ∀ u op u' o, P u → u.exec op = .ok (u', o) → P u' := by
    rintro u op u' o ⟨hrecorded, hordered⟩ hexec
    refine ⟨hrecorded.exec hexec, fun hasc => ?_⟩
    have hasc : u.entitySpawnOrder.Pairwise (· < ·) := by
      rw [(Server.exec_frame hexec).2.1] at hasc
      exact (List.pairwise_append.1 hasc).1
    rcases Server.exec_log hexec with ⟨-, -, hlog⟩ | ⟨-, -, hlog⟩ <;> rw [hlog]
    · refine List.pairwise_append.2 ⟨hordered hasc, Server.pairwise_appliedInputs hasc, ?_⟩
      intro a ha b hb
      refine .inl (UInt64.lt_iff_toNat_lt.2 ?_)
      rw [(Server.mem_appliedInputs hb).1]
      exact (hrecorded.past a ha).1
    · exact hordered hasc
  have hstart : ∀ u, Server.new config = .ok u → P u := by
    intro u hnew
    refine ⟨Recorded.new hnew, fun _ => ?_⟩
    obtain ⟨-, rfl⟩ := Server.new_eq_ok.1 hnew
    exact List.Pairwise.nil
  exact (runServer_invariant hstart hstep hrun).2 h

theorem toUInt32_lt {p q : PlayerId} : p.toUInt32 < q.toUInt32 ↔ p < q := by
  rw [UInt32.lt_iff_toNat_lt, UInt8.toNat_toUInt32, UInt8.toNat_toUInt32, UInt8.lt_iff_toNat_lt]

/-- The mapping of the artifact is in order exactly if the roster is ascending. -/
theorem pairwise_mapping_iff {s : Server F} (h : Recorded s) (reason : EndReason) :
    ((s.finalize reason).playerEntityMapping.Pairwise fun x y => x.playerId < y.playerId) ↔
      s.entitySpawnOrder.Pairwise (· < ·) := by
  rw [← h.mapping, List.pairwise_map, Server.finalize, ReplayRecorder.finalize, List.pairwise_map]
  simp only [toUInt32_lt]

/-- The artifact is in its canonical order exactly if the player ids the run has given out are
ascending in the configuration. -/
theorem canonical_iff {config : ServerConfig} {ops : List (Op F)} {s : Server F}
    {outs : List (Out F)} (hrun : runServer config ops = .ok (s, outs)) (reason : EndReason) :
    Canonical (s.finalize reason) ↔ config.Ascending (accepts ops) := by
  have hrecorded := recorded_of_run hrun
  rw [← pairwise_roster_iff hrun]
  constructor
  · exact fun h => (pairwise_mapping_iff hrecorded reason).1 h.mapping
  · intro hasc
    refine ⟨?_, (pairwise_mapping_iff hrecorded reason).2 hasc, List.pairwise_singleton _ _⟩
    refine List.pairwise_map.2 ((pairwise_inputs_of_run hrun hasc).imp ?_)
    intro a b hab
    exact hab.imp_right fun h => ⟨h.1, toUInt32_lt.2 h.2⟩

/-- Two players in the order of their ids. -/
theorem canonical_17_99 : ∃ s outs,
    runServer (F := ℚ) { testPlayerIds := some [17, 99] } [.acceptSession, .acceptSession, .step] =
      .ok (s, outs) ∧ Canonical (s.finalize .complete) := by
  have h : (runServer (F := ℚ) { testPlayerIds := some [17, 99] }
      [.acceptSession, .acceptSession, .step]).map (fun x => x.1.entitySpawnOrder) =
        .ok [17, 99] := by
    decide +kernel
  obtain ⟨⟨s, outs⟩, hs, -⟩ := map_eq_ok.1 h
  exact ⟨s, outs, hs, (canonical_iff hs .complete).2 (by decide)⟩

/-- Two players in the other order : neither the inputs nor the mapping are in order. -/
theorem not_canonical_99_17 : ∃ s outs,
    ServerConfig.Distinct { testPlayerIds := some [99, 17] } ∧
    runServer (F := ℚ) { testPlayerIds := some [99, 17] } [.acceptSession, .acceptSession, .step] =
      .ok (s, outs) ∧
    (s.finalize .complete).inputs.map (fun x => (x.tick, x.playerId)) = [(0, 99), (0, 17)] ∧
    (s.finalize .complete).playerEntityMapping.map PlayerEntityMapping.playerId = [99, 17] ∧
    ¬Canonical (s.finalize .complete) := by
  have h : (runServer (F := ℚ) { testPlayerIds := some [99, 17] }
      [.acceptSession, .acceptSession, .step]).map (fun x =>
        ((x.1.finalize .complete).inputs.map fun x => (x.tick, x.playerId),
          (x.1.finalize .complete).playerEntityMapping.map PlayerEntityMapping.playerId)) =
        .ok ([(0, 99), (0, 17)], [99, 17]) := by
    decide +kernel
  obtain ⟨⟨s, outs⟩, hs, heq⟩ := map_eq_ok.1 h
  obtain ⟨hinputs, hmapping⟩ := Prod.mk.inj heq
  refine ⟨s, outs, fun ids hids => ?_, hs, hinputs, hmapping, fun hcanonical => ?_⟩
  · obtain rfl := Option.some.inj hids
    decide
  · have hpairs := List.pairwise_map.2 hcanonical.mapping
    rw [hmapping] at hpairs
    exact absurd hpairs (by decide)

end Flowstate
