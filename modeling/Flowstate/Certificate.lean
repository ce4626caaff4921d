import Flowstate.Mirror

/-!
# The replay and what the players saw

A verifier that accepts the artifact of a match has replayed what its players saw : whatever a
client has shown at a tick after the first step, the verifier's world of that tick is the one
it showed (`shown_of_verifyReplay`).
-/

set_option linter.unusedSectionVars false

open Rust

namespace Flowstate

variable {F : Type} [F64 F]

/-- In a run that joins first, the verifier replays every world after a step. -/
theorem JoinsFirst.verifyWorld_of_visited {config : ServerConfig} {calls : List (Op F)}
    {t : Server F} {outs : List (Out F)} (h : JoinsFirst calls)
    (hrun : runServer config calls = .ok (t, outs)) (hnodup : t.entitySpawnOrder.Nodup)
    {u : Server F} (hu : Visited config calls u) (htick : 0 < u.world.tick.toNat) :
    verifyWorld (t.finalize .complete) u.world.tick.toNat = .ok u.world := by
  obtain ⟨joins, rest, rfl, hjoins, hrest⟩ := h.split
  obtain ⟨before, after, os, hsplit, hbefore⟩ := hu.exists_runServer
  -- A world after a step is behind the joins.
  rw [tick_of_runServer hbefore] at htick
  obtain ⟨mid, rfl, rfl⟩ : ∃ mid, before = joins ++ mid ∧ rest = mid ++ after := by
    rcases List.append_eq_append_iff.1 hsplit with ⟨mid, rfl, rfl⟩ | ⟨mid, rfl, rfl⟩
    · exact ⟨mid, rfl, rfl⟩
    · obtain ⟨op, hop, hstep⟩ := List.countP_pos_iff.1 htick
      have hop' : op = .step := by cases op <;> first | rfl | cases hstep
      exact absurd (List.mem_append_left _ (hop' ▸ hop)) hjoins
  obtain ⟨s₁, _, _, hjoin, hmid, -⟩ := runServer_append hbefore
  rw [← List.append_assoc] at hrun
  obtain ⟨u', _, _, hbefore', hafter, -⟩ := runServer_append hrun
  obtain rfl := (Prod.mk.inj (Except.ok.inj (hbefore.symm.trans hbefore'))).1
  obtain ⟨hstart, -⟩ := Lockstep.of_joins hjoin hjoins
  have hs := hstart.run hmid fun hmem => hrest (List.mem_append_left _ hmem)
  have ht := hs.run hafter fun hmem => hrest (List.mem_append_right _ hmem)
  obtain ⟨hticks, more, hmore, hle⟩ := tick_of_run hafter
  have hrecorded : t.baselineRecorded = true := by
    by_contra hnot
    have hzero := (recorded_of_run hrun).unstepped (by simpa using hnot)
    rw [hzero, UInt64.toNat_zero] at hticks
    rw [tick_of_runServer hbefore] at hticks
    omega
  exact hs.verifyWorld_finalize ht hrecorded (tickRateHz_ne_zero hrun) hnodup hmore hle (by omega)

/-- A run whose artifact verifies has joined first. -/
theorem joinsFirst_of_verifyReplay {config : ServerConfig} {calls : List (Op F)} {t : Server F}
    {outs : List (Out F)} (hrun : runServer config calls = .ok (t, outs))
    {options : VerifyOptions} (hverify : verifyReplay (t.finalize .complete) options = .ok ()) :
    JoinsFirst calls := by
  obtain ⟨-, world, hworld, -⟩ := verifyReplay_eq_ok.1 hverify
  obtain ⟨baseline, -, -, hvalid, -⟩ := verifyWorld_eq_ok.1 hworld
  rintro before after rfl
  exact not_joined_later hrun (nodup_of_verifyReplay hrun hverify) hvalid

theorem runSystem_append {d : Decoder F} {config : ServerConfig} {ops ops' : List SystemOp}
    {s t : System F} {outs outs' : List (Option (LoopOut F))}
    (hrun : runSystem d config ops = .ok (s, outs))
    (hrest : (systemMachine d).run s ops' = .ok (t, outs')) :
    runSystem d config (ops ++ ops') = .ok (t, outs ++ outs') ∧
      (ops ++ ops').zip (outs ++ outs') = ops.zip outs ++ ops'.zip outs' := by
  obtain ⟨s₀, hnew, hrun⟩ := bind_eq_ok.1 hrun
  exact ⟨bind_eq_ok.2 ⟨s₀, hnew, Machine.run_append_eq_ok.2 ⟨s, outs, outs', hrun, hrest, rfl⟩⟩,
    List.zip_append (Machine.length_of_run hrun).symm⟩

/-- What the loop returns is the artifact of its server. -/
theorem TickLoop.eq_finalize {l : TickLoop F} {a : ReplayArtifact F}
    (h : l.result = some (.ok a)) : a = l.server.finalize .complete := by
  unfold TickLoop.result at h
  split at h
  · rename_i reason _
    cases reason
    exact (Except.ok.inj (Option.some.inj h)).symm
  · cases h
  · cases h

/-- What a client showed at a tick after the first step is what a verifier that accepts the
match's artifact finds at that tick. -/
theorem shown_of_verifyReplay {d : Decoder F} {config : ServerConfig}
    (hfits : config.matchDurationTicks.toNat + config.inputLeadTicks.toNat < 2 ^ 63)
    {ops ops' : List SystemOp} {s t : System F} {outs outs' : List (Option (LoopOut F))}
    (hrun : runSystem d config ops = .ok (s, outs))
    (hrest : (systemMachine d).run s ops' = .ok (t, outs')) {a : ReplayArtifact F}
    (hresult : t.edge.loop.result = some (.ok a)) {options : VerifyOptions}
    (hverify : verifyReplay a options = .ok ()) {c : Client F} (hc : c ∈ s.clients)
    (hready : c.scene.networkClient.state = .ready)
    (hlatest : 0 < c.scene.matchState.latestTick.toInt) :
    ∃ (k : ℕ) (w : World F), c.scene.matchState.latestTick.toInt = k ∧ k ≤ a.checkpointTick.toNat ∧
      verifyWorld a k = .ok w ∧ c.scene.matchState.entities = w.entries := by
  obtain ⟨u, hu, hdisplays⟩ := exists_displays hrun hfits hc hready
  obtain ⟨hwhole, hzip⟩ := runSystem_append hrun hrest
  obtain ⟨messages, hsynced⟩ := Synced.of_run hwhole
  obtain ⟨os, hserver⟩ := hsynced.run
  rw [hzip, List.flatMap_append] at hserver
  have hu := hu.append ((ops'.zip outs').flatMap (systemCalls d))
  obtain rfl := TickLoop.eq_finalize hresult
  have hnodup := nodup_of_verifyReplay hserver hverify
  have hjoins := joinsFirst_of_verifyReplay hserver hverify
  rw [hdisplays.tick] at hlatest
  refine ⟨u.world.tick.toNat, u.world, hdisplays.tick, hu.tick_le hserver,
    hjoins.verifyWorld_of_visited hserver hnodup hu (by omega), hdisplays.entities⟩

/-- A match of one tick, whose snapshot reaches the only client. -/
theorem shown_of_verifyReplay_one_tick : ∃ s outs a,
    runSystem oneCommand { matchDurationTicks := 1 } [.serve (.event (.connect 0)),
      .serve (.event (.receive 0 channelControl [])), .frame 0 [.connect, .control, .control],
      .serve (.idle false), .serve (.idle false), .frame 0 [.realtime 0]] = .ok (s, outs) ∧
    s.edge.loop.result = some (.ok a) ∧
    ∃ c ∈ s.clients, ∃ (k : ℕ) (w : World ℚ), c.scene.matchState.latestTick.toInt = k ∧
      k ≤ a.checkpointTick.toNat ∧ verifyWorld a k = .ok w ∧
      c.scene.matchState.entities = w.entries := by
  have h : (runSystem oneCommand { matchDurationTicks := 1 } [.serve (.event (.connect 0)),
      .serve (.event (.receive 0 channelControl [])), .frame 0 [.connect, .control, .control],
      .serve (.idle false), .serve (.idle false), .frame 0 [.realtime 0]]).map (fun x =>
        (x.1.edge.loop.phase, verifyReplay (x.1.edge.loop.server.finalize .complete) ⟨true, none⟩,
          x.1.clients.map fun c =>
            (c.scene.networkClient.state, c.scene.matchState.latestTick))) =
      .ok (.ended .complete, .ok (), [(.ready, 1)]) := by
    decide +kernel
  obtain ⟨⟨s, outs⟩, hrun, heq⟩ := map_eq_ok.1 h
  obtain ⟨hphase, hverify, hclients⟩ : _ ∧ _ ∧ _ := by simpa only [Prod.mk.injEq] using heq
  have hresult : s.edge.loop.result = some (.ok (s.edge.loop.server.finalize .complete)) := by
    rw [TickLoop.result, hphase]
  obtain ⟨c, hc, hcl⟩ := List.exists_of_mem_map (hclients ▸ List.mem_singleton_self _)
  obtain ⟨hready, htick⟩ := Prod.mk.inj hcl
  exact ⟨s, outs, _, hrun, hresult, c, hc, shown_of_verifyReplay (by decide) hrun
    (Machine.run_nil s) hresult hverify hc hready (by rw [htick]; decide)⟩

end Flowstate
