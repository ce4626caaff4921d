import Flowstate.Refinement

/-!
# Joining

The ordinal of the next accept is a `u8` that only grows. Without test player ids it is the
player id, so the players of a server are `0, 1, 2, …` in order of joining
(`spawnOrder_of_runServer`) and no two are the same. An accept below the cap on live
sessions therefore completes with a new player id exactly while fewer than 255 have been
made before it, however many sessions have left in between (`accept_fresh_iff`).
-/

set_option linter.unusedSectionVars false

open Rust

namespace Flowstate

variable {F : Type} [F64 F]

/-- The player ids of the ordinals below `n`. -/
def ordinals (n : ℕ) : List PlayerId := (List.range n).map UInt8.ofNat

theorem nodup_ordinals {n : ℕ} (hn : n < 2 ^ 8) : (ordinals n).Nodup := by
  refine (List.nodup_map_iff_inj_on List.nodup_range).2 fun i hi j hj hij => ?_
  rw [List.mem_range] at hi hj
  have hij := congrArg UInt8.toNat hij
  rwa [UInt8.toNat_ofNat_of_lt' (hi.trans hn), UInt8.toNat_ofNat_of_lt' (hj.trans hn)] at hij

theorem ordinals_succ (p : PlayerId) : ordinals (p.toNat + 1) = ordinals p.toNat ++ [p] := by
  rw [ordinals, List.range_succ, List.map_append, List.map_singleton, UInt8.ofNat_toNat]
  rfl

/-- Without test player ids the players are the ordinals given out so far. -/
theorem spawnOrder_of_runServer {config : ServerConfig} {ops : List (Op F)} {s : Server F}
    {outs : List (Out F)} (htest : config.testPlayerIds = none)
    (hrun : runServer config ops = .ok (s, outs)) :
    s.entitySpawnOrder = ordinals s.nextPlayerId.toNat := by
  refine (runServer_invariant (P := fun u : Server F => u.config.testPlayerIds = none ∧
    u.entitySpawnOrder = ordinals u.nextPlayerId.toNat) ?_ ?_ hrun).2
  · intro u hnew
    obtain ⟨-, rfl⟩ := Server.new_eq_ok.1 hnew
    exact ⟨htest, rfl⟩
  · rintro u op u' o ⟨hnone, horder⟩ hexec
    obtain ⟨hconfig, horder', ⟨hnil, hnext⟩ | ⟨p, hp, hassign, hnext⟩⟩ := Server.exec_frame hexec
    · exact ⟨hconfig ▸ hnone, by rw [horder', hnil, List.append_nil, horder, hnext]⟩
    · obtain rfl : u.nextPlayerId = p :=
        Except.ok.inj ((Server.assignPlayerId_of_none hnone).symm.trans hassign)
      exact ⟨hconfig ▸ hnone, by rw [horder', hp, horder, hnext, ordinals_succ]⟩

/-- An accept below the cap completes, with a player id not assigned before, exactly if
fewer than 255 accepts were made before it. -/
theorem accept_fresh_iff {config : ServerConfig} {ops : List (Op F)} {s : Server F}
    {outs : List (Out F)} (htest : config.testPlayerIds = none)
    (hrun : runServer config ops = .ok (s, outs)) (hcap : s.sessionCount < config.maxSessions) :
    (∃ s' sid p e, s.acceptSession = .ok (s', sid, p, e) ∧ p ∉ outs.flatMap Out.assigned) ↔
      accepts ops < 255 := by
  have horder := spawnOrder_of_runServer htest hrun
  have hnodup : s.entitySpawnOrder.Nodup := horder ▸ nodup_ordinals s.nextPlayerId.toNat_lt
  obtain ⟨m, mouts, hm, -, hrel, hconfig⟩ := runServer_refines hrun hnodup
  have hcount : s.nextPlayerId.toNat = accepts ops := by
    rw [hrel.nextPlayerId, Match.joined_of_run hm, Match.new, Nat.zero_add]
  have hassign : s.assignPlayerId s.nextPlayerId = .ok s.nextPlayerId :=
    Server.assignPlayerId_of_none (hconfig ▸ htest)
  have hassigned : outs.flatMap Out.assigned = ordinals s.nextPlayerId.toNat := by
    rw [← horder, assigned_of_runServer hrun]
  constructor
  · rintro ⟨s', sid, p, e, hs, -⟩
    obtain ⟨-, -, -, nextSid, nextPid, world, -, hnext, -, -⟩ := Server.acceptSession_eq_ok.1 hs
    have := nextPid.toNat_lt
    omega
  · intro hlt
    obtain ⟨s', sid, e, hs⟩ := hrel.exists_accept (hconfig ▸ hcap) (by omega) hassign
    refine ⟨s', sid, s.nextPlayerId, e, hs, fun hmem => ?_⟩
    rw [hassigned] at hmem
    obtain ⟨i, hi, heq⟩ := List.mem_map.1 hmem
    rw [List.mem_range] at hi
    have heq := congrArg UInt8.toNat heq
    rw [UInt8.toNat_ofNat_of_lt' (hi.trans s.nextPlayerId.toNat_lt)] at heq
    omega

/-- Two of three sessions have left a server that has room for two. The next one to join gets an
id that none of them had. -/
theorem accept_fresh_after_leave : ∃ s outs,
    runServer (F := ℚ) { maxSessions := 2 } [.acceptSession, .acceptSession, .step,
      .disconnectSession 1, .acceptSession, .step, .disconnectSession 3] = .ok (s, outs) ∧
    outs.flatMap Out.assigned = [0, 1, 2] ∧
    ∃ s' sid p e, s.acceptSession = .ok (s', sid, p, e) ∧ p ∉ outs.flatMap Out.assigned := by
  have h : (runServer (F := ℚ) { maxSessions := 2 } [.acceptSession, .acceptSession, .step,
      .disconnectSession 1, .acceptSession, .step, .disconnectSession 3]).map (fun x =>
        (x.1.sessionCount, x.2.flatMap Out.assigned)) = .ok (1, [0, 1, 2]) := by
    decide +kernel
  obtain ⟨⟨s, outs⟩, hs, heq⟩ := map_eq_ok.1 h
  obtain ⟨hcount, hassigned⟩ := Prod.mk.inj heq
  exact ⟨s, outs, hs, hassigned,
    (accept_fresh_iff rfl hs (by rw [hcount]; decide)).2 (by decide)⟩

/-- After 255 sessions have come and gone, nobody is live and the next accept overflows. -/
theorem accept_overflows : ∃ s outs,
    runServer (F := ℚ) {} ((List.range 255).flatMap fun i =>
      [.acceptSession, .disconnectSession (UInt64.ofNat (i + 1))]) = .ok (s, outs) ∧
    s.sessionCount = 0 ∧ s.acceptSession.map (fun _ => ()) = .error addOverflow := by
  have h : (runServer (F := ℚ) {} ((List.range 255).flatMap fun i =>
      [.acceptSession, .disconnectSession (UInt64.ofNat (i + 1))])).map (fun x =>
        (x.1.sessionCount, x.1.acceptSession.map fun _ => ())) = .ok (0, .error addOverflow) := by
    decide +kernel
  obtain ⟨⟨s, outs⟩, hs, heq⟩ := map_eq_ok.1 h
  exact ⟨s, outs, hs, Prod.mk.inj heq⟩

end Flowstate
