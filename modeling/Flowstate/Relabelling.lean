import Flowstate.Refinement

/-!
# Player ids are only keys

Two configurations that differ only in their test player ids describe the same match, and
each server runs as that match. So the two servers answer every operation alike up to
player ids, byte for byte in the snapshots, and what one records is what the other records
for renamed players (`relabelling`).
-/

set_option linter.unusedSectionVars false

open Rust

namespace Flowstate

variable {F : Type} [F64 F]

/-- A recorded input with its player renamed. -/
def AppliedInput.rename (ρ : PlayerId → PlayerId) (a : AppliedInput F) : AppliedInput F :=
  { a with playerId := ρ a.playerId }

/-- The players of `t` are those of `s` renamed one to one, and so are the recorded inputs. -/
def Renamed (s t : Server F) : Prop :=
  ∃ ρ : PlayerId → PlayerId, Set.InjOn ρ {p | p ∈ s.entitySpawnOrder} ∧
    t.entitySpawnOrder = s.entitySpawnOrder.map ρ ∧
    t.replayRecorder.inputs = s.replayRecorder.inputs.map (AppliedInput.rename ρ)

/-- An output without its player id. -/
def Out.anonymous : Out F → Out F
  | .accepted sid _ e => .accepted sid 0 e
  | .welcomed welcome => .welcomed { welcome with playerId := 0 }
  | out => out

theorem Out.anonymous_named (config : ServerConfig) (o : Out F) :
    (o.named config).anonymous = o.anonymous := by
  cases o <;> rfl

/-- Two servers that run as one match differ by a renaming. -/
theorem Refines.renamed {s t : Server F} {m : Match F} (hs : Refines s m) (ht : Refines t m) :
    Renamed s t := by
  let ρ : PlayerId → PlayerId := fun p =>
    match m.order.find? fun sid => s.config.playerOf sid == p with
    | some sid => t.config.playerOf sid
    | none => p
  have hnodup := hs.nodup
  rw [hs.spawnOrder] at hnodup
  have hρ : ∀ sid ∈ m.order, ρ (s.config.playerOf sid) = t.config.playerOf sid := by
    intro sid hmem
    simp only [ρ, find?_key_eq hnodup hmem]
  refine ⟨ρ, ?_, ?_, ?_⟩
  · intro p hp q hq hpq
    rw [Set.mem_ofPred_eq, hs.spawnOrder] at hp hq
    obtain ⟨a, ha, rfl⟩ := List.mem_map.1 hp
    obtain ⟨b, hb, rfl⟩ := List.mem_map.1 hq
    rw [hρ a ha, hρ b hb] at hpq
    rw [ht.playerOf_inj ha hb hpq]
  · rw [ht.spawnOrder, hs.spawnOrder, List.map_map]
    exact List.map_congr_left fun sid hmem => (hρ sid hmem).symm
  · rw [ht.log, hs.log, List.map_map]
    refine List.map_congr_left fun a ha => ?_
    simp [AppliedInput.rename, Applied.toAppliedInput, hρ a.session (hs.logged a ha)]

/-- A new server runs as the match of its rules, or refuses a zero tick rate. -/
theorem runServer_resultRel {config : ServerConfig} {ops : List (Op F)}
    (hids : config.HasIds (accepts ops)) :
    (config.tickRateHz = 0 ∧ runServer config ops = .error ⟨"tick_rate_hz must be positive"⟩) ∨
    config.tickRateHz ≠ 0 ∧
      Machine.ResultRel Refines (fun os os' => os = os'.map (Out.named config))
        (runServer config ops) ((matchMachine F).run (Match.new config.rules) ops) := by
  by_cases hrate : config.tickRateHz = 0
  · exact .inl ⟨hrate, by simp [runServer, Server.new, World.new, hrate, bind, Except.bind]⟩
  · obtain ⟨s, hnew⟩ : ∃ s, (Server.new config : Except Panic (Server F)) = .ok s :=
      ⟨_, Server.new_eq_ok.2 ⟨hrate, rfl⟩⟩
    have hconfig : s.config = config := by
      rw [(Server.new_eq_ok.1 hnew).2]
    refine .inr ⟨hrate, ?_⟩
    rw [runServer, hnew]
    have hids' : s.config.HasIds ((Match.new s.config.rules : Match F).joined + accepts ops) := by
      rw [hconfig]
      simpa [Match.new] using hids
    have hrun := run_refines_of_hasIds (hconfig ▸ refines_new hnew) hids'
    rwa [hconfig] at hrun

/-- Two servers whose configurations differ only in their test player ids answer every
operation alike up to player ids, and record the same inputs for renamed players. -/
theorem relabelling (config : ServerConfig) (ids ids' : Option (List PlayerId))
    (ops : List (Op F))
    (hids : { config with testPlayerIds := ids }.HasIds (accepts ops))
    (hids' : { config with testPlayerIds := ids' }.HasIds (accepts ops)) :
    Machine.ResultRel Renamed (fun os os' => os.map Out.anonymous = os'.map Out.anonymous)
      (runServer { config with testPlayerIds := ids } ops)
      (runServer { config with testPlayerIds := ids' } ops) := by
  rcases runServer_resultRel hids with ⟨hrate, hs⟩ | ⟨hrate, hs⟩ <;>
    rcases runServer_resultRel hids' with ⟨hrate', ht⟩ | ⟨hrate', ht⟩
  · exact Machine.resultRel_error hs ht
  · exact absurd hrate hrate'
  · exact absurd hrate' hrate
  · refine (Machine.resultRel_of_common hs ht).imp ?_ ?_
    · rintro s t ⟨m, hs, ht⟩
      exact hs.renamed ht
    · rintro os os' ⟨mouts, rfl, rfl⟩
      simp only [List.map_map]
      exact List.map_congr_left fun o _ =>
        (Out.anonymous_named _ o).trans (Out.anonymous_named _ o).symm

theorem relabelling_17_99 :
    Machine.ResultRel Renamed (fun os os' => os.map Out.anonymous = os'.map Out.anonymous)
      (runServer { testPlayerIds := none } [.acceptSession, .acceptSession, .step, .step])
      (runServer { testPlayerIds := some [99, 17] }
        ([.acceptSession, .acceptSession, .step, .step] : List (Op ℚ))) :=
  relabelling {} none (some [99, 17]) _ ⟨by decide, by simp⟩
    ⟨by decide, by rintro _ ⟨⟩; exact ⟨by decide, by decide⟩⟩

end Flowstate
