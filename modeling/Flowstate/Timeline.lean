import Flowstate.Coherence

/-!
# The worlds of one match

A run takes its server through a sequence of worlds. Between two steps a world only gains
characters, at its end, and a step moves the characters that are there. So of two worlds of
one match that are at the same tick one begins with the other (`Visited.characters_of_tick_eq`), and
whoever is in a world is in every world of a later tick (`Visited.ids_of_tick_lt`).
-/

set_option linter.unusedSectionVars false

open Rust

namespace Flowstate

variable {F : Type} [F64 F]

/-- A server configured by `config` goes through `u` in a run of `calls`. -/
def Visited (config : ServerConfig) (calls : List (Op F)) (u : Server F) : Prop :=
  ∃ s₀, Server.new config = .ok s₀ ∧ (serverMachine F).Visits s₀ calls u

variable {config : ServerConfig} {calls : List (Op F)} {u v : Server F}

theorem visited_of_runServer {outs : List (Out F)} (hrun : runServer config calls = .ok (u, outs)) :
    Visited config calls u := by
  obtain ⟨s₀, hnew, hrun⟩ := bind_eq_ok.1 hrun
  exact ⟨s₀, hnew, Machine.visits_of_run hrun⟩

namespace Visited

theorem append (h : Visited config calls u) (calls' : List (Op F)) :
    Visited config (calls ++ calls') u := by
  obtain ⟨s₀, hnew, hu⟩ := h
  exact ⟨s₀, hnew, hu.append calls'⟩

theorem exists_runServer (h : Visited config calls u) :
    ∃ before after outs, calls = before ++ after ∧ runServer config before = .ok (u, outs) := by
  obtain ⟨s₀, hnew, before, after, outs, rfl, hrun⟩ := h
  exact ⟨before, after, outs, rfl, bind_eq_ok.2 ⟨s₀, hnew, hrun⟩⟩

theorem config_eq (h : Visited config calls u) : u.config = config := by
  obtain ⟨before, after, outs, -, hrun⟩ := h.exists_runServer
  exact (config_of_runServer hrun).1

theorem ordered (h : Visited config calls u) : Ordered u.world := by
  obtain ⟨before, after, outs, -, hrun⟩ := h.exists_runServer
  exact ordered_of_runServer hrun

/-- A run leads from the one to the other. -/
theorem total (hu : Visited config calls u) (hv : Visited config calls v) :
    (∃ mid outs, (serverMachine F).run u mid = .ok (v, outs)) ∨
      ∃ mid outs, (serverMachine F).run v mid = .ok (u, outs) := by
  obtain ⟨s₀, hnew, hu⟩ := hu
  obtain ⟨s₀', hnew', hv⟩ := hv
  obtain rfl := Except.ok.inj (hnew.symm.trans hnew')
  exact hu.total hv

/-- A run goes on from every state it goes through. -/
theorem exists_run {s : Server F} {outs : List (Out F)} (hu : Visited config calls u)
    (hrun : runServer config calls = .ok (s, outs)) :
    ∃ after os, (serverMachine F).run u after = .ok (s, os) := by
  obtain ⟨before, after, os, rfl, hbefore⟩ := hu.exists_runServer
  obtain ⟨u', _, os', hbefore', hafter, -⟩ := runServer_append hrun
  obtain rfl := (Prod.mk.inj (Except.ok.inj (hbefore.symm.trans hbefore'))).1
  exact ⟨after, os', hafter⟩

/-- No state of a run is past its end. -/
theorem tick_le {s : Server F} {outs : List (Out F)} (hu : Visited config calls u)
    (hrun : runServer config calls = .ok (s, outs)) :
    u.world.tick.toNat ≤ s.world.tick.toNat := by
  obtain ⟨after, os, hafter⟩ := hu.exists_run hrun
  rw [(tick_of_run hafter).1]
  exact Nat.le_add_right _ _

end Visited

/-! ## What a call does to the world -/

/-- The world gains characters at its end, or moves those that are there. -/
theorem Ordered.world_of_exec {s s' : Server F} (h : Ordered s.world) {op : Op F} {o : Out F}
    (hexec : s.exec op = .ok (s', o)) : s.world.ids <+: s'.world.ids ∧
      (op ≠ .step → s.world.characters <+: s'.world.characters) := by
  by_cases haccept : op = .acceptSession
  · subst haccept
    obtain ⟨sid, p, e, hs, rfl⟩ := Server.exec_acceptSession.1 hexec
    obtain ⟨-, -, -, nextSid, nextPid, world, -, -, hspawn, rfl⟩ := Server.acceptSession_eq_ok.1 hs
    obtain ⟨-, -, hcharacters⟩ := h.spawn hspawn
    have hbegins : s.world.characters <+: world.characters :=
      hcharacters ▸ List.prefix_append _ _
    exact ⟨hbegins.map _, fun _ => hbegins⟩
  · by_cases hstep : op = .step
    · subst hstep
      obtain ⟨snapshot, floor, bytes, hs, rfl⟩ := Server.exec_step.1 hexec
      obtain ⟨next, -, -, rfl, -, -⟩ := Server.step_eq_ok.1 hs
      have hids : (s.steppedWorld next).ids = s.world.ids := ids_foldl_applyMovement s.stepInputs _
      exact ⟨hids ▸ List.prefix_rfl, fun hne => absurd rfl hne⟩
    · obtain ⟨_, _, _, _, _, _, rfl⟩ := Server.exec_quiet hexec haccept hstep
      exact ⟨List.prefix_rfl, fun _ => List.prefix_rfl⟩

theorem ids_of_run : ∀ {ops : List (Op F)} {s t : Server F} {outs : List (Out F)},
    Ordered s.world → (serverMachine F).run s ops = .ok (t, outs) → s.world.ids <+: t.world.ids
  | [], s, t, outs, h, hrun => by
    obtain ⟨rfl, -⟩ : s = t ∧ [] = outs := by simpa using hrun
    exact List.prefix_rfl
  | op :: ops, s, t, outs, h, hrun => by
    obtain ⟨s', o, os, hexec, hrest, -⟩ := Machine.run_cons_eq_ok.1 hrun
    exact (h.world_of_exec hexec).1.trans (ids_of_run (h.exec hexec).1 hrest)

/-- Where the tick is the same there was no step. -/
theorem characters_of_run : ∀ {ops : List (Op F)} {s t : Server F} {outs : List (Out F)},
    Ordered s.world → (serverMachine F).run s ops = .ok (t, outs) →
      t.world.tick = s.world.tick → s.world.characters <+: t.world.characters
  | [], s, t, outs, h, hrun, _ => by
    obtain ⟨rfl, -⟩ : s = t ∧ [] = outs := by simpa using hrun
    exact List.prefix_rfl
  | op :: ops, s, t, outs, h, hrun, htick => by
    obtain ⟨s', o, os, hexec, hrest, -⟩ := Machine.run_cons_eq_ok.1 hrun
    have hle := (tick_of_run hrest).1
    rcases Server.exec_log hexec with ⟨-, hnext, -⟩ | ⟨hop, hsame, -⟩
    · rw [htick] at hle
      omega
    · exact ((h.world_of_exec hexec).2 hop).trans
        (characters_of_run (h.exec hexec).1 hrest (htick.trans hsame.symm))

namespace Visited

theorem ids_of_tick_lt (hu : Visited config calls u) (hv : Visited config calls v)
    (hlt : u.world.tick.toNat < v.world.tick.toNat) : u.world.ids <+: v.world.ids := by
  rcases hu.total hv with ⟨mid, outs, hmid⟩ | ⟨mid, outs, hmid⟩
  · exact ids_of_run hu.ordered hmid
  · have hle := (tick_of_run hmid).1
    omega

/-- Of two worlds at one tick one begins with the other. -/
theorem characters_of_tick_eq (hu : Visited config calls u) (hv : Visited config calls v)
    (htick : u.world.tick = v.world.tick) : u.world.characters <+: v.world.characters ∨
      v.world.characters <+: u.world.characters := by
  rcases hu.total hv with ⟨mid, outs, hmid⟩ | ⟨mid, outs, hmid⟩
  · exact .inl (characters_of_run hu.ordered hmid htick.symm)
  · exact .inr (characters_of_run hv.ordered hmid htick)

end Visited

end Flowstate
