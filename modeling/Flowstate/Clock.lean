import Flowstate.Hosting
import Flowstate.Pacing

/-!
# The clock of the tick loop

`tick_loop::run` reads a monotonic clock : for the accept deadline while it waits, and to pace
its ticks (LOOP-001). The clock is an input here, in nanoseconds. Where a drain is over, a
`Yield` says when the loop was done with it and when it went on after its sleep, and the loop
says when that can be. Without its clock it is the loop of `TickLoop.lean` (`Clocked.edge`).

The ticks are turns of a periodic worker (`Pacing.lean`), whatever the host yields : a match is
never hurried, lasts at least as long as its ticks, and keeps its rate if they are done in time
(`clocked`).
-/

set_option linter.unusedSectionVars false

open Rust

namespace Flowstate

variable {F : Type} [F64 F]

/-- The sleep between two drains of a loop that waits. -/
def waitPause : ℕ := 1000000

/-- What `host.service()` yields. Where it ends a drain, `done` is when what follows the drain
is done, and `woke` when the loop goes on. -/
inductive Yield
  | event (e : Event)
  | idle (done woke : ℕ)
  | error (done woke : ℕ)
deriving DecidableEq

/-- What is yielded, without the clock. -/
def Yield.untimed (acceptDeadline : ℕ) : Yield → Service
  | .event e => .event e
  | .idle _ woke => .idle (acceptDeadline ≤ woke)
  | .error _ woke => .error (acceptDeadline ≤ woke)

/-- The loop and its clock. -/
structure ClockedEdge (F : Type) where
  edge : Edge F
  nextTickAt : ℕ
  /-- When the loop last went on. -/
  clock : ℕ

/-- When the tick after one that is done at `now` is due. -/
def pace (tickInterval : ℕ) (nextTickAt now : ℕ) : ℕ :=
  let nextTickAt := nextTickAt + tickInterval
  -- Fell behind; resync instead of busy-looping catch-up ticks.
  if now < nextTickAt then nextTickAt else now

theorem pace_eq (tickInterval : ℕ) (nextTickAt now : ℕ) :
    pace tickInterval nextTickAt now = max (nextTickAt + tickInterval) now := by
  unfold pace
  dsimp only
  split_ifs with h
  · exact (max_eq_left h.le).symm
  · exact (max_eq_right (not_lt.1 h)).symm

namespace ClockedEdge

/-- The end of a drain, the loop having done what follows it. A sleep is never too short. -/
def rest (tickInterval : ℕ) (s : ClockedEdge F) (edge : Edge F) (o : LoopOut F)
    (done woke : ℕ) :
    Except LoopError (ClockedEdge F × (LoopOut F × Option (Beat ℕ))) :=
  match o with
  | .waited =>
    if s.clock ≤ done ∧ done + waitPause ≤ woke then .ok (⟨edge, woke, woke⟩, (o, none))
    else .error .impossible
  | .broadcast _ =>
    let nextTickAt := pace tickInterval s.nextTickAt done
    if s.clock ≤ done ∧ nextTickAt ≤ woke then
      .ok (⟨edge, nextTickAt, woke⟩, (o, some ⟨s.clock, done, nextTickAt, woke⟩))
    else .error .impossible
  | _ => .ok ({ s with edge }, (o, none))

def exec (d : Decoder F) (acceptDeadline : ℕ) (tickInterval : ℕ) (s : ClockedEdge F)
    (y : Yield) : Except LoopError (ClockedEdge F × (LoopOut F × Option (Beat ℕ))) := do
  let (edge, o) ← s.edge.exec d (y.untimed acceptDeadline)
  match y with
  | .event _ => return ({ s with edge }, (o, none))
  | .idle done woke | .error done woke => s.rest tickInterval edge o done woke

end ClockedEdge

/-- The loop with its clock as a machine. -/
def clockedMachine (d : Decoder F) (acceptDeadline : ℕ) (tickInterval : ℕ) :
    Machine (ClockedEdge F) Yield (LoopOut F × Option (Beat ℕ)) LoopError :=
  ⟨ClockedEdge.exec d acceptDeadline tickInterval⟩

/-- When the loop started at `start` gives up waiting. -/
def ServerConfig.acceptDeadline (config : ServerConfig) (start : ℕ) : ℕ :=
  start + config.connectTimeoutMs.toNat * 1000000

/-- Run a new loop, started at `start`, through what is yielded. -/
def runClocked (d : Decoder F) (config : ServerConfig) (tickInterval : ℕ) (start : ℕ)
    (ys : List Yield) :
    Except LoopError (ClockedEdge F × List (LoopOut F × Option (Beat ℕ))) := do
  let edge ← liftLoop (Edge.new config)
  (clockedMachine d (config.acceptDeadline start) tickInterval).run ⟨edge, start, start⟩ ys

/-- The ticks of a run. -/
def beats (outs : List (LoopOut F × Option (Beat ℕ))) : List (Beat ℕ) :=
  outs.filterMap Prod.snd

/-! ## What one yield does -/

/-- A tick is a broadcast and a turn of the loop, a wait starts the turns anew, and nothing
else is about the clock. -/
theorem ClockedEdge.exec_cases {d : Decoder F} {acceptDeadline : ℕ} {tickInterval : ℕ}
    {s s' : ClockedEdge F} {y : Yield} {o : LoopOut F} {b : Option (Beat ℕ)}
    (h : s.exec d acceptDeadline tickInterval y = .ok (s', (o, b))) :
    s.edge.exec d (y.untimed acceptDeadline) = .ok (s'.edge, o) ∧
      ((o.isBroadcast = true ∧ ∃ t, b = some t ∧ t.Keeps tickInterval s.nextTickAt s.clock ∧
          s'.nextTickAt = t.due ∧ s'.clock = t.woke) ∨
        (o = .waited ∧ b = none ∧ s'.nextTickAt = s'.clock ∧ s.clock ≤ s'.clock) ∨
        (o.isBroadcast = false ∧ b = none ∧ s'.nextTickAt = s.nextTickAt ∧ s'.clock = s.clock)) := by
  obtain ⟨⟨edge, out⟩, hexec, h⟩ := bind_eq_ok.1 h
  have hrest : ∀ done woke, s.rest tickInterval edge out done woke = .ok (s', (o, b)) →
      s.edge.exec d (y.untimed acceptDeadline) = .ok (s'.edge, o) ∧
      ((o.isBroadcast = true ∧ ∃ t, b = some t ∧ t.Keeps tickInterval s.nextTickAt s.clock ∧
          s'.nextTickAt = t.due ∧ s'.clock = t.woke) ∨
        (o = .waited ∧ b = none ∧ s'.nextTickAt = s'.clock ∧ s.clock ≤ s'.clock) ∨
        (o.isBroadcast = false ∧ b = none ∧ s'.nextTickAt = s.nextTickAt ∧
          s'.clock = s.clock)) := by
    intro done woke hrest
    unfold rest at hrest
    split at hrest
    · split_ifs at hrest with hclock
      obtain ⟨rfl, hpair⟩ := Prod.mk.inj (Except.ok.inj hrest)
      obtain ⟨rfl, rfl⟩ := Prod.mk.inj hpair
      have hle : s.clock ≤ woke := hclock.1.trans ((Nat.le_add_right _ _).trans hclock.2)
      exact ⟨hexec, .inr (.inl ⟨rfl, rfl, rfl, hle⟩)⟩
    · dsimp only at hrest
      split_ifs at hrest with hclock
      obtain ⟨rfl, hpair⟩ := Prod.mk.inj (Except.ok.inj hrest)
      obtain ⟨rfl, rfl⟩ := Prod.mk.inj hpair
      exact ⟨hexec, .inl ⟨rfl, _, rfl, ⟨rfl, hclock.1, pace_eq _ _ _, hclock.2⟩, rfl, rfl⟩⟩
    · rename_i hwaited hbroadcast
      obtain ⟨rfl, hpair⟩ := Prod.mk.inj (Except.ok.inj hrest)
      obtain ⟨rfl, rfl⟩ := Prod.mk.inj hpair
      refine ⟨hexec, .inr (.inr ⟨?_, rfl, rfl, rfl⟩)⟩
      cases out with
      | broadcast bytes => exact absurd rfl (hbroadcast bytes)
      | ignored | opened | attributed | closed | waited => rfl
  rcases y with e | ⟨done, woke⟩ | ⟨done, woke⟩
  · obtain ⟨rfl, hpair⟩ := Prod.mk.inj (Except.ok.inj h)
    obtain ⟨rfl, rfl⟩ := Prod.mk.inj hpair
    exact ⟨hexec, .inr (.inr ⟨(Edge.server_of_event hexec).2.1, rfl, rfl, rfl⟩)⟩
  · exact hrest done woke h
  · exact hrest done woke h

/-- Only a loop that waits has waited. -/
theorem Edge.phase_of_waited {d : Decoder F} {s s' : Edge F} {x : Service}
    (h : s.exec d x = .ok (s', .waited)) : s.loop.phase = .waiting := by
  by_cases hx : ∃ e, x = .event e
  · obtain ⟨e, rfl⟩ := hx
    cases Edge.steps_of_exec h with
    | quiet hx => exact absurd rfl (hx e)
  · rcases Edge.drained_of_exec (fun e he => hx ⟨e, he⟩) h with ⟨late, hdrained⟩ | ⟨_, -, ho⟩
    · rcases TickLoop.drained_cases hdrained with ⟨hphase, -⟩ | ⟨hphase, -⟩ |
        ⟨-, _, _, _, _, -, ho, -⟩
      · exact hphase
      · exact hphase
      · cases ho
    · cases ho

/-! ## A run -/

/-- The history of a clocked run : without its clock it is a run of the edge, every broadcast is
a turn, and the turns keep the schedule that began with the wait. -/
structure Timed (d : Decoder F) (config : ServerConfig) (tickInterval : ℕ) (start : ℕ)
    (h : List (Yield × (LoopOut F × Option (Beat ℕ)))) (s : ClockedEdge F) : Prop where
  edge : runEdge d config (h.map fun y => y.1.untimed (config.acceptDeadline start)) =
    .ok (s.edge, h.map fun y => y.2.1)
  turns : (beats (h.map Prod.snd)).length = (h.map fun y => y.2.1).countP LoopOut.isBroadcast
  kept : ∃ began, start ≤ began ∧ Beat.Kept tickInterval began began (beats (h.map Prod.snd)) ∧
    s.nextTickAt = Beat.lastDue began (beats (h.map Prod.snd)) ∧
    s.clock = Beat.lastWoke began (beats (h.map Prod.snd))

namespace Timed

variable {d : Decoder F} {config : ServerConfig} {tickInterval : ℕ} {start : ℕ}
  {h : List (Yield × (LoopOut F × Option (Beat ℕ)))} {s s' : ClockedEdge F}

theorem exec (hs : Timed d config tickInterval start h s) {y : Yield} {o : LoopOut F}
    {b : Option (Beat ℕ)}
    (hexec : s.exec d (config.acceptDeadline start) tickInterval y = .ok (s', (o, b))) :
    Timed d config tickInterval start (h ++ [(y, (o, b))]) s' := by
  obtain ⟨hedge, hcases⟩ := ClockedEdge.exec_cases hexec
  have hrun : runEdge d config ((h ++ [(y, (o, b))]).map fun y =>
      y.1.untimed (config.acceptDeadline start)) =
        .ok (s'.edge, (h ++ [(y, (o, b))]).map fun y => y.2.1) := by
    obtain ⟨edge, hnew, hrun⟩ := bind_eq_ok.1 hs.edge
    rw [List.map_append, List.map_append]
    exact bind_eq_ok.2 ⟨edge, hnew,
      Machine.run_append_eq_ok.2 ⟨s.edge, _, [o], hrun, Machine.run_singleton hedge, rfl⟩⟩
  have hbeats : beats ((h ++ [(y, (o, b))]).map Prod.snd) =
      beats (h.map Prod.snd) ++ b.toList := by
    rw [List.map_append, beats, List.filterMap_append]
    rcases b with _ | t <;> rfl
  have hcount : ((h ++ [(y, (o, b))]).map fun y => y.2.1).countP LoopOut.isBroadcast =
      (h.map fun y => y.2.1).countP LoopOut.isBroadcast + if o.isBroadcast then 1 else 0 := by
    rw [List.map_append, List.countP_append, List.map_singleton, List.countP_singleton]
  refine ⟨hrun, ?_, ?_⟩
  · rw [hcount, hbeats, List.length_append, hs.turns]
    rcases hcases with ⟨ho, t, rfl, -⟩ | ⟨rfl, rfl, -⟩ | ⟨ho, rfl, -⟩
    · rw [ho]
      rfl
    · rfl
    · rw [ho]
      rfl
  · obtain ⟨began, hstart, hkept, hdue, hwoke⟩ := hs.kept
    rw [hbeats]
    rcases hcases with ⟨-, t, rfl, hkeeps, hdue', hwoke'⟩ | ⟨rfl, rfl, hsame, hle⟩ |
      ⟨-, rfl, hdue', hwoke'⟩
    · refine ⟨began, hstart, Beat.kept_concat.2 ⟨hkept, hdue ▸ hwoke ▸ hkeeps⟩, ?_, ?_⟩
      · exact hdue'.trans (Beat.lastDue_concat _ _ _).symm
      · exact hwoke'.trans (Beat.lastWoke_concat _ _ _).symm
    · -- There has been no tick while the loop waits.
      have hpaced := Paced.of_run hs.edge
      have hzero := hpaced.resting (.inl (Edge.phase_of_waited hedge))
      have hnone : beats (h.map Prod.snd) = [] := by
        rw [← List.length_eq_zero_iff, hs.turns, ← hpaced.ticks, hzero]
        rfl
      rw [hnone] at hwoke ⊢
      refine ⟨s'.clock, ?_, trivial, hsame, rfl⟩
      exact hstart.trans (hwoke.symm.le.trans hle)
    · rw [Option.toList_none, List.append_nil]
      exact ⟨began, hstart, hkept, hdue'.trans hdue, hwoke'.trans hwoke⟩

theorem of_run {ys : List Yield} {outs : List (LoopOut F × Option (Beat ℕ))}
    (hrun : runClocked d config tickInterval start ys = .ok (s, outs)) :
    Timed d config tickInterval start (ys.zip outs) s := by
  obtain ⟨edge, hnew, hrun⟩ := bind_eq_ok.1 hrun
  have hbegin : Timed d config tickInterval start [] ⟨edge, start, start⟩ :=
    ⟨bind_eq_ok.2 ⟨edge, hnew, rfl⟩, rfl, start, le_rfl, trivial, rfl, rfl⟩
  have h := Machine.run_history (M := clockedMachine d (config.acceptDeadline start) tickInterval)
    (P := Timed d config tickInterval start)
    (fun h s op s' o hs hexec => hs.exec hexec) hbegin hrun
  rwa [List.nil_append] at h

end Timed

/-- How a run of the loop keeps time. -/
structure Clocked (d : Decoder F) (config : ServerConfig) (tickInterval : ℕ) (start : ℕ)
    (ys : List Yield) (outs : List (LoopOut F × Option (Beat ℕ))) (s : ClockedEdge F) :
    Prop where
  /-- Without its clock it is a run of the loop. -/
  edge : runEdge d config (ys.map (Yield.untimed (config.acceptDeadline start))) =
    .ok (s.edge, outs.map Prod.fst)
  turns : (beats outs).length = (outs.map Prod.fst).countP LoopOut.isBroadcast
  /-- Two ticks are at least as many intervals apart as there are ticks between them. -/
  spaced : ∀ before mid after t t', beats outs = before ++ t :: (mid ++ t' :: after) →
    t.done + mid.length * tickInterval ≤ t'.start
  lasts : ∀ reason, s.edge.loop.phase = .ended reason →
    start + config.matchDurationTicks.toNat * tickInterval ≤ s.clock
  /-- Ticks that are done in time are on time, the last one as the first. -/
  punctual : ∀ work slack, slack + work ≤ tickInterval →
    (∀ t ∈ beats outs, t.done ≤ t.start + work ∧ t.woke ≤ t.due + slack) → ∃ began,
      (∀ before t after, beats outs = before ++ t :: after →
        began + before.length * tickInterval ≤ t.start ∧
          t.done ≤ began + before.length * tickInterval + (slack + work)) ∧
      s.clock ≤ began + (beats outs).length * tickInterval + slack

/-- However long its drains and its sleeps take, the loop never hurries, and it does not drift
if they take no more than an interval together. -/
theorem clocked {d : Decoder F} {config : ServerConfig} {tickInterval : ℕ} {start : ℕ}
    {ys : List Yield} {outs : List (LoopOut F × Option (Beat ℕ))} {s : ClockedEdge F}
    (hrun : runClocked d config tickInterval start ys = .ok (s, outs)) :
    Clocked d config tickInterval start ys outs s := by
  obtain ⟨edge, turns, began, hstart, hkept, hdue, hwoke⟩ := Timed.of_run hrun
  have hlen : outs.length = ys.length := by
    obtain ⟨edge, -, hrun⟩ := bind_eq_ok.1 hrun
    exact Machine.length_of_run hrun
  have houts : (ys.zip outs).map Prod.snd = outs := List.map_snd_zip hlen.le
  have hys : (ys.zip outs).map Prod.fst = ys := List.map_fst_zip hlen.ge
  have hyields : ((ys.zip outs).map fun y => y.1.untimed (config.acceptDeadline start)) =
      ys.map (Yield.untimed (config.acceptDeadline start)) := by
    conv_rhs => rw [← hys, List.map_map]
    rfl
  have hfsts : ((ys.zip outs).map fun y => y.2.1) = outs.map Prod.fst := by
    conv_rhs => rw [← houts, List.map_map]
    rfl
  rw [hyields, hfsts] at edge
  rw [houts] at turns hkept hdue hwoke
  rw [hfsts] at turns
  refine ⟨edge, turns, ?_, ?_, ?_⟩
  · intro before mid after t t' hsplit
    rw [hsplit] at hkept
    exact hkept.spaced
  · intro reason hended
    obtain ⟨oss, hserver, -, -⟩ := runEdge_calls edge
    have hpaced := Paced.of_run edge
    have hlength : (beats outs).length = config.matchDurationTicks.toNat := by
      rw [turns, ← hpaced.ticks, hpaced.ended reason hended, (config_of_runServer hserver).1]
    have hle : began + (beats outs).length * tickInterval ≤ Beat.lastDue began (beats outs) :=
      hkept.le_lastDue
    have hawake := hkept.lastDue_le le_rfl
    rw [hlength] at hle
    omega
  · intro work slack hfits hprompt
    refine ⟨began, fun before t after hsplit => ?_, ?_⟩
    · rw [hsplit] at hkept hprompt
      obtain ⟨hbefore, hkeeps, -⟩ := Beat.kept_append.1 hkept
      have hprompt' := fun x hx => hprompt x (List.mem_append_left _ hx)
      obtain ⟨hlast, hawake⟩ : Beat.lastDue began before = began + before.length * tickInterval ∧
          _ := hbefore.punctual hfits (Nat.le_add_right _ _) hprompt'
      have hle := hbefore.lastDue_le le_rfl
      have hdone := (hprompt t (by simp)).1
      have hbegun := hkeeps.start
      omega
    · obtain ⟨hlast, hawake⟩ :
          Beat.lastDue began (beats outs) = began + (beats outs).length * tickInterval ∧ _ :=
        hkept.punctual hfits (Nat.le_add_right _ _) hprompt
      omega

/-- A match of two ticks, of which the second one falls behind. -/
theorem clocked_of_two : ∃ s outs, runClocked oneCommand { matchDurationTicks := 2 } 10 0
      [.event (.connect 0), .event (.receive 0 channelControl []), .idle 5 1000010,
        .idle 1000012 1000020, .idle 1000045 1000050] = .ok (s, outs) ∧
    beats outs = [⟨1000010, 1000012, 1000020, 1000020⟩, ⟨1000020, 1000045, 1000045, 1000050⟩] ∧
    Clocked oneCommand { matchDurationTicks := 2 } 10 0
      [.event (.connect 0), .event (.receive 0 channelControl []), .idle 5 1000010,
        .idle 1000012 1000020, .idle 1000045 1000050] outs s := by
  have h : (runClocked oneCommand { matchDurationTicks := 2 } 10 0
      [.event (.connect 0), .event (.receive 0 channelControl []), .idle 5 1000010,
        .idle 1000012 1000020, .idle 1000045 1000050]).map (fun x => beats x.2) =
      .ok [⟨1000010, 1000012, 1000020, 1000020⟩, ⟨1000020, 1000045, 1000045, 1000050⟩] := by
    decide +kernel
  obtain ⟨⟨s, outs⟩, hrun, hbeats⟩ := map_eq_ok.1 h
  exact ⟨s, outs, hrun, hbeats, clocked hrun⟩

end Flowstate
