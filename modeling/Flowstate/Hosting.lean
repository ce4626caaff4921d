import Flowstate.Binding
import Flowstate.Coherence

/-!
# The server behind the loop

A run of the loop is a run of its server (`runEdge_calls`) : what the loop is yielded becomes a
list of calls, and a session is welcomed by the call after its accept. So what holds of every
run of a server holds of the server behind the loop.

The loop adds the match to it (`hosted`). It waits for a first session or gives up, and then
steps until the world has reached the duration, whoever comes or goes. What it returns is the
artifact of that many ticks.
-/

set_option linter.unusedSectionVars false

open Rust

namespace Flowstate

variable {F : Type} [F64 F]

/-! ## Calls -/

/-- What the loop calls on its server for what it is yielded, told by its answer. -/
def serverCalls (d : Decoder F) : Service × LoopOut F → List (Op F)
  | (_, .opened _ sid _ _) => [.acceptSession, .welcomeFor sid]
  | (.event (.receive _ _ packet), .attributed _ sid _) =>
    (d.inputCmd packet).toList.map (.receiveInput sid)
  | (_, .closed _ sid) => [.disconnectSession sid]
  | (_, .broadcast _) => [.step]
  | _ => []

/-- What the server returned to the calls that the loop answers with `o`. -/
def Returned : LoopOut F → List (Out F) → Prop
  | .opened _ sid welcome _, outs => ∃ p e, outs = [.accepted sid p e, .welcomed welcome]
  | .attributed _ _ result, outs => outs = [.verdict result]
  | .closed _ _, outs => outs = [.disconnected]
  | .broadcast bytes, outs => ∃ snapshot floor, outs = [.stepped snapshot floor bytes]
  | .ignored, outs => outs = []
  | .waited, outs => outs = []

/-- A packet is attributed only if it is a command of a bound peer, on the realtime channel. -/
theorem Edge.exec_attributed {d : Decoder F} {s s' : Edge F} {x : Service} {peer : PeerId}
    {sid : SessionId} {result : ValidationResult}
    (h : s.exec d x = .ok (s', .attributed peer sid result)) :
    ∃ packet input, x = .event (.receive peer channelRealtime packet) ∧
      d.inputCmd packet = some input ∧ s.loop.peerSessions.lookup peer = some sid ∧
      s.loop.server.receiveInput sid input = .ok (s'.loop.server, result) := by
  have hx : ∃ channelId packet, x = .event (.receive peer channelId packet) := by
    cases Edge.steps_of_exec h with
    | command => exact ⟨_, _, rfl⟩
    | quiet _ ho => rcases ho with ho | ho <;> cases ho
  obtain ⟨channelId, packet, rfl⟩ := hx
  obtain ⟨host, -, h⟩ := bind_eq_ok.1 h
  obtain ⟨⟨loop, o⟩, hloop, h⟩ := bind_eq_ok.1 h
  obtain ⟨rfl, rfl⟩ := Prod.mk.inj (Except.ok.inj h)
  have hhandle : s.loop.handle d (.receive peer channelId packet) =
      .ok (loop, .attributed peer sid result) := by
    unfold TickLoop.exec at hloop
    dsimp only at hloop
    split at hloop
    · rw [liftLoop_eq_ok, TickLoop.waitForFirst] at hloop
      split_ifs at hloop
      · obtain ⟨_, _, _, _, _, _, -, -, -, ho⟩ := TickLoop.acceptAndWelcome_eq_ok hloop
        cases ho
      · cases hloop
    · exact liftLoop_eq_ok.1 hloop
    · cases hloop
  rw [TickLoop.handle] at hhandle
  split_ifs at hhandle with hhello hchannel
  · obtain ⟨_, _, _, _, _, _, -, -, -, ho⟩ := TickLoop.acceptAndWelcome_eq_ok hhandle
    cases ho
  · subst hchannel
    split at hhandle
    · rename_i sid' input hsid hinput
      obtain ⟨⟨server, result'⟩, hs, hhandle⟩ := bind_eq_ok.1 hhandle
      obtain ⟨rfl, ho⟩ := Prod.mk.inj (Except.ok.inj hhandle)
      obtain ⟨-, rfl, rfl⟩ := LoopOut.attributed.inj ho
      exact ⟨packet, input, rfl, hinput, hsid, hs⟩
    · cases hhandle
  · cases hhandle

/-- The loop's share of an event is a run of its calls. -/
theorem Edge.calls_of_exec {d : Decoder F} {s s' : Edge F} {x : Service} {o : LoopOut F}
    (h : s.exec d x = .ok (s', o)) :
    ∃ outs, (serverMachine F).run s.loop.server (serverCalls d (x, o)) =
      .ok (s'.loop.server, outs) ∧ Returned o outs := by
  have hsingle : ∀ {op out}, s.loop.server.exec op = .ok (s'.loop.server, out) →
      (serverMachine F).run s.loop.server [op] = .ok (s'.loop.server, [out]) :=
    fun hexec => Machine.run_singleton hexec
  cases Edge.steps_of_exec h with
  | connect | packet | part => exact ⟨[], rfl, rfl⟩
  | hello _ _ _ haccept hwelcome =>
    exact ⟨_, Machine.run_cons_eq_ok.2 ⟨_, _, _, Server.exec_acceptSession.2 ⟨_, _, _, haccept, rfl⟩,
      Machine.run_singleton (Server.exec_welcomeFor.2 ⟨_, hwelcome, rfl⟩), rfl⟩, _, _, rfl⟩
  | command =>
    obtain ⟨packet, input, heq, hinput, -, hs⟩ := Edge.exec_attributed h
    obtain ⟨-, -, rfl⟩ := Event.receive.inj (Service.event.inj heq)
    rw [serverCalls, hinput]
    exact ⟨_, hsingle (Server.exec_receiveInput.2 ⟨_, hs, rfl⟩), rfl⟩
  | close => exact ⟨_, hsingle (Server.exec_disconnectSession.2 ⟨rfl, rfl⟩), rfl⟩
  | quiet hx ho =>
    rcases ho with rfl | rfl <;> rcases x with e | late | late <;>
      first | exact absurd rfl (hx _) | exact ⟨[], rfl, rfl⟩
  | tick hx hs =>
    rcases x with e | late | late
    · exact absurd rfl (hx e)
    all_goals exact ⟨_, hsingle (Server.exec_step.2 ⟨_, _, _, hs, rfl⟩), _, _, rfl⟩

/-- Only a hello makes the loop accept. -/
theorem acceptSession_notMem_serverCalls {d : Decoder F} {x : Service} {o : LoopOut F}
    (ho : o.opens = none) : .acceptSession ∉ serverCalls d (x, o) := by
  cases o with
  | opened => cases ho
  | attributed => rcases x with (_ | _ | _) | _ | _ <;> simp [serverCalls]
  | ignored | closed | waited | broadcast => simp [serverCalls]

/-- An accept among the calls is followed by the welcome of its session. -/
theorem Returned.greeted {d : Decoder F} {x : Service} {o : LoopOut F} {outs : List (Out F)}
    (h : Returned o outs) : Greeted ((serverCalls d (x, o)).zip outs) := by
  rcases hopens : o.opens with _ | ⟨peer, sid⟩
  · refine Greeted.of_forall_ne fun y hy heq => ?_
    exact acceptSession_notMem_serverCalls hopens (heq ▸ (List.of_mem_zip hy).1)
  · obtain ⟨_, _, welcome, baseline, rfl⟩ : ∃ peer sid welcome baseline,
        o = .opened peer sid welcome baseline := by
      cases o with
      | opened peer sid welcome baseline => exact ⟨peer, sid, welcome, baseline, rfl⟩
      | ignored | attributed | closed | waited | broadcast => cases hopens
    obtain ⟨p, e, rfl⟩ := h
    exact Greeted.welcomed _ p e welcome

theorem greeted_flatMap {d : Decoder F} : ∀ {h : List (Service × LoopOut F)}
    {oss : List (List (Out F))},
    List.Forall₂ (fun x os => Returned x.2 os ∧ os.length = (serverCalls d x).length) h oss →
      Greeted ((h.flatMap (serverCalls d)).zip oss.flatten)
  | [], _, .nil => Greeted.nil
  | x :: h, os :: oss, .cons ⟨hos, hlen⟩ hrest => by
    rw [List.flatMap_cons, List.flatten_cons, List.zip_append hlen.symm]
    exact hos.greeted.append (greeted_flatMap hrest)

theorem Edge.new_eq_ok {config : ServerConfig} {s : Edge F} (h : Edge.new config = .ok s) :
    ∃ server, Server.new config = .ok server ∧
      s = ⟨⟨config.maxSessions, ∅⟩, ⟨server, ∅, .waiting, 0⟩⟩ := by
  obtain ⟨loop, hloop, heq⟩ := bind_eq_ok.1 h
  obtain rfl := Except.ok.inj heq
  obtain ⟨server, hserver, heq⟩ := bind_eq_ok.1 hloop
  obtain rfl := Except.ok.inj heq
  exact ⟨server, hserver, rfl⟩

/-- A run of the loop is a run of its server in which every session is welcomed at once. -/
theorem runEdge_calls {d : Decoder F} {config : ServerConfig} {xs : List Service} {s : Edge F}
    {outs : List (LoopOut F)} (hrun : runEdge d config xs = .ok (s, outs)) :
    ∃ oss, runServer config ((xs.zip outs).flatMap (serverCalls d)) =
        .ok (s.loop.server, oss.flatten) ∧
      List.Forall₂ (fun x os => Returned x.2 os) (xs.zip outs) oss ∧
      Greeted (((xs.zip outs).flatMap (serverCalls d)).zip oss.flatten) := by
  obtain ⟨s₀, hnew, hrun⟩ := bind_eq_ok.1 hrun
  obtain ⟨server, hserver, rfl⟩ := Edge.new_eq_ok (liftLoop_eq_ok.1 hnew)
  obtain ⟨oss, hcalls, hoss⟩ := Machine.run_calls (M := edgeMachine d) (N := serverMachine F)
    (f := fun s => s.loop.server) (c := serverCalls d)
    (Q := fun x os => Returned x.2 os ∧ os.length = (serverCalls d x).length)
    (fun u x v o hexec => by
      obtain ⟨os, hos, hreturned⟩ := Edge.calls_of_exec hexec
      exact ⟨os, hos, hreturned, Machine.length_of_run hos⟩) hrun
  exact ⟨oss, bind_eq_ok.2 ⟨server, hserver, hcalls⟩, hoss.imp fun _ _ h => h.1,
    greeted_flatMap hoss⟩

/-! ## Phases -/

/-- The message of `TimedOut`. -/
def connectTimeoutMessage : String := "connect_timeout_ms exceeded before any session connected"

/-- What `run` returns, once the loop has come to its end. -/
def TickLoop.result (l : TickLoop F) : Option (Except String (ReplayArtifact F)) :=
  match l.phase with
  | .ended reason => some (.ok (l.server.finalize reason))
  | .timedOut => some (.error connectTimeoutMessage)
  | _ => none

def LoopOut.isBroadcast : LoopOut F → Bool
  | .broadcast _ => true
  | _ => false

theorem LoopOut.opens_of_isBroadcast {o : LoopOut F} (h : o.isBroadcast = true) :
    o.opens = none := by
  cases o with
  | broadcast => rfl
  | ignored | opened | attributed | closed | waited => cases h

/-- What the end of a drain does, by the phase it ends in. -/
theorem TickLoop.drained_cases {l l' : TickLoop F} {late : Bool} {o : LoopOut F}
    (h : l.drained late = .ok (l', o)) :
    (l.phase = .waiting ∧ l.server.sessionCount < 1 ∧ o = .waited ∧
        l' = { l with phase := if late then .timedOut else .waiting, consecutiveErrors := 0 }) ∨
      (l.phase = .waiting ∧ ¬l.server.sessionCount < 1 ∧ o = .waited ∧
        l' = l.nextTick l.server) ∨
      l.phase = .ticking ∧ ∃ server snapshot floor bytes,
        l.server.step = .ok (server, snapshot, floor, bytes) ∧ o = .broadcast bytes ∧
        l' = l.nextTick server := by
  unfold drained at h
  split at h
  · rename_i hphase
    by_cases hcount : l.server.sessionCount < 1
    · rw [if_pos hcount] at h
      obtain ⟨rfl, rfl⟩ := Prod.mk.inj (Except.ok.inj h)
      exact .inl ⟨hphase, hcount, rfl, rfl⟩
    · rw [if_neg hcount] at h
      obtain ⟨rfl, rfl⟩ := Prod.mk.inj (Except.ok.inj h)
      exact .inr (.inl ⟨hphase, hcount, rfl, rfl⟩)
  · rename_i hphase
    obtain ⟨⟨server, snapshot, floor, bytes⟩, hs, h⟩ := bind_eq_ok.1 h
    obtain ⟨rfl, rfl⟩ := Prod.mk.inj (Except.ok.inj h)
    exact .inr (.inr ⟨hphase, server, snapshot, floor, bytes, liftLoop_eq_ok.1 hs, rfl, rfl⟩)
  · cases h

/-- An event leaves the phase as it is. Before the first session it leaves the server alone, too,
unless it is a hello. -/
theorem Edge.phase_of_event {d : Decoder F} {s s' : Edge F} {e : Event} {o : LoopOut F}
    (h : s.exec d (.event e) = .ok (s', o)) : s'.loop.phase = s.loop.phase ∧
      (s.loop.phase = .waiting ∧ (o.opens = none → s'.loop.server = s.loop.server) ∨
        s.loop.phase = .ticking) := by
  obtain ⟨host, -, h⟩ := bind_eq_ok.1 h
  obtain ⟨⟨loop, o'⟩, hloop, h⟩ := bind_eq_ok.1 h
  obtain ⟨rfl, rfl⟩ := Prod.mk.inj (Except.ok.inj h)
  have haccept : ∀ {peer}, s.loop.acceptAndWelcome peer = .ok (loop, o') →
      loop.phase = s.loop.phase ∧ o'.opens ≠ none := by
    intro peer hopen
    obtain ⟨_, _, _, _, _, _, -, -, rfl, rfl⟩ := TickLoop.acceptAndWelcome_eq_ok hopen
    exact ⟨rfl, nofun⟩
  unfold TickLoop.exec at hloop
  dsimp only at hloop
  split at hloop
  · rename_i hphase
    rw [liftLoop_eq_ok] at hloop
    unfold TickLoop.waitForFirst at hloop
    split at hloop
    · split_ifs at hloop
      · obtain ⟨hsame, hopens⟩ := haccept hloop
        exact ⟨hsame, .inl ⟨hphase, fun hnone => absurd hnone hopens⟩⟩
      · obtain ⟨rfl, -⟩ := Prod.mk.inj (Except.ok.inj hloop)
        exact ⟨rfl, .inl ⟨hphase, fun _ => rfl⟩⟩
    · obtain ⟨rfl, -⟩ := Prod.mk.inj (Except.ok.inj hloop)
      exact ⟨rfl, .inl ⟨hphase, fun _ => rfl⟩⟩
  · rename_i hphase
    refine ⟨?_, .inr hphase⟩
    rw [liftLoop_eq_ok] at hloop
    unfold TickLoop.handle at hloop
    split at hloop
    · split_ifs at hloop
      · exact (haccept hloop).1
      · split at hloop
        · obtain ⟨_, -, hloop⟩ := bind_eq_ok.1 hloop
          obtain ⟨rfl, -⟩ := Prod.mk.inj (Except.ok.inj hloop)
          rfl
        · obtain ⟨rfl, -⟩ := Prod.mk.inj (Except.ok.inj hloop)
          rfl
      · obtain ⟨rfl, -⟩ := Prod.mk.inj (Except.ok.inj hloop)
        rfl
    · split at hloop <;> obtain ⟨rfl, -⟩ := Prod.mk.inj (Except.ok.inj hloop) <;> rfl
    · obtain ⟨rfl, -⟩ := Prod.mk.inj (Except.ok.inj hloop)
      rfl
  · cases hloop

/-- What is not an event ends the drain, or is an error to be retried. -/
theorem Edge.drained_of_exec {d : Decoder F} {s s' : Edge F} {x : Service} {o : LoopOut F}
    (hx : ∀ e, x ≠ .event e) (h : s.exec d x = .ok (s', o)) :
    (∃ late, s.loop.drained late = .ok (s'.loop, o)) ∨
      ∃ consecutiveErrors, s'.loop = { s.loop with consecutiveErrors } ∧ o = .ignored := by
  have hloop : s.loop.exec d x = .ok (s'.loop, o) := by
    rcases x with e | late | late
    · exact absurd rfl (hx e)
    all_goals
      obtain ⟨host, -, h⟩ := bind_eq_ok.1 h
      obtain ⟨⟨loop, o'⟩, hloop, h⟩ := bind_eq_ok.1 h
      obtain ⟨rfl, rfl⟩ := Prod.mk.inj (Except.ok.inj h)
      exact hloop
  rcases x with e | late | late
  · exact absurd rfl (hx e)
  · exact .inl ⟨late, hloop⟩
  · unfold TickLoop.exec at hloop
    dsimp only at hloop
    split_ifs at hloop
    · exact .inl ⟨late, hloop⟩
    · obtain ⟨heq, rfl⟩ := Prod.mk.inj (Except.ok.inj hloop)
      exact .inr ⟨_, heq.symm, rfl⟩

/-- An event neither steps nor broadcasts. Only a hello adds a session. -/
theorem Edge.server_of_event {d : Decoder F} {s s' : Edge F} {e : Event} {o : LoopOut F}
    (h : s.exec d (.event e) = .ok (s', o)) :
    s'.loop.server.world.tick = s.loop.server.world.tick ∧ o.isBroadcast = false ∧
      (o.opens ≠ none → 0 < s'.loop.server.sessionCount) ∧
      (o.opens = none → s'.loop.server.sessionCount ≤ s.loop.server.sessionCount) := by
  cases Edge.steps_of_exec h with
  | connect | packet | part => exact ⟨rfl, rfl, fun h => absurd rfl h, fun _ => le_rfl⟩
  | hello _ _ _ haccept hwelcome =>
    obtain ⟨-, -, -, nextSid, nextPid, world, -, -, hspawn, rfl⟩ :=
      Server.acceptSession_eq_ok.1 haccept
    obtain ⟨session, -, floor, -, rfl, -⟩ := Server.welcomeFor_eq_ok.1 hwelcome
    obtain ⟨-, next, -, rfl⟩ := World.spawnCharacter_eq_ok.1 hspawn
    refine ⟨rfl, rfl, fun _ => ?_, fun hnone => by cases hnone⟩
    exact List.length_pos_of_mem (AList.mem_keys.1 (AList.mem_insert _ |>.2 (.inl rfl)))
  | command _ _ hs =>
    refine ⟨?_, rfl, fun h => absurd rfl h, fun _ => ?_⟩ <;>
      rcases Server.receiveInput_cases hs with rfl | ⟨p, -, -, rfl, -⟩ <;> rfl
  | @close peer sid _ _ =>
    refine ⟨?_, rfl, fun h => absurd rfl h, fun _ => ?_⟩ <;>
      unfold Server.disconnectSession <;>
      rcases s.loop.server.sessions.lookup sid with _ | session
    · rfl
    · rfl
    · exact le_rfl
    · change (s.loop.server.sessions.erase sid).keys.length ≤ _
      rw [AList.keys_erase]
      exact List.length_erase_le ..
  | quiet hx | tick hx => exact absurd rfl (hx _)

/-- How far the match is in each phase. -/
structure Paced (outs : List (LoopOut F)) (l : TickLoop F) : Prop where
  ticks : l.server.world.tick.toNat = outs.countP LoopOut.isBroadcast
  resting : l.phase = .waiting ∨ l.phase = .timedOut → l.server.world.tick = 0
  /-- A loop that still waits for its first session, or has given up, has opened none. -/
  unopened : l.phase = .waiting ∧ l.server.sessionCount < 1 ∨ l.phase = .timedOut →
    ∀ o ∈ outs, o.opens = none
  opened : 0 < l.server.sessionCount ∨ l.phase ≠ .waiting ∧ l.phase ≠ .timedOut →
    ∃ o ∈ outs, o.opens ≠ none
  ticking : l.phase = .ticking → l.server.world.tick < l.server.config.matchDurationTicks
  ended : ∀ reason, l.phase = .ended reason →
    l.server.world.tick = l.server.config.matchDurationTicks

theorem TickLoop.phase_nextTick (l : TickLoop F) (server : Server F) :
    (server.world.tick < server.config.matchDurationTicks ∧ (l.nextTick server).phase = .ticking) ∨
      server.config.matchDurationTicks ≤ server.world.tick ∧
        (l.nextTick server).phase = .ended .complete := by
  unfold nextTick Server.shouldEndMatch
  split_ifs with h
  · exact .inr ⟨h, rfl⟩
  · exact .inl ⟨UInt64.not_le.1 h, rfl⟩

namespace Paced

variable {outs : List (LoopOut F)} {d : Decoder F} {s s' : Edge F} {x : Service} {o : LoopOut F}

theorem event (h : Paced outs s.loop) {e : Event} (hexec : s.exec d (.event e) = .ok (s', o)) :
    Paced (outs ++ [o]) s'.loop := by
  obtain ⟨hphase, hwaiting⟩ := Edge.phase_of_event hexec
  obtain ⟨htick, hquiet, hjoined, hleft⟩ := Edge.server_of_event hexec
  have hconfig := (Edge.steps_of_exec hexec).frame.2
  have hrunning : s.loop.phase = .waiting ∨ s.loop.phase = .ticking := hwaiting.imp And.left id
  refine ⟨?_, ?_, ?_, ?_, ?_, ?_⟩
  · rw [htick, h.ticks, List.countP_append, List.countP_singleton, hquiet]
    rfl
  · rw [hphase, htick]
    exact h.resting
  · rw [hphase]
    rintro (⟨hphase', hcount⟩ | hphase')
    · obtain ⟨-, hsame⟩ := hwaiting.resolve_right (by rw [hphase']; nofun)
      have hnone : o.opens = none := by
        by_contra hopens
        exact absurd (hjoined hopens) (by omega)
      rw [hsame hnone] at hcount
      exact List.forall_mem_append.2 ⟨h.unopened (.inl ⟨hphase', hcount⟩), by simpa using hnone⟩
    · rcases hrunning with hrunning | hrunning <;> rw [hrunning] at hphase' <;> cases hphase'
  · intro hcase
    by_cases hopens : o.opens = none
    · rw [hphase] at hcase
      obtain ⟨o', ho', hopen⟩ := h.opened (hcase.imp (fun hpos => hpos.trans_le (hleft hopens)) id)
      exact ⟨o', List.mem_append_left _ ho', hopen⟩
    · exact ⟨o, by simp, hopens⟩
  · rw [hphase, htick, hconfig]
    exact h.ticking
  · rw [hphase, htick, hconfig]
    exact h.ended

/-- The next tick begins, or the match is over, once a session is there. -/
theorem nextTick {l : TickLoop F} {server : Server F}
    (hticks : server.world.tick.toNat = outs.countP LoopOut.isBroadcast)
    (hopened : ∃ o ∈ outs, o.opens ≠ none)
    (hle : server.world.tick ≤ server.config.matchDurationTicks) :
    Paced outs (l.nextTick server) := by
  rcases l.phase_nextTick server with ⟨hlt, hphase⟩ | ⟨hge, hphase⟩
  · exact ⟨hticks, by simp [hphase], by simp [hphase], fun _ => hopened, fun _ => hlt,
      by simp [hphase]⟩
  · exact ⟨hticks, by simp [hphase], by simp [hphase], fun _ => hopened, by simp [hphase],
      fun _ _ => UInt64.le_antisymm hle hge⟩

theorem drained (h : Paced outs s.loop) {late : Bool} {l' : TickLoop F}
    (hdrained : s.loop.drained late = .ok (l', o)) : Paced (outs ++ [o]) l' := by
  rcases TickLoop.drained_cases hdrained with ⟨hphase, hcount, rfl, rfl⟩ |
    ⟨hphase, hcount, rfl, rfl⟩ | ⟨hphase, server, snapshot, floor, bytes, hs, rfl, rfl⟩
  · have hphase' : ∀ p, (if late then Phase.timedOut else .waiting) = p →
        p = .waiting ∨ p = .timedOut := by
      rintro p rfl
      cases late <;> simp
    refine ⟨?_, fun _ => h.resting (.inl hphase), fun _ => ?_, ?_, fun hp => ?_, fun _ hp => ?_⟩
    · rw [List.countP_append]
      exact h.ticks
    · exact List.forall_mem_append.2 ⟨h.unopened (.inl ⟨hphase, hcount⟩), by simp [LoopOut.opens]⟩
    · rintro (hpos | ⟨hwaiting, htimedOut⟩)
      · exact absurd hpos (by simpa using hcount)
      · exact absurd (hphase' _ rfl) (not_or.2 ⟨hwaiting, htimedOut⟩)
    · rcases hphase' _ hp with heq | heq <;> cases heq
    · rcases hphase' _ hp with heq | heq <;> cases heq
  · obtain ⟨o', ho', hopen⟩ := h.opened (.inl (by omega))
    refine nextTick ?_ ⟨o', List.mem_append_left _ ho', hopen⟩ ?_
    · rw [List.countP_append]
      exact h.ticks
    · rw [h.resting (.inl hphase)]
      exact UInt64.zero_le
  · obtain ⟨next, hnext, -, rfl, -, -⟩ := Server.step_eq_ok.1 hs
    obtain ⟨o', ho', hopen⟩ := h.opened (.inr (by simp [hphase]))
    refine nextTick ?_ ⟨o', List.mem_append_left _ ho', hopen⟩ ?_
    · rw [List.countP_append, ← h.ticks]
      exact hnext
    · have hlt := UInt64.lt_iff_toNat_lt.1 (h.ticking hphase)
      rw [UInt64.le_iff_toNat_le]
      change next.toNat ≤ s.loop.server.config.matchDurationTicks.toNat
      omega

theorem exec (h : Paced outs s.loop) (hexec : s.exec d x = .ok (s', o)) :
    Paced (outs ++ [o]) s'.loop := by
  have hother : (∀ e, x ≠ .event e) → Paced (outs ++ [o]) s'.loop := by
    intro hx
    rcases Edge.drained_of_exec hx hexec with ⟨late, hdrained⟩ | ⟨errors, heq, rfl⟩
    · exact h.drained hdrained
    · rw [heq]
      refine ⟨?_, h.resting, fun hcase => ?_, fun hcase => ?_, h.ticking, h.ended⟩
      · rw [List.countP_append]
        exact h.ticks
      · exact List.forall_mem_append.2 ⟨h.unopened hcase, by simp [LoopOut.opens]⟩
      · obtain ⟨o', ho', hopen⟩ := h.opened hcase
        exact ⟨o', List.mem_append_left _ ho', hopen⟩
  rcases x with e | late | late
  · exact h.event hexec
  · exact hother fun e => Service.noConfusion
  · exact hother fun e => Service.noConfusion

theorem new {config : ServerConfig} (h : Edge.new config = .ok s) : Paced [] s.loop := by
  obtain ⟨server, hserver, rfl⟩ := Edge.new_eq_ok h
  obtain ⟨-, rfl⟩ := Server.new_eq_ok.1 hserver
  refine ⟨rfl, fun _ => rfl, fun _ o ho => absurd ho List.not_mem_nil, ?_, nofun, nofun⟩
  rintro (hpos | ⟨hwaiting, -⟩)
  · exact absurd hpos (Nat.lt_irrefl 0)
  · exact absurd rfl hwaiting

theorem of_run {config : ServerConfig} {xs : List Service} {outs : List (LoopOut F)}
    (hrun : runEdge d config xs = .ok (s, outs)) : Paced outs s.loop := by
  obtain ⟨s₀, hnew, hrun⟩ := bind_eq_ok.1 hrun
  have h := Machine.run_history (M := edgeMachine d) (P := fun h u => Paced (h.map Prod.snd) u.loop)
    (fun h u x v o hu hexec => by
      rw [List.map_append]
      exact hu.exec hexec)
    (h := []) (new (liftLoop_eq_ok.1 hnew)) hrun
  rwa [List.nil_append, List.map_snd_zip (Machine.length_of_run hrun).le] at h

theorem tick_le {l : TickLoop F} (h : Paced outs l) :
    l.server.world.tick.toNat ≤ l.server.config.matchDurationTicks.toNat := by
  rcases hphase : l.phase with _ | _ | reason | _
  · rw [h.resting (.inl hphase)]
    exact Nat.zero_le _
  · exact (UInt64.lt_iff_toNat_lt.1 (h.ticking hphase)).le
  · rw [h.ended reason hphase]
  · rw [h.resting (.inr hphase)]
    exact Nat.zero_le _

end Paced

/-! ## The match -/

/-- The artifact of a run whose players all joined before its first step verifies. -/
theorem Lockstep.verifyReplay_finalize {start : World F} {t : Server F} (h : Lockstep start t)
    (hstep : t.baselineRecorded = true) (hrate : t.config.tickRateHz ≠ 0)
    (hnodup : t.entitySpawnOrder.Nodup) {options : VerifyOptions}
    (hbuild : verifyBuild (t.finalize .complete) options = .ok ()) :
    verifyReplay (t.finalize .complete) options = .ok () := by
  obtain ⟨-, baseline, hsome, hzero⟩ := h.recorded.stepped hstep
  have hsome' : (t.finalize .complete).initialBaseline = some baseline.toProto :=
    congrArg (Option.map Baseline.toProto) hsome
  have hlength : replayLength (t.finalize .complete) = t.world.tick.toNat := by
    rw [replayLength, hsome']
    change t.world.tick.toNat - baseline.tick.toNat = _
    rw [hzero]
    exact Nat.sub_zero _
  have hinputs : t.replayRecorder.inputs = t.replayRecorder.inputs ++ [] := (List.append_nil _).symm
  have hworld := h.verifyWorld_finalize h hstep hrate hnodup hinputs
    (fun a ha => absurd ha List.not_mem_nil) le_rfl
  exact verifyReplay_eq_ok.2 ⟨hbuild, t.world, hlength ▸ hworld, rfl, rfl⟩

theorem finalize_entitySpawnOrder {s : Server F} (h : Recorded s) (reason : EndReason) :
    (s.finalize reason).entitySpawnOrder = s.entitySpawnOrder.map UInt8.toUInt32 :=
  congrArg (List.map UInt8.toUInt32) h.spawnOrder

/-- A recording that verifies has its players apart : each was spawned as an entity of its own. -/
theorem nodup_of_verifyReplay {config : ServerConfig} {ops : List (Op F)} {s : Server F}
    {outs : List (Out F)} (hrun : runServer config ops = .ok (s, outs)) {reason : EndReason}
    {options : VerifyOptions} (hverify : verifyReplay (s.finalize reason) options = .ok ()) :
    s.entitySpawnOrder.Nodup := by
  obtain ⟨-, world, hworld, -⟩ := verifyReplay_eq_ok.1 hverify
  obtain ⟨-, start, -, -, -, hstart, -⟩ := verifyWorld_eq_ok.1 hworld
  have hrecorded := recorded_of_run hrun
  have hspawned : (s.finalize reason).entitySpawnOrder.Nodup := by
    refine nodup_spawnOrder hstart fun id hid => ?_
    rw [finalize_entitySpawnOrder hrecorded, ← hrecorded.mapping, List.map_map] at hid
    obtain ⟨row, hrow, rfl⟩ := List.mem_map.1 hid
    exact ⟨_, List.mem_map_of_mem hrow, rfl⟩
  rw [finalize_entitySpawnOrder hrecorded] at hspawned
  exact hspawned.of_map

/-- No build is recorded by a run. -/
theorem buildFingerprint_of_runServer {config : ServerConfig} {ops : List (Op F)} {s : Server F}
    {outs : List (Out F)} (hrun : runServer config ops = .ok (s, outs)) :
    s.replayRecorder.buildFingerprint = none := by
  refine runServer_invariant (P := fun s => s.replayRecorder.buildFingerprint = none)
    (fun u hnew => ?_) (fun u op v o hu hexec => ?_) hrun
  · obtain ⟨-, rfl⟩ := Server.new_eq_ok.1 hnew
    rfl
  · by_cases haccept : op = .acceptSession
    · subst haccept
      obtain ⟨sid, p, e, hs, -⟩ := Server.exec_acceptSession.1 hexec
      obtain ⟨-, -, -, nextSid, nextPid, world, -, -, -, rfl⟩ := Server.acceptSession_eq_ok.1 hs
      exact hu
    · by_cases hstep : op = .step
      · subst hstep
        obtain ⟨snapshot, floor, bytes, hs, -⟩ := Server.exec_step.1 hexec
        obtain ⟨next, -, -, rfl, -, -⟩ := Server.step_eq_ok.1 hs
        rw [Server.stepped_replayRecorder]
        exact hu
      · obtain ⟨_, _, _, _, _, _, rfl⟩ := Server.exec_quiet hexec haccept hstep
        exact hu

/-- The baseline is recorded by the first step. -/
theorem initialBaseline_of_runServer {config : ServerConfig} {ops : List (Op F)} {s : Server F}
    {outs : List (Out F)} (hrun : runServer config ops = .ok (s, outs)) :
    s.baselineRecorded = false → s.replayRecorder.initialBaseline = none := by
  refine runServer_invariant (P := fun s => s.baselineRecorded = false →
    s.replayRecorder.initialBaseline = none) (fun u hnew => ?_) (fun u op v o hu hexec => ?_) hrun
  · obtain ⟨-, rfl⟩ := Server.new_eq_ok.1 hnew
    exact fun _ => rfl
  · by_cases haccept : op = .acceptSession
    · subst haccept
      obtain ⟨sid, p, e, hs, -⟩ := Server.exec_acceptSession.1 hexec
      obtain ⟨-, -, -, nextSid, nextPid, world, -, -, -, rfl⟩ := Server.acceptSession_eq_ok.1 hs
      exact hu
    · by_cases hstep : op = .step
      · subst hstep
        obtain ⟨snapshot, floor, bytes, hs, -⟩ := Server.exec_step.1 hexec
        obtain ⟨next, -, -, rfl, -, -⟩ := Server.step_eq_ok.1 hs
        exact nofun
      · obtain ⟨_, _, _, _, _, _, rfl⟩ := Server.exec_quiet hexec haccept hstep
        exact hu

theorem acceptSession_mem_serverCalls {d : Decoder F} {x : Service × LoopOut F} :
    .acceptSession ∈ serverCalls d x ↔ x.2.opens ≠ none := by
  constructor
  · exact fun hmem hnone => acceptSession_notMem_serverCalls hnone hmem
  · obtain ⟨x, o⟩ := x
    cases o <;> simp [serverCalls, LoopOut.opens]

theorem step_mem_serverCalls {d : Decoder F} {x : Service × LoopOut F} :
    .step ∈ serverCalls d x ↔ x.2.isBroadcast = true := by
  obtain ⟨⟨_ | _ | _⟩ | _ | _, o⟩ := x <;> cases o <;> simp [serverCalls, LoopOut.isBroadcast]

/-- What the loop returns for a match, and what became of it. -/
structure Hosted (config : ServerConfig) (outs : List (LoopOut F)) (a : ReplayArtifact F) :
    Prop where
  opened : ∃ o ∈ outs, o.opens ≠ none
  broadcasts : outs.countP LoopOut.isBroadcast = config.matchDurationTicks.toNat
  checkpoint : a.checkpointTick = config.matchDurationTicks
  reason : a.endReason = "complete"
  /-- The artifact verifies unless a session is opened after the first broadcast, or two of them
  with one player. -/
  verifies : ∀ options : VerifyOptions,
    (verifyReplay a options = .ok () ↔ config.matchDurationTicks ≠ 0 ∧
      (∀ before o after, outs = before ++ o :: after → o.opens ≠ none →
        ∀ o' ∈ before, o'.isBroadcast = false) ∧ a.entitySpawnOrder.Nodup)

/-- The history of a run, split where its outputs are. -/
theorem zip_split {xs : List Service} {outs before after : List (LoopOut F)} {o : LoopOut F}
    (hlen : outs.length ≤ xs.length) (hsplit : outs = before ++ o :: after) :
    ∃ h x h', xs.zip outs = h ++ (x, o) :: h' ∧ h.map Prod.snd = before := by
  have hmap := List.map_snd_zip hlen
  rw [hsplit] at hmap ⊢
  obtain ⟨h, rest, hzip, hbefore, hrest⟩ := List.map_eq_append_iff.1 hmap
  obtain ⟨⟨x, o'⟩, h', rfl, rfl, -⟩ := List.map_eq_cons_iff.1 hrest
  exact ⟨h, x, h', hzip, hbefore⟩

/-- Whoever joins after a broadcast misses the first tick. -/
theorem opened_before_broadcast {d : Decoder F} {config : ServerConfig} {xs : List Service}
    {s : Edge F} {outs : List (LoopOut F)} (hrun : runEdge d config xs = .ok (s, outs))
    (hnodup : s.loop.server.entitySpawnOrder.Nodup)
    (hvalid : validateInputStream (s.loop.server.finalize .complete) = .ok ())
    {before after : List (LoopOut F)} {o : LoopOut F} (hsplit : outs = before ++ o :: after)
    (hopen : o.opens ≠ none) : ∀ o' ∈ before, o'.isBroadcast = false := by
  intro o' ho'
  obtain ⟨oss, hserver, -, -⟩ := runEdge_calls hrun
  obtain ⟨s₀, -, hloop⟩ := bind_eq_ok.1 hrun
  obtain ⟨h, x, h', hzip, rfl⟩ := zip_split (Machine.length_of_run hloop).le hsplit
  obtain ⟨first, rest, hcalls⟩ := List.append_of_mem
    (acceptSession_mem_serverCalls (d := d) (x := (x, o)) |>.2 hopen)
  rw [hzip, List.flatMap_append, List.flatMap_cons, hcalls, List.append_assoc, List.cons_append,
    ← List.append_assoc] at hserver
  have hstep := not_joined_later hserver hnodup hvalid
  obtain ⟨y, hy, rfl⟩ := List.mem_map.1 ho'
  rw [← Bool.not_eq_true, ← step_mem_serverCalls (d := d)]
  exact fun hmem => hstep (List.mem_append_left _ (List.mem_flatMap.2 ⟨y, hy, hmem⟩))

/-- If no session is opened after the first broadcast, the artifact verifies. -/
theorem verifyReplay_of_opened_before {d : Decoder F} {config : ServerConfig} {xs : List Service}
    {s : Edge F} {outs : List (LoopOut F)} (hrun : runEdge d config xs = .ok (s, outs))
    (hnodup : s.loop.server.entitySpawnOrder.Nodup) (hstep : s.loop.server.baselineRecorded = true)
    (hbefore : ∀ before o after, outs = before ++ o :: after → o.opens ≠ none →
      ∀ o' ∈ before, o'.isBroadcast = false) (options : VerifyOptions) :
    verifyReplay (s.loop.server.finalize .complete) options = .ok () := by
  obtain ⟨oss, hserver, -, -⟩ := runEdge_calls hrun
  obtain ⟨s₀, -, hloop⟩ := bind_eq_ok.1 hrun
  have houts := List.map_snd_zip (Machine.length_of_run hloop).le
  have hpos := ((recorded_of_run hserver).stepped hstep).1
  rw [(Paced.of_run hrun).ticks] at hpos
  obtain ⟨o, ho, hfirst⟩ := List.countP_pos_iff.1 hpos
  have hexists : ∃ y ∈ xs.zip outs, y.2.isBroadcast = true := by
    rw [← houts] at ho
    obtain ⟨y, hy, rfl⟩ := List.mem_map.1 ho
    exact ⟨y, hy, hfirst⟩
  have hwhole := hserver
  -- The joins end where the first broadcast is.
  obtain ⟨y, hfind⟩ := Option.isSome_iff_exists.1 (List.find?_isSome.2 hexists)
  obtain ⟨hy, h, h', hzip, hnone⟩ := List.find?_eq_some_iff_append.1 hfind
  rw [hzip, List.flatMap_append] at hserver
  obtain ⟨t, os, os', hjoins, hrest, -⟩ := runServer_append hserver
  have hstart := (Lockstep.of_joins hjoins fun hmem => by
    obtain ⟨z, hz, hmem⟩ := List.mem_flatMap.1 hmem
    have hz' := hnone z hz
    rw [step_mem_serverCalls.1 hmem] at hz'
    cases hz').1
  have hend := hstart.run hrest fun hmem => by
    obtain ⟨z, hz, hmem⟩ := List.mem_flatMap.1 hmem
    have hopen := acceptSession_mem_serverCalls.1 hmem
    rcases List.mem_cons.1 hz with rfl | hz
    · exact hopen (LoopOut.opens_of_isBroadcast hy)
    · obtain ⟨mid, rest, rfl⟩ := List.append_of_mem hz
      have hsplit :
          outs = (h.map Prod.snd ++ y.2 :: mid.map Prod.snd) ++ z.2 :: rest.map Prod.snd := by
        rw [← houts, hzip]
        simp
      have hy' := hbefore _ _ _ hsplit hopen y.2 (by simp)
      rw [hy] at hy'
      cases hy'
  have hbuild : (s.loop.server.finalize .complete).buildFingerprint = none :=
    congrArg (Option.map _) (buildFingerprint_of_runServer hwhole)
  exact hend.verifyReplay_finalize hstep (tickRateHz_ne_zero hserver) hnodup
    (verifyBuild_of_unrecorded hbuild)

/-- The loop returns the artifact of exactly as many ticks as the match lasts, or gives up having
opened no session. -/
theorem hosted {d : Decoder F} {config : ServerConfig} {xs : List Service} {s : Edge F}
    {outs : List (LoopOut F)} (hrun : runEdge d config xs = .ok (s, outs)) :
    (∀ a, s.loop.result = some (.ok a) → Hosted config outs a) ∧
      ∀ e, s.loop.result = some (.error e) →
        e = connectTimeoutMessage ∧ ∀ o ∈ outs, o.opens = none ∧ o.isBroadcast = false := by
  obtain ⟨oss, hserver, -, -⟩ := runEdge_calls hrun
  have hpaced := Paced.of_run hrun
  have hconfig := (config_of_runServer hserver).1
  have hrecorded := recorded_of_run hserver
  constructor
  · intro a hresult
    obtain ⟨reason, hphase, rfl⟩ : ∃ reason, s.loop.phase = .ended reason ∧
        s.loop.server.finalize reason = a := by
      unfold TickLoop.result at hresult
      split at hresult
      · exact ⟨_, ‹_›, Except.ok.inj (Option.some.inj hresult)⟩
      · cases hresult
      · cases hresult
    have hended := hpaced.ended reason hphase
    rw [hconfig] at hended
    cases reason
    refine ⟨hpaced.opened (.inr (by simp [hphase])), ?_, hended, rfl, fun options => ?_⟩
    · rw [← hpaced.ticks, hended]
    · constructor
      · intro hok
        obtain ⟨-, world, hworld, -⟩ := verifyReplay_eq_ok.1 hok
        obtain ⟨baseline, -, -, hvalid, hsome, -⟩ := verifyWorld_eq_ok.1 hworld
        have hnodup := nodup_of_verifyReplay hserver hok
        refine ⟨fun hzero => ?_, fun before o after hsplit hopen =>
          opened_before_broadcast hrun hnodup hvalid hsplit hopen, ?_⟩
        -- In no tick nothing is recorded.
        have hnot : s.loop.server.baselineRecorded = false := by
          by_contra hstep
          have hpos := (hrecorded.stepped (by simpa using hstep)).1
          rw [hended, hzero] at hpos
          exact absurd hpos (Nat.lt_irrefl 0)
        have hnone : (s.loop.server.finalize .complete).initialBaseline = none :=
          congrArg (Option.map Baseline.toProto) (initialBaseline_of_runServer hserver hnot)
        rw [hnone] at hsome
        cases hsome
        rw [finalize_entitySpawnOrder hrecorded]
        exact hnodup.map fun _ _ => toUInt32_inj.1
      · rintro ⟨hzero, hbefore, hapart⟩
        rw [finalize_entitySpawnOrder hrecorded] at hapart
        refine verifyReplay_of_opened_before hrun hapart.of_map ?_ hbefore options
        by_contra hnot
        exact hzero (hended ▸ hrecorded.unstepped (by simpa using hnot))
  · intro e hresult
    have hphase : s.loop.phase = .timedOut ∧ e = connectTimeoutMessage := by
      unfold TickLoop.result at hresult
      split at hresult
      · cases hresult
      · exact ⟨‹_›, (Except.error.inj (Option.some.inj hresult)).symm⟩
      · cases hresult
    refine ⟨hphase.2, fun o ho => ⟨hpaced.unopened (.inr hphase.1) o ho, ?_⟩⟩
    have hticks := hpaced.ticks
    rw [hpaced.resting (.inr hphase.1)] at hticks
    exact Bool.eq_false_iff.2 (List.countP_eq_zero.1 hticks.symm o ho)

/-- A match of one tick, which its only peer leaves before the end. -/
theorem hosted_of_one_tick : ∃ s outs a,
    runEdge oneCommand { matchDurationTicks := 1 } [.event (.connect 0),
      .event (.receive 0 channelControl []), .idle false, .event (.disconnect 0),
      .idle false] = .ok (s, outs) ∧
    s.loop.result = some (.ok a) ∧ Hosted { matchDurationTicks := 1 } outs a := by
  have h : (runEdge oneCommand { matchDurationTicks := 1 } [.event (.connect 0),
      .event (.receive 0 channelControl []), .idle false, .event (.disconnect 0),
      .idle false]).map (fun x => x.1.loop.phase) = .ok (.ended .complete) := by
    decide +kernel
  obtain ⟨⟨s, outs⟩, hrun, hphase⟩ := map_eq_ok.1 h
  have hresult : s.loop.result = some (.ok (s.loop.server.finalize .complete)) := by
    rw [TickLoop.result, hphase]
  exact ⟨s, outs, _, hrun, hresult, (hosted hrun).1 _ hresult⟩

end Flowstate
