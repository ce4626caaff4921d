import Flowstate.Lockstep
import Flowstate.Slot

/-!
# The input lead

A session's floor moves with every step, whether or not the client has heard of it : it is
the tick plus the lead in every state (`Told`). So a command aimed at the newest floor a
session was told is accepted as long as the server does not step, and is below the session's
floor from the next step on, long before its tick is processed (`headroom`). The lead is how
far ahead a client has to aim, not how long its command may take.
-/

set_option linter.unusedSectionVars false

open Rust

namespace Flowstate

variable {F : Type} [F64 F]

/-- The floor `sid` was told last, once an operation has been answered. -/
def tell (sid : SessionId) : Option Tick → Op F × Out F → Option Tick
  | told, (.acceptSession, .accepted sid' _ _) => if sid' = sid then none else told
  | told, (.welcomeFor sid', .welcomed welcome) =>
    if sid' = sid then some welcome.targetTickFloor else told
  | _, (.step, .stepped _ floor _) => some floor
  | told, _ => told

/-- The floor of the newest welcome or snapshot emitted to `sid` in a history. -/
def newestFloor (sid : SessionId) (h : List (Op F × Out F)) : Option Tick :=
  h.foldl (tell sid) none

@[simp] theorem newestFloor_concat (sid : SessionId) (h : List (Op F × Out F)) (x : Op F × Out F) :
    newestFloor sid (h ++ [x]) = tell sid (newestFloor sid h) x := by
  rw [newestFloor, List.foldl_append]
  rfl

/-- What the server keeps of the floors it has told its live sessions. -/
structure Told (h : List (Op F × Out F)) (s : Server F) : Prop where
  below : ∀ sid ∈ s.sessions, sid < s.nextSessionId
  player : ∀ sid ∈ s.sessions, ∃ p, s.sessionPlayers.lookup sid = some p
  live : ∀ sid floor, s.lastEmittedFloor.lookup sid = some floor → sid ∈ s.sessions
  newest : ∀ sid ∈ s.sessions, s.lastEmittedFloor.lookup sid = newestFloor sid h
  current : ∀ sid floor, s.lastEmittedFloor.lookup sid = some floor →
    floor.toNat = s.world.tick.toNat + s.config.inputLeadTicks.toNat

namespace Told

variable {h : List (Op F × Out F)} {s s' : Server F}

theorem accept (ht : Told h s) {o : Out F} (hexec : s.exec .acceptSession = .ok (s', o)) :
    Told (h ++ [(.acceptSession, o)]) s' := by
  obtain ⟨sid, p, e, hs, rfl⟩ := Server.exec_acceptSession.1 hexec
  obtain ⟨-, rfl, -, nextSid, nextPid, world, hnext, -, hspawn, rfl⟩ :=
    Server.acceptSession_eq_ok.1 hs
  obtain ⟨rfl, next, -, rfl⟩ := World.spawnCharacter_eq_ok.1 hspawn
  have hnew : s.nextSessionId ∉ s.sessions := fun hmem =>
    absurd (ht.below _ hmem) (UInt64.lt_irrefl _)
  have hlt : s.nextSessionId < nextSid := UInt64.lt_iff_toNat_lt.2 (by omega)
  refine ⟨fun sid hmem => ?_, fun sid hmem => ?_, fun sid floor hfloor => ?_, fun sid hmem => ?_,
    ht.current⟩
  · rcases (AList.mem_insert _).1 hmem with rfl | hmem
    · exact hlt
    · exact UInt64.lt_trans (ht.below sid hmem) hlt
  · rw [HashMap.lookup_insert]
    split_ifs with heq
    · exact ⟨p, rfl⟩
    · exact ht.player sid ((AList.mem_insert _).1 hmem |>.resolve_left heq)
  · exact (AList.mem_insert _).2 (.inr (ht.live sid floor hfloor))
  · simp only [newestFloor_concat, tell]
    split_ifs with heq
    · -- A floor recorded for a new session would make it a live one.
      rcases hlookup : s.lastEmittedFloor.lookup sid with _ | floor
      · rfl
      · exact absurd (heq ▸ ht.live sid floor hlookup) hnew
    · exact ht.newest sid ((AList.mem_insert _).1 hmem |>.resolve_left fun h => heq h.symm)

theorem welcome (ht : Told h s) {sid : SessionId} {o : Out F}
    (hexec : s.exec (.welcomeFor sid) = .ok (s', o)) : Told (h ++ [(.welcomeFor sid, o)]) s' := by
  obtain ⟨welcome, hs, rfl⟩ := Server.exec_welcomeFor.1 hexec
  obtain ⟨session, hsession, floor, hfloor, rfl, rfl⟩ := Server.welcomeFor_eq_ok.1 hs
  have hmem : sid ∈ s.sessions := AList.lookup_isSome.1 (by rw [hsession]; rfl)
  refine ⟨ht.below, ht.player, fun sid' floor' h' => ?_, fun sid' hmem' => ?_,
    fun sid' floor' h' => ?_⟩
  · rw [HashMap.lookup_insert] at h'
    split_ifs at h' with heq
    · exact heq ▸ hmem
    · exact ht.live sid' floor' h'
  · rw [HashMap.lookup_insert, newestFloor_concat]
    simp only [tell, eq_comm (a := sid)]
    split_ifs
    · rfl
    · exact ht.newest sid' hmem'
  · rw [HashMap.lookup_insert] at h'
    split_ifs at h'
    · exact Option.some.inj h' ▸ hfloor
    · exact ht.current sid' floor' h'

/-- An operation that tells no floor and changes no session keeps what was told. -/
theorem quiet (ht : Told h s) (op : Op F) (o : Out F)
    (htell : ∀ sid, newestFloor sid (h ++ [(op, o)]) = newestFloor sid h) :
    Told (h ++ [(op, o)]) s :=
  ⟨ht.below, ht.player, ht.live, fun sid hmem => (ht.newest sid hmem).trans (htell sid).symm,
    ht.current⟩

theorem receive (ht : Told h s) {sid : SessionId} {input : InputCmdProto F} {o : Out F}
    (hexec : s.exec (.receiveInput sid input) = .ok (s', o)) :
    Told (h ++ [(.receiveInput sid input, o)]) s' := by
  obtain ⟨result, hs, rfl⟩ := Server.exec_receiveInput.1 hexec
  have hquiet := ht.quiet (.receiveInput sid input) (.verdict result) fun sid' =>
    newestFloor_concat ..
  rcases Server.receiveInput_cases hs with rfl | ⟨p, -, -, rfl, -⟩
  · exact hquiet
  · exact ⟨hquiet.below, hquiet.player, hquiet.live, hquiet.newest, hquiet.current⟩

theorem disconnect (ht : Told h s) {sid : SessionId} {o : Out F}
    (hexec : s.exec (.disconnectSession sid) = .ok (s', o)) :
    Told (h ++ [(.disconnectSession sid, o)]) s' := by
  obtain ⟨rfl, rfl⟩ := Server.exec_disconnectSession.1 hexec
  have hquiet := ht.quiet (.disconnectSession sid) .disconnected fun sid' =>
    newestFloor_concat ..
  unfold Server.disconnectSession
  rcases s.sessions.lookup sid with _ | session
  · exact hquiet
  · refine ⟨fun sid' hmem => ?_, fun sid' hmem => ?_, fun sid' floor h' => ?_,
      fun sid' hmem => ?_, fun sid' floor h' => ?_⟩
    · exact ht.below sid' (AList.mem_erase.1 hmem).2
    · obtain ⟨hne, hmem⟩ := AList.mem_erase.1 hmem
      rw [HashMap.lookup_erase, if_neg hne]
      exact ht.player sid' hmem
    · rw [HashMap.lookup_erase] at h'
      split_ifs at h' with hne
      exact AList.mem_erase.2 ⟨hne, ht.live sid' floor h'⟩
    · obtain ⟨hne, hmem⟩ := AList.mem_erase.1 hmem
      rw [HashMap.lookup_erase, if_neg hne]
      exact hquiet.newest sid' hmem
    · rw [HashMap.lookup_erase] at h'
      split_ifs at h' with hne
      exact ht.current sid' floor h'

theorem step (ht : Told h s) {o : Out F} (hexec : s.exec .step = .ok (s', o)) :
    Told (h ++ [(.step, o)]) s' := by
  obtain ⟨snapshot, floor, bytes, hs, rfl⟩ := Server.exec_step.1 hexec
  obtain ⟨next, -, hfloor, rfl, -, -⟩ := Server.step_eq_ok.1 hs
  have hlookup : ∀ sid, (s.stepped (s.steppedWorld next) floor).lastEmittedFloor.lookup sid =
      if sid ∈ s.sessions.keys then some floor else s.lastEmittedFloor.lookup sid := fun sid =>
    HashMap.lookup_insertAll ..
  refine ⟨ht.below, ht.player, fun sid floor' h' => ?_, fun sid hmem => ?_,
    fun sid floor' h' => ?_⟩
  · rw [hlookup] at h'
    split_ifs at h' with hmem
    · exact hmem
    · exact ht.live sid floor' h'
  · have hkey : sid ∈ s.sessions.keys := hmem
    rw [hlookup, if_pos hkey, newestFloor_concat]
    rfl
  · rw [hlookup] at h'
    split_ifs at h' with hmem
    · exact Option.some.inj h' ▸ hfloor
    · exact absurd (ht.live sid floor' h') hmem

theorem exec (ht : Told h s) {op : Op F} {o : Out F} (hexec : s.exec op = .ok (s', o)) :
    Told (h ++ [(op, o)]) s' := by
  cases op with
  | acceptSession => exact ht.accept hexec
  | welcomeFor sid => exact ht.welcome hexec
  | receiveInput sid input => exact ht.receive hexec
  | disconnectSession sid => exact ht.disconnect hexec
  | step => exact ht.step hexec

theorem of_new {config : ServerConfig} (hnew : Server.new config = .ok s) : Told [] s := by
  obtain ⟨-, rfl⟩ := Server.new_eq_ok.1 hnew
  refine ⟨fun sid hmem => absurd hmem (AList.notMem_empty sid),
    fun sid hmem => absurd hmem (AList.notMem_empty sid), fun sid floor h => ?_,
    fun sid hmem => absurd hmem (AList.notMem_empty sid), fun sid floor h => ?_⟩ <;>
  · rw [AList.lookup_empty] at h
    exact nomatch h

end Told

theorem told_of_run {config : ServerConfig} {ops : List (Op F)} {s : Server F}
    {outs : List (Out F)} (hrun : runServer config ops = .ok (s, outs)) :
    Told (ops.zip outs) s := by
  exact runServer_history (P := Told) (fun s hnew => Told.of_new hnew)
    (fun h s op s' o ht hexec => ht.exec hexec) hrun

/-- A live session that has been told a floor stays one. -/
theorem mem_lastEmittedFloor_of_run {ops : List (Op F)} {s t : Server F} {outs : List (Out F)}
    (hrun : (serverMachine F).run s ops = .ok (t, outs)) {sid : SessionId}
    (hbelow : sid < s.nextSessionId) (htold : sid ∈ s.lastEmittedFloor) (hlive : sid ∈ t.sessions) :
    sid ∈ t.lastEmittedFloor := by
  refine (Machine.run_invariant (M := serverMachine F) (P := fun u => sid < u.nextSessionId ∧
    (sid ∈ u.sessions → sid ∈ u.lastEmittedFloor)) (fun u op v o hu hexec => ?_)
    ⟨hbelow, fun _ => htold⟩ hrun).2 hlive
  obtain ⟨hlt, hmem⟩ := hu
  change u.exec op = .ok (v, o) at hexec
  cases op with
  | acceptSession =>
    obtain ⟨sid', p, e, hs, rfl⟩ := Server.exec_acceptSession.1 hexec
    obtain ⟨-, rfl, -, nextSid, nextPid, world, hnext, -, -, rfl⟩ :=
      Server.acceptSession_eq_ok.1 hs
    have hlt' : u.nextSessionId < nextSid := UInt64.lt_iff_toNat_lt.2 (by omega)
    refine ⟨UInt64.lt_trans hlt hlt', fun hlive => hmem ?_⟩
    exact ((AList.mem_insert _).1 hlive).resolve_left (UInt64.ne_of_lt hlt)
  | welcomeFor sid' =>
    obtain ⟨welcome, hs, rfl⟩ := Server.exec_welcomeFor.1 hexec
    obtain ⟨session, -, floor, -, rfl, -⟩ := Server.welcomeFor_eq_ok.1 hs
    exact ⟨hlt, fun hlive => (AList.mem_insert _).2 (.inr (hmem hlive))⟩
  | receiveInput sid' input =>
    obtain ⟨result, hs, rfl⟩ := Server.exec_receiveInput.1 hexec
    rcases Server.receiveInput_cases hs with rfl | ⟨p, -, -, rfl, -⟩ <;> exact ⟨hlt, hmem⟩
  | disconnectSession sid' =>
    obtain ⟨rfl, rfl⟩ := Server.exec_disconnectSession.1 hexec
    unfold Server.disconnectSession
    rcases u.sessions.lookup sid' with _ | session
    · exact ⟨hlt, hmem⟩
    · refine ⟨hlt, fun hlive => ?_⟩
      obtain ⟨hne, hlive⟩ := AList.mem_erase.1 hlive
      exact AList.mem_erase.2 ⟨hne, hmem hlive⟩
  | step =>
    obtain ⟨snapshot, floor, bytes, hs, rfl⟩ := Server.exec_step.1 hexec
    obtain ⟨next, -, -, rfl, -, -⟩ := Server.step_eq_ok.1 hs
    refine ⟨hlt, fun hlive => ?_⟩
    have hkey : sid ∈ u.sessions.keys := hlive
    rw [← AList.lookup_isSome]
    change ((u.lastEmittedFloor.insertAll u.sessions.keys floor).lookup sid).isSome
    rw [HashMap.lookup_insertAll, if_pos hkey]
    rfl

/-- A command at the session's floor that finds room in its slot is accepted. -/
theorem Server.receiveInput_at_floor {s : Server F} {sid : SessionId} {cmd : InputCmdProto F}
    {p : PlayerId} (hp : s.sessionPlayers.lookup sid = some p)
    (hvalid : finiteMoveDir cmd.moveDir = true)
    (hfloor : s.lastEmittedFloor.lookup sid = some cmd.tick)
    (hlate : s.world.tick.toNat ≤ cmd.tick.toNat)
    (hfuture : cmd.tick.toNat ≤
      s.world.tick.toNat + s.inputBuffer.config.maxFutureTicks.toNat)
    (hwindow : s.world.tick.toNat + s.inputBuffer.config.maxFutureTicks.toNat < 2 ^ 64)
    (hroom : ¬Full s.inputBuffer.perTickLimit (s.inputBuffer.buffer.lookup (p, cmd.tick))) :
    ∃ s' result, s.receiveInput sid cmd = .ok (s', result) ∧ result.isAccepted = true := by
  have hbelow : ((s.lastEmittedFloor.lookup sid).getD 0).toNat ≤ cmd.tick.toNat := by
    rw [hfloor, Option.getD_some]
  have hscreen := (screen_within hbelow hlate hfuture).resolve_right fun h =>
    absurd hwindow (Nat.not_lt.2 h.1)
  rw [hvalid, if_pos rfl] at hscreen
  rw [receiveInput_eq, hp, hscreen]
  exact ⟨_, _, rfl, by
    rw [InputBuffer.tryBuffer_result]
    exact (receive_of_not_full hroom cmd).2⟩

/-- A valid command below the session's floor is dropped for that, whatever its slot. -/
theorem Server.receiveInput_below_floor {s : Server F} {sid : SessionId} {cmd : InputCmdProto F}
    {p : PlayerId} {floor : Tick} (hp : s.sessionPlayers.lookup sid = some p)
    (hvalid : finiteMoveDir cmd.moveDir = true)
    (hfloor : s.lastEmittedFloor.lookup sid = some floor) (hbelow : cmd.tick < floor) :
    s.receiveInput sid cmd = .ok (s, .droppedBelowFloor cmd.tick floor) := by
  have hscreen : screen s.inputBuffer.config.maxFutureTicks s.world.tick
      ((s.lastEmittedFloor.lookup sid).getD 0) cmd =
      .ok (some (.droppedBelowFloor cmd.tick floor)) := by
    rw [hfloor, Option.getD_some, screen, hvalid, if_neg (by decide), if_pos hbelow]
  rw [receiveInput_eq, hp, hscreen]

/-- A valid command for the newest floor its session was told, in state `s`, arrives in state
`t` after `more`. -/
theorem headroom {config : ServerConfig} {ops more : List (Op F)} {s t : Server F}
    {outs outs' : List (Out F)} (hrun : runServer config ops = .ok (s, outs)) {sid : SessionId}
    {cmd : InputCmdProto F} (hlead : config.inputLeadTicks ≤ config.maxFutureTicks)
    (hvalid : finiteMoveDir cmd.moveDir = true) (hlive : sid ∈ s.sessions)
    (hnewest : newestFloor sid (ops.zip outs) = some cmd.tick)
    (hmore : (serverMachine F).run s more = .ok (t, outs')) (hstill : sid ∈ t.sessions) :
    (steps more = 0 → t.world.tick.toNat + config.maxFutureTicks.toNat < 2 ^ 64 →
      (∀ p, t.sessionPlayers.lookup sid = some p →
        ¬Full t.inputBuffer.perTickLimit (t.inputBuffer.buffer.lookup (p, cmd.tick))) →
      ∃ t' result, t.receiveInput sid cmd = .ok (t', result) ∧ result.isAccepted = true) ∧
    (0 < steps more → ∃ floor : Tick,
      floor.toNat = t.world.tick.toNat + config.inputLeadTicks.toNat ∧
      t.receiveInput sid cmd = .ok (t, .droppedBelowFloor cmd.tick floor)) := by
  have htold := told_of_run hrun
  have htold' := told_of_run (runServer_concat hrun hmore)
  have hfloor := (htold.newest sid hlive).trans hnewest
  have htick := htold.current sid cmd.tick hfloor
  obtain ⟨hconfig, -⟩ := config_of_runServer hrun
  obtain ⟨hconfig', hwindow'⟩ := config_of_runServer (runServer_concat hrun hmore)
  obtain ⟨p, hp⟩ := htold'.player sid hstill
  -- The floor of the session in `t`, which is where its clock stands then.
  obtain ⟨floor, hfloor'⟩ := Option.isSome_iff_exists.1 (AList.lookup_isSome.2
    (mem_lastEmittedFloor_of_run hmore (htold.below sid hlive)
      (AList.lookup_isSome.1 (by rw [hfloor]; rfl)) hstill))
  have htick' := htold'.current sid floor hfloor'
  have hclock := (tick_of_run hmore).1
  rw [hconfig] at htick
  rw [hconfig'] at htick'
  rw [UInt64.le_iff_toNat_le] at hlead
  constructor
  · intro hsteps hwindow hroom
    have heq : floor = cmd.tick := UInt64.toNat_inj.1 (by omega)
    subst heq
    refine Server.receiveInput_at_floor hp hvalid hfloor' (by omega) ?_ ?_ (hroom p hp) <;>
      rw [hwindow']
    · omega
    · exact hwindow
  · intro hsteps
    refine ⟨floor, htick', Server.receiveInput_below_floor hp hvalid hfloor' ?_⟩
    rw [UInt64.lt_iff_toNat_lt]
    omega

/-- With the lead of one tick, a command for the floor of the welcome arrives after the first
step. Its tick has not been processed, its slot is empty, and it is dropped. -/
theorem not_accepted_after_step : ∃ s outs t outs',
    runServer (F := ℚ) {} [.acceptSession, .welcomeFor 1] = .ok (s, outs) ∧
    1 ∈ s.sessions ∧
    newestFloor 1 ([.acceptSession, .welcomeFor 1].zip outs) = some 1 ∧
    (serverMachine ℚ).run s [.step] = .ok (t, outs') ∧ 1 ∈ t.sessions ∧ t.world.tick = 1 ∧
    t.inputBuffer.buffer.keys = [] ∧
    ∃ t', t.receiveInput 1 ⟨1, 1, [0, 0]⟩ = .ok (t', .droppedBelowFloor 1 2) := by
  have hwelcome : (runServer (F := ℚ) {} [.acceptSession, .welcomeFor 1]).map (fun x =>
      (x.1.sessions.keys, newestFloor 1 ([.acceptSession, .welcomeFor 1].zip x.2))) =
      .ok ([1], some 1) := by
    decide +kernel
  have hstep : (runServer (F := ℚ) {} [.acceptSession, .welcomeFor 1, .step]).map (fun x =>
      (x.1.sessions.keys, x.1.world.tick, x.1.inputBuffer.buffer.keys,
        (x.1.receiveInput 1 ⟨1, 1, [0, 0]⟩).map Prod.snd)) =
      .ok ([1], 1, [], .ok (.droppedBelowFloor 1 2)) := by
    decide +kernel
  obtain ⟨⟨s, outs⟩, hrun, h⟩ := map_eq_ok.1 hwelcome
  obtain ⟨⟨t, outs'⟩, hrun', h'⟩ := map_eq_ok.1 hstep
  simp only [Prod.mk.injEq] at h h'
  obtain ⟨hs, hnewest⟩ := h
  obtain ⟨ht, htick, hbuffer, hreceive⟩ := h'
  obtain ⟨⟨t', result⟩, hreceive, rfl⟩ := map_eq_ok.1 hreceive
  have hsplit : runServer {} ([.acceptSession, .welcomeFor 1] ++ [.step]) = .ok (t, outs') := hrun'
  obtain ⟨u, os, os', hfirst, hmore, -⟩ := runServer_append hsplit
  obtain ⟨rfl, rfl⟩ := Prod.mk.inj (Except.ok.inj (hrun.symm.trans hfirst))
  refine ⟨s, outs, t, os', hrun, ?_, hnewest, hmore, ?_, htick, hbuffer, t', hreceive⟩
  · exact AList.mem_keys.2 (hs ▸ List.mem_cons_self)
  · exact AList.mem_keys.2 (ht ▸ List.mem_cons_self)

/-- The command of `not_accepted_after_step`, arriving in time. -/
theorem headroom_of_welcome : ∃ s outs,
    runServer (F := ℚ) {} [.acceptSession, .welcomeFor 1] = .ok (s, outs) ∧
    ∃ s' result, s.receiveInput 1 ⟨1, 1, [0, 0]⟩ = .ok (s', result) ∧
      result.isAccepted = true := by
  have h : (runServer (F := ℚ) {} [.acceptSession, .welcomeFor 1]).map (fun x =>
      (x.1.sessions.keys, newestFloor 1 ([.acceptSession, .welcomeFor 1].zip x.2),
        x.1.world.tick, x.1.inputBuffer.buffer.keys)) = .ok ([1], some 1, 0, []) := by
    decide +kernel
  obtain ⟨⟨s, outs⟩, hrun, h⟩ := map_eq_ok.1 h
  simp only [Prod.mk.injEq] at h
  obtain ⟨hkeys, hnewest, htick, hbuffer⟩ := h
  have hlive : 1 ∈ s.sessions := AList.mem_keys.2 (hkeys ▸ List.mem_cons_self)
  have hvalid : finiteMoveDir (⟨1, 1, [0, 0]⟩ : InputCmdProto ℚ).moveDir = true := by
    decide +kernel
  have hmore : (serverMachine ℚ).run s [] = .ok (s, []) := rfl
  refine ⟨s, outs, hrun, (headroom hrun (by decide) hvalid hlive hnewest hmore hlive).1 rfl ?_ ?_⟩
  · rw [htick]
    decide
  · rintro p - ⟨entry, hentry, -⟩
    have hmem : (p, 1) ∈ s.inputBuffer.buffer.keys :=
      AList.mem_keys.1 (AList.lookup_isSome.1 (by rw [hentry]; rfl))
    exact absurd (hbuffer ▸ hmem) List.not_mem_nil

end Flowstate
