import Flowstate.Lockstep
import Flowstate.Selection

/-!
# Target ticks of one session

A session announces a check that its commands' ticks do not go back, and has a field for the
last valid tick, but nothing reads or writes it. An accepted command is buffered until the
world reaches its tick, and from then on an earlier tick is late. So a command that goes
back behind an accepted one is accepted exactly while that one is pending : if no command
is admitted in front of a pending one of its player, the accepted ticks of every session
are in order. The other way, what is pending for a player has been accepted (`Backed`), so
that with distinct players they are in order in no other case
(`ordered_of_noLaterPending`).
-/

set_option linter.unusedSectionVars false

open Rust

namespace Flowstate

variable {F : Type} [F64 F]

/-- The tick of the command an operation has accepted for the session. -/
def acceptedTick (sid : SessionId) : Op F × Out F → Option Tick
  | (.receiveInput sid' input, .verdict result) =>
    if sid' = sid ∧ result.isAccepted then some input.tick else none
  | _ => none

/-- The ticks of the commands accepted for the session, in order of acceptance. -/
def acceptedTicks (sid : SessionId) (h : List (Op F × Out F)) : List Tick :=
  h.filterMap (acceptedTick sid)

/-- If the command passes the checks and its slot is not full, no command of its player is
pending for a later tick. -/
def NoLaterPending (s : Server F) (sid : SessionId) (input : InputCmdProto F) : Prop :=
  ∀ p, s.sessionPlayers.lookup sid = some p →
    screen s.inputBuffer.config.maxFutureTicks s.world.tick
      ((s.lastEmittedFloor.lookup sid).getD 0) input = .ok none →
    ¬Full s.inputBuffer.perTickLimit (s.inputBuffer.buffer.lookup (p, input.tick)) →
    ∀ t, input.tick < t → s.inputBuffer.buffer.lookup (p, t) = none

/-! ## What is accepted stays pending -/

theorem acceptedTick_eq_some {sid : SessionId} {op : Op F} {o : Out F} {t : Tick}
    (h : acceptedTick sid (op, o) = some t) : ∃ input result, op = .receiveInput sid input ∧
      o = .verdict result ∧ result.isAccepted = true ∧ t = input.tick := by
  unfold acceptedTick at h
  split at h
  · rename_i sid' input result heq
    obtain ⟨rfl, rfl⟩ := Prod.mk.inj heq
    split_ifs at h with hacc
    obtain ⟨rfl, hacc⟩ := hacc
    exact ⟨input, result, rfl, rfl, hacc, (Option.some.inj h).symm⟩
  · cases h

/-- A command that is not accepted changes nothing. An accepted one has passed the checks and
found room in its slot. -/
theorem Server.receiveInput_verdict {s s' : Server F} {sid : SessionId} {input : InputCmdProto F}
    {result : ValidationResult} (h : s.receiveInput sid input = .ok (s', result)) :
    result.isAccepted = false ∧ s' = s ∨
      ∃ p, s.sessionPlayers.lookup sid = some p ∧
        screen s.inputBuffer.config.maxFutureTicks s.world.tick
          ((s.lastEmittedFloor.lookup sid).getD 0) input = .ok none ∧
        ¬Full s.inputBuffer.perTickLimit (s.inputBuffer.buffer.lookup (p, input.tick)) ∧
        s' = { s with inputBuffer := (s.inputBuffer.tryBuffer p input).1 } := by
  rw [receiveInput_eq] at h
  rcases hp : s.sessionPlayers.lookup sid with _ | p
  · simp only [hp, Except.ok.injEq, Prod.mk.injEq] at h
    exact .inl ⟨h.2 ▸ rfl, h.1.symm⟩
  · rcases hscreen : screen s.inputBuffer.config.maxFutureTicks s.world.tick
      ((s.lastEmittedFloor.lookup sid).getD 0) input with e | _ | verdict
    · simp [hp, hscreen] at h
    · simp only [hp, hscreen, Except.ok.injEq, Prod.mk.injEq] at h
      by_cases hfull : Full s.inputBuffer.perTickLimit
          (s.inputBuffer.buffer.lookup (p, input.tick))
      · rw [InputBuffer.tryBuffer_of_full hfull] at h
        exact .inl ⟨h.2 ▸ rfl, h.1.symm⟩
      · exact .inr ⟨p, rfl, rfl, hfull, h.1.symm⟩
    · simp only [hp, hscreen, Except.ok.injEq, Prod.mk.injEq] at h
      exact .inl ⟨h.2 ▸ not_isAccepted_of_screen hscreen, h.1.symm⟩

theorem isSome_receive (perTickLimit : UInt32) (slot : Option (BufferEntry F))
    (input : InputCmdProto F) : (BufferEntry.receive perTickLimit slot input).1.isSome := by
  unfold BufferEntry.receive
  rcases slot with _ | entry
  · rfl
  · dsimp only
    split_ifs <;> rfl

theorem acceptedTicks_concat (sid : SessionId) (h : List (Op F × Out F)) (x : Op F × Out F) :
    acceptedTicks sid (h ++ [x]) = acceptedTicks sid h ++ (acceptedTick sid x).toList := by
  rw [acceptedTicks, List.filterMap_append]
  rcases hx : acceptedTick sid x with _ | t <;> simp [hx, acceptedTicks]

/-- The accepted ticks of a session are gone by, or pending for its player. -/
structure Arrivals (h : List (Op F × Out F)) (s : Server F) : Prop where
  unissued : ∀ sid : SessionId, s.nextSessionId.toNat ≤ sid.toNat →
    s.sessionPlayers.lookup sid = none ∧ acceptedTicks sid h = []
  pending : ∀ sid p, s.sessionPlayers.lookup sid = some p → ∀ t ∈ acceptedTicks sid h,
    t.toNat < s.world.tick.toNat ∨ (s.inputBuffer.buffer.lookup (p, t)).isSome

namespace Arrivals

variable {h : List (Op F × Out F)} {s s' : Server F}

theorem new {config : ServerConfig} (hnew : Server.new config = .ok s) : Arrivals [] s := by
  obtain ⟨-, rfl⟩ := Server.new_eq_ok.1 hnew
  exact ⟨fun _ _ => ⟨rfl, rfl⟩, fun _ _ _ _ ht => absurd ht List.not_mem_nil⟩

/-- An operation that accepts no command, keeps what is pending, and binds no session
anew. -/
theorem frame (ha : Arrivals h s) {x : Op F × Out F} (hx : ∀ sid, acceptedTick sid x = none)
    (hids : s'.nextSessionId = s.nextSessionId)
    (hplayers : ∀ sid p, s'.sessionPlayers.lookup sid = some p →
      s.sessionPlayers.lookup sid = some p)
    (htick : s.world.tick.toNat ≤ s'.world.tick.toNat)
    (hbuffer : ∀ key, s'.world.tick.toNat ≤ key.2.toNat →
      (s.inputBuffer.buffer.lookup key).isSome → (s'.inputBuffer.buffer.lookup key).isSome) :
    Arrivals (h ++ [x]) s' := by
  have hsame : ∀ sid, acceptedTicks sid (h ++ [x]) = acceptedTicks sid h := fun sid => by
    rw [acceptedTicks_concat, hx]
    exact List.append_nil _
  refine ⟨fun sid hsid => ?_, fun sid p hp t ht => ?_⟩
  · obtain ⟨hnone, hticks⟩ := ha.unissued sid (hids ▸ hsid)
    refine ⟨Option.eq_none_iff_forall_ne_some.2 fun p hp => ?_, (hsame sid).trans hticks⟩
    rw [hplayers sid p hp] at hnone
    cases hnone
  · rw [hsame] at ht
    by_cases hlate : t.toNat < s'.world.tick.toNat
    · exact .inl hlate
    · refine .inr (hbuffer (p, t) (Nat.not_lt.1 hlate) ?_)
      exact (ha.pending sid p (hplayers sid p hp) t ht).resolve_left (by omega)

/-- An accept binds a session that has sent nothing. -/
theorem accept (ha : Arrivals h s) {sid : SessionId} {p : PlayerId} {e : EntityId}
    (hs : s.acceptSession = .ok (s', sid, p, e)) :
    Arrivals (h ++ [(.acceptSession, .accepted sid p e)]) s' := by
  obtain ⟨-, rfl, -, nextSid, nextPid, world, hnext, -, hspawn, rfl⟩ :=
    Server.acceptSession_eq_ok.1 hs
  obtain ⟨rfl, next, -, rfl⟩ := World.spawnCharacter_eq_ok.1 hspawn
  have hsame : ∀ sid, acceptedTicks sid (h ++ [(.acceptSession,
      .accepted s.nextSessionId p s.world.nextEntityId)]) = acceptedTicks sid h := fun sid => by
    rw [acceptedTicks_concat]
    exact List.append_nil _
  refine ⟨fun sid hsid => ?_, fun sid q hq t ht => ?_⟩
  · rw [hnext] at hsid
    have hne : sid ≠ s.nextSessionId := fun heq => by
      rw [heq] at hsid
      omega
    obtain ⟨hnone, hticks⟩ := ha.unissued sid (by omega)
    exact ⟨by rw [HashMap.lookup_insert, if_neg hne, hnone], (hsame sid).trans hticks⟩
  · rw [hsame] at ht
    rw [HashMap.lookup_insert] at hq
    split_ifs at hq with heq
    · rw [heq, (ha.unissued s.nextSessionId le_rfl).2] at ht
      exact absurd ht List.not_mem_nil
    · exact ha.pending sid q hq t ht

theorem receive (ha : Arrivals h s) {sid : SessionId} {input : InputCmdProto F}
    {result : ValidationResult} (hs : s.receiveInput sid input = .ok (s', result)) :
    Arrivals (h ++ [(.receiveInput sid input, .verdict result)]) s' := by
  rcases Server.receiveInput_verdict hs with ⟨hresult, rfl⟩ | ⟨p, hp, -, -, rfl⟩
  · refine ha.frame (fun sid' => ?_) rfl (fun _ _ hp => hp) le_rfl fun _ _ hkey => hkey
    simp [acceptedTick, hresult]
  · have hbuffer : ∀ key, key = (p, input.tick) ∨ (s.inputBuffer.buffer.lookup key).isSome →
        ((s.inputBuffer.tryBuffer p input).1.buffer.lookup key).isSome := by
      intro key hkey
      rw [InputBuffer.lookup_tryBuffer]
      split_ifs with heq
      · exact isSome_receive ..
      · exact hkey.resolve_left heq
    refine ⟨fun sid' hsid' => ?_, fun sid' q hq t ht => ?_⟩
    · obtain ⟨hnone, hticks⟩ := ha.unissued sid' hsid'
      have hne : sid ≠ sid' := fun heq => by
        rw [heq, hnone] at hp
        cases hp
      refine ⟨hnone, ?_⟩
      rw [acceptedTicks_concat, hticks]
      simp [acceptedTick, hne]
    · rw [acceptedTicks_concat, List.mem_append] at ht
      rcases ht with ht | ht
      · exact (ha.pending sid' q hq t ht).imp_right fun hsome => hbuffer _ (.inr hsome)
      · simp only [acceptedTick] at ht
        split_ifs at ht with hacc
        · obtain ⟨rfl, -⟩ := hacc
          obtain rfl : p = q := Option.some.inj (hp.symm.trans hq)
          obtain rfl : t = input.tick := by simpa using ht
          exact .inr (hbuffer _ (.inl rfl))
        · exact absurd ht (by simp)

theorem exec (ha : Arrivals h s) {op : Op F} {o : Out F} (hexec : s.exec op = .ok (s', o)) :
    Arrivals (h ++ [(op, o)]) s' := by
  cases op with
  | acceptSession =>
    obtain ⟨sid, p, e, hs, rfl⟩ := Server.exec_acceptSession.1 hexec
    exact ha.accept hs
  | welcomeFor sid =>
    obtain ⟨welcome, hs, rfl⟩ := Server.exec_welcomeFor.1 hexec
    obtain ⟨session, -, floor, -, rfl, -⟩ := Server.welcomeFor_eq_ok.1 hs
    exact ha.frame (fun _ => rfl) rfl (fun _ _ hp => hp) le_rfl fun _ _ hkey => hkey
  | receiveInput sid input =>
    obtain ⟨result, hs, rfl⟩ := Server.exec_receiveInput.1 hexec
    exact ha.receive hs
  | disconnectSession sid =>
    obtain ⟨rfl, rfl⟩ := Server.exec_disconnectSession.1 hexec
    unfold Server.disconnectSession
    rcases s.sessions.lookup sid with _ | session
    · exact ha.frame (fun _ => rfl) rfl (fun _ _ hp => hp) le_rfl fun _ _ hkey => hkey
    · refine ha.frame (fun _ => rfl) rfl (fun sid' p hp => ?_) le_rfl fun _ _ hkey => hkey
      rw [HashMap.lookup_erase] at hp
      split_ifs at hp
      exact hp
  | step =>
    obtain ⟨snapshot, floor, bytes, hs, rfl⟩ := Server.exec_step.1 hexec
    obtain ⟨next, hnext, -, rfl, -, -⟩ := Server.step_eq_ok.1 hs
    refine ha.frame (fun _ => rfl) rfl (fun _ _ hp => hp) (hnext ▸ Nat.le_succ _)
      fun key hlater hkey => ?_
    rw [Server.stepped_world, Server.steppedWorld_tick] at hlater
    have hne : key.2 ≠ s.world.tick := fun heq => by
      rw [heq, hnext] at hlater
      omega
    change ((s.produced.1.evictBefore next).buffer.lookup key).isSome
    rw [InputBuffer.lookup_evictBefore, if_pos (UInt64.le_iff_toNat_le.2 hlater),
      Server.produced, Server.lookup_produceInputs, if_neg fun hsame => hne hsame.2]
    exact hkey

end Arrivals

/-! ## Order of acceptance -/

/-- An accepted command with nothing pending behind it is for a tick no earlier than those of
the commands accepted before it. -/
theorem Arrivals.pairwise {h : List (Op F × Out F)} {s s' : Server F} (ha : Arrivals h s)
    (hordered : ∀ sid, (acceptedTicks sid h).Pairwise (· ≤ ·)) {op : Op F} {o : Out F}
    (hop : ∀ sid input, op = .receiveInput sid input → NoLaterPending s sid input)
    (hexec : s.exec op = .ok (s', o)) (sid : SessionId) :
    (acceptedTicks sid (h ++ [(op, o)])).Pairwise (· ≤ ·) := by
  rw [acceptedTicks_concat]
  rcases htick : acceptedTick sid (op, o) with _ | t
  · simpa using hordered sid
  · obtain ⟨input, result, rfl, rfl, hacc, rfl⟩ := acceptedTick_eq_some htick
    obtain ⟨result', hs, heq⟩ := Server.exec_receiveInput.1 hexec
    obtain rfl := Out.verdict.inj heq
    rcases Server.receiveInput_verdict hs with ⟨hresult, -⟩ | ⟨p, hp, hscreen, hfull, -⟩
    · rw [hacc] at hresult
      cases hresult
    · refine List.pairwise_append.2 ⟨hordered sid, List.pairwise_singleton _ _, fun t ht t' ht' => ?_⟩
      obtain rfl : t' = input.tick := by simpa using ht'
      rw [UInt64.le_iff_toNat_le]
      rcases ha.pending sid p hp t ht with hlt | hsome
      · exact hlt.le.trans (le_tick_of_screen hscreen)
      · by_contra hback
        have hnone := hop sid input rfl p hp hscreen hfull t
          (UInt64.lt_iff_toNat_lt.2 (Nat.not_le.1 hback))
        rw [hnone] at hsome
        cases hsome

/-- No command of the run is admitted in front of a pending one of its player. -/
def NeverLaterPending (config : ServerConfig) (ops : List (Op F)) : Prop :=
  ∀ before after sid input u os, ops = before ++ .receiveInput sid input :: after →
    runServer config before = .ok (u, os) → NoLaterPending u sid input

theorem acceptedTicks_pairwise {config : ServerConfig} {ops : List (Op F)} {s : Server F}
    {outs : List (Out F)} (hrun : runServer config ops = .ok (s, outs))
    (hpending : NeverLaterPending config ops) (sid : SessionId) :
    (acceptedTicks sid (ops.zip outs)).Pairwise (· ≤ ·) := by
  obtain ⟨s₀, hnew, hrun⟩ := bind_eq_ok.1 hrun
  have hhistory := Machine.run_history_of (M := serverMachine F)
    (P := fun h s => Arrivals h s ∧ ∀ sid, (acceptedTicks sid h).Pairwise (· ≤ ·))
    (A := fun u op => ∀ sid input, op = .receiveInput sid input → NoLaterPending u sid input)
    (fun h s op s' o hP hA hexec => ⟨hP.1.exec hexec, hP.1.pairwise hP.2 hA hexec⟩)
    ⟨Arrivals.new hnew, fun _ => List.Pairwise.nil⟩ hrun
  refine (hhistory fun before op after u os hsplit hbefore sid input hop => ?_).2 sid
  subst hop
  exact hpending before after sid input u os hsplit (bind_eq_ok.2 ⟨s₀, hnew, hbefore⟩)

/-! ## What is pending has been accepted -/

/-- The filled slots of a session's lane are of ticks of its accepted commands. -/
def Backed (h : List (Op F × Out F)) (m : Match F) : Prop :=
  ∀ sid t, (m.lane sid).slots t ≠ none → t ∈ acceptedTicks sid h

namespace Backed

variable {h : List (Op F × Out F)} {m m' : Match F}

/-- An operation that fills no slot. -/
theorem frame (hb : Backed h m) {x : Op F × Out F}
    (hslots : ∀ sid t, (m'.lane sid).slots t ≠ none → (m.lane sid).slots t ≠ none) :
    Backed (h ++ [x]) m' := by
  intro sid t ht
  rw [acceptedTicks_concat]
  exact List.mem_append_left _ (hb sid t (hslots sid t ht))

theorem exec (hb : Backed h m) {op : Op F} {o : Out F} (hexec : m.exec op = .ok (m', o)) :
    Backed (h ++ [(op, o)]) m' := by
  have hset : ∀ sid' (l : Lane F), l.slots = (m.lane sid').slots → ∀ sid t,
      ((m.setLane sid' l).lane sid).slots t ≠ none → (m.lane sid).slots t ≠ none := by
    intro sid' l hl sid t ht
    rw [Match.lane_setLane] at ht
    split_ifs at ht with heq
    · rwa [heq, ← hl]
    · exact ht
  cases Match.steps_of_exec hexec with
  | join => exact hb.frame (hset _ _ rfl)
  | welcome => exact hb.frame (hset _ _ rfl)
  | leave => exact hb.frame (hset _ _ rfl)
  | unknown | drop | absent => exact hb.frame fun _ _ ht => ht
  | tick =>
    refine hb.frame fun sid t ht => ?_
    rw [Match.lane_advance] at ht
    split_ifs at ht
    · rw [Lane.advance] at ht
      dsimp only at ht
      split_ifs at ht
      · exact ht
      · exact absurd rfl ht
    · exact ht
  | @buffer sid' input hlive hscreen =>
    by_cases hfull : Full m.rules.perTickLimit ((m.lane sid').slots input.tick)
    · refine hb.frame (hset _ _ ?_)
      rw [Lane.buffer, receive_of_full hfull, Function.update_eq_self]
    · -- The slot of the command is the only one that fills.
      obtain ⟨-, hacc⟩ := receive_of_not_full hfull input
      intro sid t ht
      rw [acceptedTicks_concat]
      by_cases heq : sid = sid' ∧ t = input.tick
      · obtain ⟨rfl, rfl⟩ := heq
        exact List.mem_append_right _ (by simp [acceptedTick, hacc])
      · refine List.mem_append_left _ (hb sid t ?_)
        rw [Match.lane_setLane] at ht
        split_ifs at ht with hsid
        · rw [Lane.buffer] at ht
          dsimp only at ht
          rwa [Function.update_of_ne fun htick => heq ⟨hsid, htick⟩, ← hsid] at ht
        · exact ht

end Backed

theorem acceptedTicks_named (config : ServerConfig) (sid : SessionId) (ops : List (Op F))
    (outs : List (Out F)) : acceptedTicks sid (ops.zip (outs.map (Out.named config))) =
      acceptedTicks sid (ops.zip outs) := by
  have hname : acceptedTick sid ∘ Prod.map id (Out.named config) =
      (acceptedTick sid : Op F × Out F → _) := by
    ext ⟨op, o⟩
    cases op <;> cases o <;> rfl
  rw [acceptedTicks, acceptedTicks, List.zip_map_right, List.filterMap_map, hname]

/-- With distinct players, what is pending for a session's player is one of its commands. -/
theorem mem_acceptedTicks_of_pending {config : ServerConfig} {ops : List (Op F)} {s : Server F}
    {outs : List (Out F)} (hrun : runServer config ops = .ok (s, outs))
    (hnodup : s.entitySpawnOrder.Nodup) {sid : SessionId} {p : PlayerId}
    (hp : s.sessionPlayers.lookup sid = some p) {t : Tick}
    (ht : s.inputBuffer.buffer.lookup (p, t) ≠ none) : t ∈ acceptedTicks sid (ops.zip outs) := by
  obtain ⟨m, mouts, hm, rfl, hrel, -⟩ := runServer_refines hrun hnodup
  rw [hrel.sessionPlayers] at hp
  split_ifs at hp with hlive
  obtain rfl := Option.some.inj hp
  rw [hrel.slots sid (hrel.mem_order_of_live hlive)] at ht
  have hnew : Backed [] (Match.new (F := F) config.rules) := fun sid t ht => absurd rfl ht
  have hbacked := Machine.run_history (M := matchMachine F) (P := Backed)
    (fun _ _ _ _ _ h hexec => h.exec hexec) hnew hm
  rw [acceptedTicks_named]
  exact hbacked sid t ht

/-! ## The order of ticks -/

/-- If no command is admitted in front of a pending one of its player, every session's
commands are accepted in the order of their ticks, and one that goes back is dropped. With
distinct players the commands are in order in no other case. -/
theorem ordered_of_noLaterPending {config : ServerConfig} {ops : List (Op F)} {s : Server F}
    {outs : List (Out F)} (hrun : runServer config ops = .ok (s, outs)) :
    (NeverLaterPending config ops → ∀ sid, (acceptedTicks sid (ops.zip outs)).Pairwise (· ≤ ·) ∧
      ∀ before after input u os, ops = before ++ .receiveInput sid input :: after →
        runServer config before = .ok (u, os) →
          (∃ t ∈ acceptedTicks sid (before.zip os), input.tick < t) →
            ∃ u' result, u.receiveInput sid input = .ok (u', result) ∧
              result.isAccepted = false) ∧
    (s.entitySpawnOrder.Nodup → (∀ sid, (acceptedTicks sid (ops.zip outs)).Pairwise (· ≤ ·)) →
      NeverLaterPending config ops) := by
  constructor
  · intro hpending sid
    refine ⟨acceptedTicks_pairwise hrun hpending sid, ?_⟩
    rintro before after input u os rfl hbefore ⟨t, ht, hback⟩
    obtain ⟨u', o, os', hexec, -, -⟩ := runServer_split hrun hbefore
    obtain ⟨result, hs, rfl⟩ := Server.exec_receiveInput.1 hexec
    refine ⟨u', result, hs, Bool.eq_false_iff.2 fun hacc => ?_⟩
    -- The run up to the command has its tick last.
    have hordered := acceptedTicks_pairwise (runServer_snoc hbefore hexec)
      (fun before' after' sid' input' u' us hsplit =>
        hpending before' (after' ++ after) sid' input' u' us (by
          rw [← List.singleton_append, ← List.append_assoc, hsplit, List.append_assoc]
          rfl)) sid
    have htick : acceptedTick sid (.receiveInput sid input, .verdict result) = some input.tick := by
      simp [acceptedTick, hacc]
    rw [List.zip_append (length_of_runServer hbefore).symm, List.zip_cons_cons, List.zip_nil_left,
      acceptedTicks_concat, htick, Option.toList_some] at hordered
    have hle := (List.pairwise_append.1 hordered).2.2 t ht input.tick (List.mem_singleton_self _)
    exact absurd hback (UInt64.not_lt.2 hle)
  · rintro hnodup hordered before after sid input u os rfl hbefore p hp hscreen hfull t hlt
    by_contra hsome
    obtain ⟨v, o, os', hexec, hafter, rfl⟩ := runServer_split hrun hbefore
    have hu : u.entitySpawnOrder.Nodup := by
      rw [spawnOrder_of_run hafter, (Server.exec_frame hexec).2.1, List.append_assoc] at hnodup
      exact hnodup.of_append_left
    have ht := mem_acceptedTicks_of_pending hbefore hu hp hsome
    -- The command itself is accepted after the one that is pending.
    obtain ⟨result, hs, rfl⟩ := Server.exec_receiveInput.1 hexec
    have hacc : result.isAccepted = true := by
      rw [Server.receiveInput_eq] at hs
      simp only [hp, hscreen, Except.ok.injEq, Prod.mk.injEq] at hs
      rw [← hs.2, InputBuffer.tryBuffer_result]
      exact (receive_of_not_full hfull input).2
    have htick : acceptedTick sid (.receiveInput sid input, .verdict result) = some input.tick := by
      simp [acceptedTick, hacc]
    have hpairs := hordered sid
    rw [acceptedTicks, List.zip_append (length_of_runServer hbefore).symm, List.zip_cons_cons,
      List.filterMap_append, List.filterMap_cons, htick] at hpairs
    have hle := (List.pairwise_append.1 hpairs).2.2 t ht input.tick List.mem_cons_self
    exact absurd hlt (UInt64.not_lt.2 hle)

/-- Two commands in the order of their ticks. -/
theorem ordered_one_two : ∃ s outs,
    runServer (F := ℚ) {} [.acceptSession, .receiveInput 1 ⟨1, 1, [1, 0]⟩,
      .receiveInput 1 ⟨2, 2, [0, 1]⟩] = .ok (s, outs) ∧
    (acceptedTicks 1 ([.acceptSession, .receiveInput 1 ⟨1, 1, [1, 0]⟩,
      .receiveInput 1 ⟨2, 2, [0, 1]⟩].zip outs)).Pairwise (· ≤ ·) := by
  have h : (runServer (F := ℚ) {} [.acceptSession, .receiveInput 1 ⟨1, 1, [1, 0]⟩,
      .receiveInput 1 ⟨2, 2, [0, 1]⟩]).map (fun x => x.1.entitySpawnOrder) = .ok [0] := by
    decide +kernel
  have hkeys₁ : (runServer (F := ℚ) {} [.acceptSession]).map
      (fun x => x.1.inputBuffer.buffer.keys) = .ok [] := by
    decide +kernel
  have hkeys₂ : (runServer (F := ℚ) {} [.acceptSession, .receiveInput 1 ⟨1, 1, [1, 0]⟩]).map
      (fun x => x.1.inputBuffer.buffer.keys) = .ok [(0, 1)] := by
    decide +kernel
  obtain ⟨⟨s, outs⟩, hs, -⟩ := map_eq_ok.1 h
  refine ⟨s, outs, hs, ((ordered_of_noLaterPending hs).1 ?_ 1).1⟩
  intro before after sid input u os hsplit hbefore p hp hscreen hfull t ht
  rw [AList.lookup_eq_none, AList.mem_keys]
  rcases before with _ | ⟨op₁, _ | ⟨op₂, _ | ⟨op₃, before⟩⟩⟩
  · simp at hsplit
  · obtain ⟨rfl, -⟩ := List.cons.inj hsplit
    rw [hbefore] at hkeys₁
    have hkeys : u.inputBuffer.buffer.keys = [] := Except.ok.inj hkeys₁
    rw [hkeys]
    exact List.not_mem_nil
  · simp only [List.cons_append, List.nil_append, List.cons.injEq, Op.receiveInput.injEq] at hsplit
    obtain ⟨rfl, rfl, ⟨rfl, rfl⟩, -⟩ := hsplit
    rw [hbefore] at hkeys₂
    have hkeys : u.inputBuffer.buffer.keys = [(0, 1)] := Except.ok.inj hkeys₂
    rw [hkeys, List.mem_singleton]
    intro heq
    rw [(Prod.mk.inj heq).2] at ht
    exact absurd ht (by decide)
  · simp at hsplit

/-- A command for tick three is accepted after one for tick five. -/
theorem not_ordered_backwards : ∃ s outs,
    runServer (F := ℚ) {} [.acceptSession, .receiveInput 1 ⟨5, 1, [1, 0]⟩,
      .receiveInput 1 ⟨3, 2, [0, 1]⟩] = .ok (s, outs) ∧
    acceptedTicks 1 ([.acceptSession, .receiveInput 1 ⟨5, 1, [1, 0]⟩,
      .receiveInput 1 ⟨3, 2, [0, 1]⟩].zip outs) = [5, 3] ∧
    ¬(acceptedTicks 1 ([.acceptSession, .receiveInput 1 ⟨5, 1, [1, 0]⟩,
      .receiveInput 1 ⟨3, 2, [0, 1]⟩].zip outs)).Pairwise (· ≤ ·) := by
  have h : (runServer (F := ℚ) {} [.acceptSession, .receiveInput 1 ⟨5, 1, [1, 0]⟩,
      .receiveInput 1 ⟨3, 2, [0, 1]⟩]).map (fun x => acceptedTicks 1 ([.acceptSession,
        .receiveInput 1 ⟨5, 1, [1, 0]⟩, .receiveInput 1 ⟨3, 2, [0, 1]⟩].zip x.2)) =
          .ok [5, 3] := by
    decide +kernel
  obtain ⟨⟨s, outs⟩, hs, hticks⟩ := map_eq_ok.1 h
  exact ⟨s, outs, hs, hticks, hticks ▸ by decide⟩

end Flowstate
