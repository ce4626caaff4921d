import Flowstate.Window

/-!
# Which commands are accepted

A command is accepted exactly if its session is live, its direction is valid, its tick is
inside the window and its slot has room, and a command that is not accepted leaves no trace
(`receiveInput_exact`).

The count that limits a slot is deleted with the slot. But a slot is deleted only once its
tick is gone by, and then no command reaches it, so the limit of a slot is a limit on all
commands ever accepted of a session for a tick (`rate_limit`).
-/

set_option linter.unusedSectionVars false

open Rust

namespace Flowstate

variable {F : Type} [F64 F]

/-! ## Exact acceptance -/

/-- The session tables are filled and emptied together. -/
def Registered (s : Server F) : Prop :=
  ∀ sid, s.sessionPlayers.lookup sid = (s.sessions.lookup sid).map Session.playerId

theorem Registered.exec {s s' : Server F} (h : Registered s) {op : Op F} {o : Out F}
    (hexec : s.exec op = .ok (s', o)) : Registered s' := by
  cases op with
  | acceptSession =>
    obtain ⟨sid, p, e, hs, rfl⟩ := Server.exec_acceptSession.1 hexec
    obtain ⟨-, -, -, nextSid, nextPid, world, -, -, -, rfl⟩ := Server.acceptSession_eq_ok.1 hs
    intro sid'
    simp only [HashMap.lookup_insert]
    split_ifs
    · rfl
    · exact h sid'
  | welcomeFor sid =>
    obtain ⟨welcome, hs, rfl⟩ := Server.exec_welcomeFor.1 hexec
    obtain ⟨session, -, floor, -, rfl, -⟩ := Server.welcomeFor_eq_ok.1 hs
    exact h
  | receiveInput sid input =>
    obtain ⟨result, hs, rfl⟩ := Server.exec_receiveInput.1 hexec
    rcases Server.receiveInput_cases hs with rfl | ⟨p, -, -, rfl, -⟩ <;> exact h
  | disconnectSession sid =>
    obtain ⟨rfl, rfl⟩ := Server.exec_disconnectSession.1 hexec
    unfold Server.disconnectSession
    rcases s.sessions.lookup sid with _ | session
    · exact h
    · intro sid'
      simp only [HashMap.lookup_erase]
      split_ifs
      · rfl
      · exact h sid'
  | step =>
    obtain ⟨snapshot, floor, bytes, hs, rfl⟩ := Server.exec_step.1 hexec
    obtain ⟨t, -, -, rfl, -, -⟩ := Server.step_eq_ok.1 hs
    exact h

theorem registered_of_run {config : ServerConfig} {ops : List (Op F)} {s : Server F}
    {outs : List (Out F)} (hrun : runServer config ops = .ok (s, outs)) : Registered s := by
  have hnew : ∀ s : Server F, Server.new config = .ok s → Registered s := by
    intro s hnew
    obtain ⟨-, rfl⟩ := Server.new_eq_ok.1 hnew
    exact fun _ => rfl
  exact runServer_invariant hnew (fun _ _ _ _ h hexec => h.exec hexec) hrun

/-- While the window's end does not overflow, the screen answers, and lets through what is valid
and inside the window. -/
theorem screen_of_lt {maxFutureTicks : UInt64} {currentTick targetTickFloor : Tick}
    (hroom : currentTick.toNat + maxFutureTicks.toNat < 2 ^ 64) (input : InputCmdProto F) :
    ∃ verdict, screen maxFutureTicks currentTick targetTickFloor input = .ok verdict ∧
      (verdict = none ↔ finiteMoveDir input.moveDir = true ∧
        max targetTickFloor.toNat currentTick.toNat ≤ input.tick.toNat ∧
        input.tick.toNat ≤ currentTick.toNat + maxFutureTicks.toNat) := by
  obtain ⟨maxTick, hmax, hmaxTick⟩ := addU64_of_lt hroom
  unfold screen
  rcases hvalid : finiteMoveDir input.moveDir with _ | _
  · exact ⟨_, rfl, by simp⟩
  · simp only [Bool.not_true, Bool.false_eq_true, if_false, UInt64.lt_iff_toNat_lt, hmax]
    split_ifs with hfloor hlate
    · exact ⟨_, rfl, by simp only [reduceCtorEq, true_and, false_iff]; omega⟩
    · exact ⟨_, rfl, by simp only [reduceCtorEq, true_and, false_iff]; omega⟩
    · refine ⟨_, rfl, ?_⟩
      rw [hmaxTick]
      split_ifs with hfuture
      · simp only [true_and, false_iff]
        omega
      · simp only [true_and, true_iff]
        omega

/-- What the server checks of a command of a session for `p` : its direction, the window from
the session's floor or the current tick on, and the room in its slot. -/
structure Server.Accepts (s : Server F) (sid : SessionId) (p : PlayerId) (input : InputCmdProto F) :
    Prop where
  valid : ∃ x y, input.moveDir = [x, y] ∧ F64.isNan x = false ∧ F64.isInfinite x = false ∧
    F64.isNan y = false ∧ F64.isInfinite y = false
  current : max ((s.lastEmittedFloor.lookup sid).getD 0).toNat s.world.tick.toNat ≤
    input.tick.toNat
  future : input.tick.toNat ≤ s.world.tick.toNat + s.config.maxFutureTicks.toNat
  room : ∀ e, s.inputBuffer.buffer.lookup (p, input.tick) = some e →
    e.receiveCount < s.inputBuffer.perTickLimit

theorem finiteMoveDir_eq_true {moveDir : List F} : finiteMoveDir moveDir = true ↔
    ∃ x y, moveDir = [x, y] ∧ F64.isNan x = false ∧ F64.isInfinite x = false ∧
      F64.isNan y = false ∧ F64.isInfinite y = false := by
  unfold finiteMoveDir
  split
  · rename_i x y
    simp only [Bool.not_eq_true', Bool.or_eq_false_iff, and_assoc]
    constructor
    · exact fun h => ⟨x, y, rfl, h⟩
    · rintro ⟨_, _, hxy, h⟩
      obtain ⟨rfl, hy⟩ := List.cons.inj hxy
      obtain ⟨rfl, -⟩ := List.cons.inj hy
      exact h
  · rename_i hne
    simp only [Bool.false_eq_true, false_iff]
    rintro ⟨x, y, hxy, -⟩
    exact hne x y hxy

/-- A slot has room if it is empty or has counted fewer commands than the limit. -/
theorem not_full_iff {perTickLimit : UInt32} {slot : Option (BufferEntry F)} :
    ¬Full perTickLimit slot ↔ ∀ e, slot = some e → e.receiveCount < perTickLimit := by
  simp only [Full, not_exists, not_and, UInt32.not_le]

/-- A command that finds room is accepted, and writes its slot only. -/
theorem InputBuffer.tryBuffer_of_room {b : InputBuffer F} {p : PlayerId} {input : InputCmdProto F}
    (hroom : ¬Full b.perTickLimit (b.buffer.lookup (p, input.tick))) :
    (b.tryBuffer p input).2.verdict.isAccepted = true ∧
      ∃ buffer, (b.tryBuffer p input).1 = { b with buffer } ∧
        ∀ key ≠ (p, input.tick), buffer.lookup key = b.buffer.lookup key := by
  obtain ⟨hconfig, hlimit⟩ := b.tryBuffer_frame p input
  refine ⟨?_, (b.tryBuffer p input).1.buffer, ?_, fun key hkey => ?_⟩
  · rw [tryBuffer_result]
    exact (receive_of_not_full hroom input).2
  · rw [← hconfig, ← hlimit]
  · rw [lookup_tryBuffer_of_room hroom, if_neg hkey]

/-- A command is accepted exactly if its session is live and it passes every check. One that is
not accepted changes nothing, one that is changes the entry of its player and tick only. -/
theorem receiveInput_exact {config : ServerConfig} {ops : List (Op F)} {s : Server F}
    {outs : List (Out F)} (hrun : runServer config ops = .ok (s, outs))
    (hroom : s.world.tick.toNat + s.config.maxFutureTicks.toNat < 2 ^ 64) (sid : SessionId)
    (input : InputCmdProto F) :
    ∃ s' result, s.receiveInput sid input = .ok (s', result) ∧
      (result.isAccepted = true ↔ ∃ session, s.sessions.lookup sid = some session ∧
        s.Accepts sid session.playerId input) ∧
      (result.isAccepted = false → s' = s) ∧
      (result.isAccepted = true → ∃ session buffer, s.sessions.lookup sid = some session ∧
        s' = { s with inputBuffer := { s.inputBuffer with buffer } } ∧
        ∀ key ≠ (session.playerId, input.tick),
          buffer.lookup key = s.inputBuffer.buffer.lookup key) := by
  have hplayer := registered_of_run hrun sid
  obtain ⟨hconfig, hwindow⟩ := config_of_runServer hrun
  have hmax : s.inputBuffer.config.maxFutureTicks = s.config.maxFutureTicks := by
    rw [hwindow, hconfig]
  rw [Server.receiveInput_eq, hmax, hplayer]
  rcases hsession : s.sessions.lookup sid with _ | session
  · exact ⟨s, _, rfl, by simp [ValidationResult.isAccepted], fun _ => rfl,
      fun haccepted => absurd haccepted (by decide)⟩
  obtain ⟨verdict, hscreen, hnone⟩ : ∃ verdict, screen s.config.maxFutureTicks s.world.tick
    ((s.lastEmittedFloor.lookup sid).getD 0) input = .ok verdict ∧ _ := screen_of_lt hroom input
  rw [finiteMoveDir_eq_true] at hnone
  simp only [Option.map_some, hscreen, Option.some.injEq, exists_eq_left']
  rcases verdict with _ | result
  · obtain ⟨hvalid, hcurrent, hfuture⟩ := hnone.1 rfl
    by_cases hfull : Full s.inputBuffer.perTickLimit
      (s.inputBuffer.buffer.lookup (session.playerId, input.tick))
    · -- The slot is full, and stays as it is.
      refine ⟨s, .droppedRateLimit, ?_, ?_, fun _ => rfl,
        fun haccepted => absurd haccepted (by decide)⟩
      · simp only [InputBuffer.tryBuffer_of_full hfull]
        rfl
      · simp only [ValidationResult.isAccepted, Bool.false_eq_true, false_iff]
        exact fun h => not_full_iff.2 h.room hfull
    · obtain ⟨haccepted, buffer, hbuffer, hother⟩ := InputBuffer.tryBuffer_of_room hfull
      refine ⟨_, _, rfl, ?_, ?_, ?_⟩
      · exact iff_of_true haccepted ⟨hvalid, hcurrent, hfuture, not_full_iff.1 hfull⟩
      · exact fun hdropped => absurd (haccepted.symm.trans hdropped) (by decide)
      · exact fun _ => ⟨session, buffer, rfl, by rw [hbuffer], hother⟩
  · have hdropped := not_isAccepted_of_screen hscreen
    refine ⟨s, result, rfl, ?_, fun _ => rfl, ?_⟩
    · rw [hdropped]
      simp only [Bool.false_eq_true, false_iff]
      exact fun h => absurd (hnone.2 ⟨h.valid, h.current, h.future⟩) (by simp)
    · exact fun haccepted => absurd (haccepted.symm.trans hdropped) (by decide)

/-- A fifth command for one tick is turned away, and the first for the next is not. -/
theorem receiveInput_exact_of_five : ∃ s outs full result free,
    runServer (F := ℚ) {} (.acceptSession :: List.replicate 4 (.receiveInput 1 ⟨0, 1, [1, 0]⟩)) =
      .ok (s, outs) ∧
    s.receiveInput 1 ⟨0, 5, [3, 4]⟩ = .ok (full, .droppedRateLimit) ∧ full = s ∧
    s.receiveInput 1 ⟨1, 5, [3, 4]⟩ = .ok (free, result) ∧
    (result.isAccepted = true ↔ ∃ session, s.sessions.lookup 1 = some session ∧
      s.Accepts 1 session.playerId ⟨1, 5, [3, 4]⟩) ∧ result.isAccepted = true := by
  have h : (runServer (F := ℚ) {}
      (.acceptSession :: List.replicate 4 (.receiveInput 1 ⟨0, 1, [1, 0]⟩))).map
      (fun x => (x.1.world.tick.toNat + x.1.config.maxFutureTicks.toNat,
        (x.1.receiveInput 1 ⟨0, 5, [3, 4]⟩).map Prod.snd,
        (x.1.receiveInput 1 ⟨1, 5, [3, 4]⟩).map Prod.snd)) =
      .ok (60, .ok .droppedRateLimit, .ok .acceptedWithClamp) := by
    decide +kernel
  obtain ⟨⟨s, outs⟩, hs, heq⟩ := map_eq_ok.1 h
  simp only [Prod.mk.injEq] at heq
  obtain ⟨hroom, hfull, hfree⟩ := heq
  obtain ⟨full, result, hfull', -, hsame, -⟩ :=
    receiveInput_exact hs (by rw [hroom]; norm_num) 1 ⟨0, 5, [3, 4]⟩
  obtain ⟨free, result', hfree', haccepted, -, -⟩ :=
    receiveInput_exact hs (by rw [hroom]; norm_num) 1 ⟨1, 5, [3, 4]⟩
  rw [hfull'] at hfull
  rw [hfree'] at hfree
  obtain rfl : result = .droppedRateLimit := Except.ok.inj hfull
  obtain rfl : result' = .acceptedWithClamp := Except.ok.inj hfree
  exact ⟨s, outs, full, _, free, hs, hfull', hsame rfl, hfree', haccepted, rfl⟩

/-! ## The limit over a whole run -/

/-- The accepted commands of a live session for a tick to come are counted in their slot, and
those of any session for any tick are within the limit. -/
structure Limited (h : List (Op F × Out F)) (s : Server F) : Prop where
  counted : ∀ sid p, s.sessionPlayers.lookup sid = some p → ∀ t : Tick,
    s.world.tick.toNat ≤ t.toNat →
      (acceptedTicks sid h).count t ≤ BufferEntry.counted (s.inputBuffer.buffer.lookup (p, t))
  limited : ∀ sid t, (acceptedTicks sid h).count t ≤ s.inputBuffer.perTickLimit.toNat

namespace Limited

variable {h : List (Op F × Out F)} {s s' : Server F}

theorem new {config : ServerConfig} (hnew : Server.new config = .ok s) : Limited [] s := by
  obtain ⟨-, rfl⟩ := Server.new_eq_ok.1 hnew
  exact ⟨fun _ _ _ _ _ => Nat.zero_le _, fun _ _ => Nat.zero_le _⟩

/-- An operation that accepts no command, and keeps the slots of ticks to come. -/
theorem frame (hl : Limited h s) {x : Op F × Out F} (hx : ∀ sid, acceptedTick sid x = none)
    (hplayers : ∀ sid p, s'.sessionPlayers.lookup sid = some p →
      s.sessionPlayers.lookup sid = some p ∨ acceptedTicks sid h = [])
    (htick : s.world.tick.toNat ≤ s'.world.tick.toNat)
    (hbuffer : ∀ key, s'.world.tick.toNat ≤ key.2.toNat →
      s'.inputBuffer.buffer.lookup key = s.inputBuffer.buffer.lookup key)
    (hlimit : s'.inputBuffer.perTickLimit = s.inputBuffer.perTickLimit) :
    Limited (h ++ [x]) s' := by
  have hsame : ∀ sid, acceptedTicks sid (h ++ [x]) = acceptedTicks sid h := fun sid => by
    rw [acceptedTicks_concat, hx]
    exact List.append_nil _
  refine ⟨fun sid p hp t ht => ?_, fun sid t => ?_⟩
  · rw [hsame, hbuffer (p, t) ht]
    rcases hplayers sid p hp with hold | hnone
    · exact hl.counted sid p hold t (htick.trans ht)
    · rw [hnone]
      exact Nat.zero_le _
  · rw [hsame, hlimit]
    exact hl.limited sid t

theorem receive (hl : Limited h s) (hw : Windowed s) (hpos : 1 ≤ s.inputBuffer.perTickLimit.toNat)
    {sid : SessionId} {input : InputCmdProto F} {result : ValidationResult}
    (hs : s.receiveInput sid input = .ok (s', result)) :
    Limited (h ++ [(.receiveInput sid input, .verdict result)]) s' := by
  rcases Server.receiveInput_verdict hs with ⟨hresult, rfl⟩ | ⟨p, hp, hscreen, hroom, rfl⟩
  · refine hl.frame (fun sid' => ?_) (fun _ _ hq => .inl hq) le_rfl (fun _ _ => rfl) rfl
    simp [acceptedTick, hresult]
  obtain ⟨e', harrive, hwf, hcount, -⟩ := arrive_wellFormed
    (fun e he => (hw.entries p input.tick e he).2.2.2) hroom rfl
    (length_of_finiteMoveDir (of_screen_eq_none hscreen).1)
  -- One more for the session and tick of the command, at most.
  have hadd : ∀ sid' t,
      (acceptedTicks sid' (h ++ [(.receiveInput sid input, .verdict result)])).count t ≤
        (acceptedTicks sid' h).count t + if sid = sid' ∧ input.tick = t then 1 else 0 := by
    intro sid' t
    rw [acceptedTicks_concat, List.count_append, Nat.add_le_add_iff_left, acceptedTick]
    split_ifs <;> simp_all
  have hslot : (acceptedTicks sid h).count input.tick + 1 ≤ e'.receiveCount.toNat := by
    rw [hcount]
    exact Nat.succ_le_succ (hl.counted sid p hp input.tick (le_tick_of_screen hscreen))
  refine ⟨fun sid' q hq t ht => (hadd sid' t).trans ?_, fun sid' t => (hadd sid' t).trans ?_⟩
  · dsimp only
    rw [InputBuffer.lookup_tryBuffer_of_room hroom, harrive]
    by_cases hcase : sid = sid' ∧ input.tick = t
    · obtain ⟨rfl, rfl⟩ := hcase
      obtain rfl : p = q := Option.some.inj (hp.symm.trans hq)
      rw [if_pos ⟨rfl, rfl⟩, if_pos rfl]
      exact hslot
    · have hold := hl.counted sid' q hq t ht
      rw [if_neg hcase, Nat.add_zero]
      split_ifs with hkey
      · -- Another session of the player has filled the slot further.
        rw [hkey] at hold
        exact hold.trans ((Nat.le_succ _).trans hcount.ge)
      · exact hold
  · rw [(s.inputBuffer.tryBuffer_frame p input).2]
    have := hwf.limited
    split_ifs with hcase
    · obtain ⟨rfl, rfl⟩ := hcase
      omega
    · exact hl.limited sid' t

theorem exec (hl : Limited h s) (ha : Arrivals h s) (hw : Windowed s)
    (hpos : 1 ≤ s.inputBuffer.perTickLimit.toNat) {op : Op F} {o : Out F}
    (hexec : s.exec op = .ok (s', o)) : Limited (h ++ [(op, o)]) s' := by
  cases op with
  | acceptSession =>
    obtain ⟨sid, p, e, hs, rfl⟩ := Server.exec_acceptSession.1 hexec
    obtain ⟨-, rfl, -, nextSid, nextPid, world, -, -, hspawn, rfl⟩ :=
      Server.acceptSession_eq_ok.1 hs
    obtain ⟨rfl, next, -, rfl⟩ := World.spawnCharacter_eq_ok.1 hspawn
    refine hl.frame (fun _ => rfl) (fun sid q hq => ?_) le_rfl (fun _ _ => rfl) rfl
    rw [HashMap.lookup_insert] at hq
    split_ifs at hq with heq
    · exact .inr (heq ▸ (ha.unissued s.nextSessionId le_rfl).2)
    · exact .inl hq
  | welcomeFor sid =>
    obtain ⟨welcome, hs, rfl⟩ := Server.exec_welcomeFor.1 hexec
    obtain ⟨session, -, floor, -, rfl, -⟩ := Server.welcomeFor_eq_ok.1 hs
    exact hl.frame (fun _ => rfl) (fun _ _ hq => .inl hq) le_rfl (fun _ _ => rfl) rfl
  | receiveInput sid input =>
    obtain ⟨result, hs, rfl⟩ := Server.exec_receiveInput.1 hexec
    exact hl.receive hw hpos hs
  | disconnectSession sid =>
    obtain ⟨rfl, rfl⟩ := Server.exec_disconnectSession.1 hexec
    unfold Server.disconnectSession
    rcases s.sessions.lookup sid with _ | session
    · exact hl.frame (fun _ => rfl) (fun _ _ hq => .inl hq) le_rfl (fun _ _ => rfl) rfl
    · refine hl.frame (fun _ => rfl) (fun sid' q hq => .inl ?_) le_rfl (fun _ _ => rfl) rfl
      rw [HashMap.lookup_erase] at hq
      split_ifs at hq
      exact hq
  | step =>
    obtain ⟨snapshot, floor, bytes, hs, rfl⟩ := Server.exec_step.1 hexec
    obtain ⟨next, hnext, -, rfl, -, -⟩ := Server.step_eq_ok.1 hs
    refine hl.frame (fun _ => rfl) (fun _ _ hq => .inl hq) (hnext ▸ Nat.le_succ _)
      (fun key hlater => ?_) (Server.produceInputs_frame ..).2
    exact (Server.lookup_stepped hnext key).trans (if_pos (UInt64.le_iff_toNat_le.2 hlater))

end Limited

/-- No more commands of a session are accepted for a tick than the buffer's limit. -/
theorem limited_of_run {config : ServerConfig} (hpos : 1 ≤ config.perTickLimit.toNat)
    {ops : List (Op F)} {s : Server F} {outs : List (Out F)}
    (hrun : runServer config ops = .ok (s, outs)) (sid : SessionId) (t : Tick) :
    (acceptedTicks sid (ops.zip outs)).count t ≤ config.perTickLimit.toNat := by
  let P : List (Op F × Out F) → Server F → Prop := fun h s =>
    Limited h s ∧ Arrivals h s ∧ Windowed s ∧ s.inputBuffer.perTickLimit = config.perTickLimit
  have hstart : ∀ s, Server.new config = .ok s → P [] s := by
    intro s hnew
    refine ⟨Limited.new hnew, Arrivals.new hnew, Windowed.new hnew, ?_⟩
    rw [(Server.new_eq_ok.1 hnew).2]
  have hstep : ∀ h s op s' o, P h s → s.exec op = .ok (s', o) → P (h ++ [(op, o)]) s' := by
    rintro h s op s' o ⟨hl, ha, hw, hlimit⟩ hexec
    exact ⟨hl.exec ha hw (hlimit ▸ hpos) hexec, ha.exec hexec, hw.exec hexec,
      (Server.exec_bufferFrame hexec).2.trans hlimit⟩
  obtain ⟨hl, -, -, hlimit⟩ := runServer_history hstart hstep hrun
  exact hlimit ▸ hl.limited sid t

/-! ## Calls and drops -/

/-- The operation is a valid command of the session, which is live, for the tick. -/
def validFor (sid : SessionId) (t : Tick) : Op F × Out F → Bool
  | (.receiveInput sid' input, .verdict result) =>
    sid' = sid ∧ input.tick = t ∧ finiteMoveDir input.moveDir ∧ result ≠ .droppedUnknownSession
  | _ => false

/-- Dropped for the rate limit, or for its tick. -/
def ValidationResult.isRateOrTickDrop : ValidationResult → Bool
  | .droppedRateLimit | .droppedBelowFloor _ _ | .droppedLate _ _ | .droppedTooFuture _ _ => true
  | _ => false

/-- The operation is a command dropped for the rate limit, or for its tick. -/
def droppedInTime : Op F × Out F → Bool
  | (_, .verdict result) => result.isRateOrTickDrop
  | _ => false

/-- The screen drops a valid command for its tick only. -/
theorem isRateOrTickDrop_of_screen {maxFutureTicks : UInt64} {currentTick targetTickFloor : Tick}
    {input : InputCmdProto F} {result : ValidationResult}
    (hvalid : finiteMoveDir input.moveDir = true)
    (h : screen maxFutureTicks currentTick targetTickFloor input = .ok (some result)) :
    result.isRateOrTickDrop = true := by
  unfold screen at h
  rw [hvalid] at h
  simp only [Bool.not_true, Bool.false_eq_true, if_false] at h
  split_ifs at h
  · obtain rfl := Option.some.inj (Except.ok.inj h)
    rfl
  · obtain rfl := Option.some.inj (Except.ok.inj h)
    rfl
  · obtain ⟨maxTick, -, h⟩ := bind_eq_ok.1 h
    have h := Except.ok.inj h
    split_ifs at h
    obtain rfl := Option.some.inj h
    rfl

/-- A valid command of a live session is accepted, or dropped for the rate limit or its tick. -/
theorem Server.receiveInput_valid {s s' : Server F} {sid : SessionId} {input : InputCmdProto F}
    {result : ValidationResult} (hs : s.receiveInput sid input = .ok (s', result))
    (hvalid : finiteMoveDir input.moveDir = true) (hlive : result ≠ .droppedUnknownSession) :
    result.isAccepted = true ∨ result.isRateOrTickDrop = true := by
  rw [receiveInput_eq] at hs
  rcases hp : s.sessionPlayers.lookup sid with _ | p <;> rw [hp] at hs
  · obtain ⟨-, rfl⟩ := Prod.mk.inj (Except.ok.inj hs)
    exact absurd rfl hlive
  · rcases hscreen : screen s.inputBuffer.config.maxFutureTicks s.world.tick
      ((s.lastEmittedFloor.lookup sid).getD 0) input with e | _ | verdict <;> rw [hscreen] at hs
    · cases hs
    · obtain ⟨-, rfl⟩ := Prod.mk.inj (Except.ok.inj hs)
      by_cases hfull : Full s.inputBuffer.perTickLimit
          (s.inputBuffer.buffer.lookup (p, input.tick))
      · rw [InputBuffer.tryBuffer_of_full hfull]
        exact .inr rfl
      · exact .inl (InputBuffer.tryBuffer_of_room hfull).1
    · obtain ⟨-, rfl⟩ := Prod.mk.inj (Except.ok.inj hs)
      exact .inr (isRateOrTickDrop_of_screen hvalid hscreen)

theorem countP_le_add {α : Type} {p q r : α → Bool} : ∀ {l : List α},
    (∀ x ∈ l, p x = true → q x = true ∨ r x = true) → l.countP p ≤ l.countP q + l.countP r
  | [], _ => le_rfl
  | x :: l, h => by
    have ih := countP_le_add fun y hy => h y (List.mem_cons_of_mem x hy)
    have hx := h x List.mem_cons_self
    simp only [List.countP_cons]
    rcases hp : p x with _ | _
    · simp only [Bool.false_eq_true, if_false]
      omega
    · rcases hx hp with hq | hr
      · simp only [hq, if_true]
        omega
      · simp only [hr, if_true]
        omega

/-- Over a whole run, no more commands of a session are accepted for one tick than the rate
allows per tick, and all other valid ones are dropped for the rate limit or their tick. -/
theorem rate_limit {config : ServerConfig} (hrate : 1 ≤ config.inputRateLimitPerSec)
    {ops : List (Op F)} {s : Server F} {outs : List (Out F)}
    (hrun : runServer config ops = .ok (s, outs)) (sid : SessionId) (t : Tick) :
    (acceptedTicks sid (ops.zip outs)).count t ≤
      config.inputRateLimitPerSec.toNat ⌈/⌉ config.tickRateHz.toNat ∧
    (ops.zip outs).countP (validFor sid t) -
        config.inputRateLimitPerSec.toNat ⌈/⌉ config.tickRateHz.toNat ≤
      (ops.zip outs).countP fun x => validFor sid t x && droppedInTime x := by
  have hhz : config.tickRateHz ≠ 0 := (config_of_runServer hrun).1 ▸ tickRateHz_ne_zero hrun
  have hpos := ServerConfig.perTickLimit_pos (UInt32.lt_of_lt_of_le (by decide) hrate) hhz
  have hlimited := limited_of_run (UInt32.lt_iff_toNat_lt.1 hpos) hrun sid t
  rw [ServerConfig.toNat_perTickLimit hhz] at hlimited
  refine ⟨hlimited, ?_⟩
  have hcount : (acceptedTicks sid (ops.zip outs)).count t =
      (ops.zip outs).countP fun x => acceptedTick sid x == some t := by
    rw [acceptedTicks, List.count_filterMap]
  have hsplit : (ops.zip outs).countP (validFor sid t) ≤
      ((ops.zip outs).countP fun x => acceptedTick sid x == some t) +
        (ops.zip outs).countP fun x => validFor sid t x && droppedInTime x := by
    refine countP_le_add fun x hx hvalid => ?_
    obtain ⟨op, o⟩ := x
    unfold validFor at hvalid ⊢
    split at hvalid
    · rename_i sid' input result heq
      obtain ⟨rfl, rfl⟩ := Prod.mk.inj heq
      obtain ⟨rfl, rfl, hfinite, hlive⟩ := of_decide_eq_true hvalid
      obtain ⟨s₀, -, hrun⟩ := bind_eq_ok.1 hrun
      obtain ⟨before, after, u, v, os, -, -, hexec⟩ := Machine.exec_of_mem_zip hrun hx
      obtain ⟨result', hs, hresult⟩ := Server.exec_receiveInput.1 hexec
      obtain rfl := Out.verdict.inj hresult
      refine (Server.receiveInput_valid hs hfinite hlive).imp (fun haccepted => ?_) fun hdrop => ?_
      · simp [acceptedTick, haccepted]
      · simp [droppedInTime, hdrop, hfinite, hlive]
    · cases hvalid
  omega

/-- Five commands for one tick, of which four are accepted at 120 inputs and 30 ticks a
second. -/
theorem rate_limit_of_five : ∃ s outs,
    runServer (F := ℚ) {} (.acceptSession :: List.replicate 5 (.receiveInput 1 ⟨0, 1, [1, 0]⟩)) =
      .ok (s, outs) ∧
    (acceptedTicks 1 ((.acceptSession ::
      List.replicate 5 (.receiveInput 1 ⟨0, 1, [1, 0]⟩ : Op ℚ)).zip outs)).count 0 ≤ 4 := by
  have h : (runServer (F := ℚ) {} (.acceptSession ::
      List.replicate 5 (.receiveInput 1 ⟨0, 1, [1, 0]⟩))).map (fun x => x.1.entitySpawnOrder) =
        .ok [0] := by
    decide +kernel
  obtain ⟨⟨s, outs⟩, hs, -⟩ := map_eq_ok.1 h
  exact ⟨s, outs, hs, (rate_limit (by decide) hs 1 0).1.trans (by decide)⟩

end Flowstate
