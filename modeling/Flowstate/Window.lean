import Mathlib.Data.Finset.Prod
import Mathlib.Order.Interval.Finset.Nat
import Flowstate.Monotonicity
import Flowstate.Newest

/-!
# The buffer's window

Entries come in between the current tick and the furthest one admitted, and the window slides
over them with each step. A step takes the entries of the tick it leaves and evicts what is
behind, so every entry stays inside the window, whoever owns it (`Windowed`). An entry is
well formed for its tick whatever commands it has seen in whatever order
(`BufferEntry.WellFormed`). So the buffer is bounded, and what it yields is of the right
tick and no older than anything it accepted (`buffer_bounded`).
-/

set_option linter.unusedSectionVars false

open Rust

namespace Flowstate

variable {F : Type} [F64 F]

/-- What holds of an entry for tick `t` : the command is for `t`, has the greatest sequence
number, and a direction, and the commands counted are within the limit. -/
structure BufferEntry.WellFormed (perTickLimit : UInt32) (t : Tick) (e : BufferEntry F) : Prop where
  tick : e.selected.tick = t
  newest : e.selected.inputSeq = e.maxInputSeq
  moveDir : e.selected.moveDir.length = 2
  counted : 1 ≤ e.receiveCount.toNat
  limited : e.receiveCount.toNat ≤ max 1 perTickLimit.toNat

/-- The number of commands a slot has counted. -/
def BufferEntry.counted (slot : Option (BufferEntry F)) : ℕ :=
  slot.elim 0 fun e => e.receiveCount.toNat

/-! ## One slot -/

theorem length_clampMagnitude (moveDir : List F) :
    (InputBuffer.clampMagnitude moveDir).length = moveDir.length := by
  unfold InputBuffer.clampMagnitude
  split
  · dsimp only
    split_ifs <;> rfl
  · rfl

theorem length_of_finiteMoveDir {moveDir : List F} (h : finiteMoveDir moveDir = true) :
    moveDir.length = 2 := by
  unfold finiteMoveDir at h
  split at h
  · rfl
  · cases h

/-- A well-formed slot with room is well formed with one more command, which it counts. Its
greatest sequence number is no less than before and no less than the command's. -/
theorem arrive_wellFormed {perTickLimit : UInt32} {t : Tick} {slot : Option (BufferEntry F)}
    (hslot : ∀ e, slot = some e → e.WellFormed perTickLimit t) (hroom : ¬Full perTickLimit slot)
    {c : InputCmdProto F} (htick : c.tick = t) (hdir : c.moveDir.length = 2) :
    ∃ e', arrive slot c = some e' ∧ e'.WellFormed perTickLimit t ∧
      e'.receiveCount.toNat = BufferEntry.counted slot + 1 ∧ c.inputSeq ≤ e'.maxInputSeq ∧
      ∀ e, slot = some e → e.maxInputSeq ≤ e'.maxInputSeq := by
  have hclamped : c.clamped.moveDir.length = 2 := by
    rw [InputCmdProto.clamped, length_clampMagnitude, hdir]
  rcases slot with _ | e
  · refine ⟨(BufferEntry.first c).1, rfl, ?_⟩
    rw [BufferEntry.first, BufferEntry.clampSelected_eq]
    refine ⟨⟨htick, rfl, hclamped, le_rfl, le_max_left _ _⟩, rfl, UInt64.le_refl _, ?_⟩
    rintro _ ⟨⟩
  · have he := hslot e rfl
    have hlt : e.receiveCount.toNat < perTickLimit.toNat := by
      rw [← UInt32.lt_iff_toNat_lt, ← UInt32.not_le]
      exact fun hfull => hroom ⟨e, rfl, hfull⟩
    have hcount : (e.receiveCount + 1).toNat = e.receiveCount.toNat + 1 := by
      have := perTickLimit.toNat_lt
      rw [UInt32.toNat_add]
      exact Nat.mod_eq_of_lt (by change _ + 1 < _; omega)
    have hselected : e.selected.clamped.moveDir.length = 2 := by
      rw [InputCmdProto.clamped, length_clampMagnitude, he.moveDir]
    have hlimited : e.receiveCount.toNat + 1 ≤ max 1 perTickLimit.toNat := by omega
    refine ⟨(e.next c).1, rfl, ?_⟩
    rw [BufferEntry.next, BufferEntry.clampSelected_eq]
    dsimp only
    -- The command leads, ties or trails.
    split_ifs with hlead htie
    · refine ⟨⟨htick, rfl, hclamped, ?_, ?_⟩, hcount, UInt64.le_refl _, ?_⟩
      · exact hcount ▸ Nat.le_add_left _ _
      · exact hcount ▸ hlimited
      · rintro _ ⟨⟩
        exact UInt64.le_of_lt hlead
    · refine ⟨⟨he.tick, he.newest, hselected, ?_, ?_⟩, hcount, ?_, ?_⟩
      · exact hcount ▸ Nat.le_add_left _ _
      · exact hcount ▸ hlimited
      · exact htie ▸ UInt64.le_refl _
      · rintro _ ⟨⟩
        exact UInt64.le_refl _
    · refine ⟨⟨he.tick, he.newest, hselected, ?_, ?_⟩, hcount, ?_, ?_⟩
      · exact hcount ▸ Nat.le_add_left _ _
      · exact hcount ▸ hlimited
      · exact UInt64.not_lt.1 hlead
      · rintro _ ⟨⟩
        exact UInt64.le_refl _

/-- A command writes the slot of its tick, if there is room. -/
theorem InputBuffer.lookup_tryBuffer_of_room {b : InputBuffer F} {p : PlayerId}
    {input : InputCmdProto F} (hroom : ¬Full b.perTickLimit (b.buffer.lookup (p, input.tick)))
    (key : PlayerId × Tick) : (b.tryBuffer p input).1.buffer.lookup key =
      if key = (p, input.tick) then arrive (b.buffer.lookup (p, input.tick)) input
      else b.buffer.lookup key := by
  rw [lookup_tryBuffer, (receive_of_not_full hroom input).1]

/-! ## The buffer -/

/-- A step keeps what is for its new tick or later. -/
theorem Server.lookup_stepped {s : Server F} {next floor : Tick}
    (hnext : next.toNat = s.world.tick.toNat + 1) (key : PlayerId × Tick) :
    (s.stepped (s.steppedWorld next) floor).inputBuffer.buffer.lookup key =
      if next ≤ key.2 then s.inputBuffer.buffer.lookup key else none := by
  change (s.produced.1.evictBefore next).buffer.lookup key = _
  rw [InputBuffer.lookup_evictBefore, produced, lookup_produceInputs]
  split_ifs with hlater hnow
  · rw [UInt64.le_iff_toNat_le, hnow.2, hnext] at hlater
    omega
  · rfl
  · rfl

/-- The entries of the buffer are of players of the roster, inside the window, and well
formed. -/
structure Windowed (s : Server F) : Prop where
  players : ∀ sid p, s.sessionPlayers.lookup sid = some p → p ∈ s.entitySpawnOrder
  entries : ∀ p t e, s.inputBuffer.buffer.lookup (p, t) = some e →
    p ∈ s.entitySpawnOrder ∧ s.world.tick.toNat ≤ t.toNat ∧
      t.toNat ≤ s.world.tick.toNat + s.inputBuffer.config.maxFutureTicks.toNat ∧
      e.WellFormed s.inputBuffer.perTickLimit t

namespace Windowed

variable {s s' : Server F}

theorem new {config : ServerConfig} (hnew : Server.new config = .ok s) : Windowed s := by
  obtain ⟨-, rfl⟩ := Server.new_eq_ok.1 hnew
  exact ⟨nofun, nofun⟩

theorem receive (hw : Windowed s) {sid : SessionId} {input : InputCmdProto F}
    {result : ValidationResult} (hs : s.receiveInput sid input = .ok (s', result)) :
    Windowed s' := by
  rcases Server.receiveInput_verdict hs with ⟨-, rfl⟩ | ⟨p, hp, hscreen, hroom, rfl⟩
  · exact hw
  · obtain ⟨hconfig, hlimit⟩ := s.inputBuffer.tryBuffer_frame p input
    obtain ⟨hvalid, -, hcurrent, hfuture, -⟩ := of_screen_eq_none hscreen
    obtain ⟨e', harrive, hwf, -⟩ := arrive_wellFormed
      (fun e he => (hw.entries p input.tick e he).2.2.2) hroom rfl (length_of_finiteMoveDir hvalid)
    refine ⟨hw.players, fun q t e he => ?_⟩
    dsimp only at he ⊢
    rw [InputBuffer.lookup_tryBuffer_of_room hroom, harrive] at he
    rw [hconfig, hlimit]
    split_ifs at he with hkey
    · obtain ⟨rfl, rfl⟩ := Prod.mk.inj hkey
      obtain rfl := Option.some.inj he
      exact ⟨hw.players sid q hp, hcurrent, hfuture, hwf⟩
    · exact hw.entries q t e he

theorem exec (hw : Windowed s) {op : Op F} {o : Out F} (hexec : s.exec op = .ok (s', o)) :
    Windowed s' := by
  cases op with
  | acceptSession =>
    obtain ⟨sid, p, e, hs, rfl⟩ := Server.exec_acceptSession.1 hexec
    obtain ⟨-, -, -, nextSid, nextPid, world, -, -, hspawn, rfl⟩ := Server.acceptSession_eq_ok.1 hs
    obtain ⟨rfl, next, -, rfl⟩ := World.spawnCharacter_eq_ok.1 hspawn
    refine ⟨fun sid' q hq => ?_, fun q t e he => ?_⟩
    · rw [HashMap.lookup_insert] at hq
      split_ifs at hq
      · exact List.mem_append_right _ (List.mem_singleton.2 (Option.some.inj hq).symm)
      · exact List.mem_append_left _ (hw.players sid' q hq)
    · obtain ⟨hq, hentry⟩ := hw.entries q t e he
      exact ⟨List.mem_append_left _ hq, hentry⟩
  | welcomeFor sid =>
    obtain ⟨welcome, hs, rfl⟩ := Server.exec_welcomeFor.1 hexec
    obtain ⟨session, -, floor, -, rfl, -⟩ := Server.welcomeFor_eq_ok.1 hs
    exact ⟨hw.players, hw.entries⟩
  | receiveInput sid input =>
    obtain ⟨result, hs, rfl⟩ := Server.exec_receiveInput.1 hexec
    exact hw.receive hs
  | disconnectSession sid =>
    obtain ⟨rfl, rfl⟩ := Server.exec_disconnectSession.1 hexec
    unfold Server.disconnectSession
    rcases s.sessions.lookup sid with _ | session
    · exact hw
    · refine ⟨fun sid' q hq => ?_, hw.entries⟩
      rw [HashMap.lookup_erase] at hq
      split_ifs at hq
      exact hw.players sid' q hq
  | step =>
    obtain ⟨snapshot, floor, bytes, hs, rfl⟩ := Server.exec_step.1 hexec
    obtain ⟨next, hnext, -, rfl, -, -⟩ := Server.step_eq_ok.1 hs
    obtain ⟨hconfig, hlimit⟩ :=
      Server.produceInputs_frame s.world.tick s.entitySpawnOrder s.inputBuffer s.lastKnownIntent
    refine ⟨hw.players, fun p t e he => ?_⟩
    rw [Server.lookup_stepped hnext] at he
    split_ifs at he with hlater
    obtain ⟨hp, -, hfuture, hwf⟩ := hw.entries p t e he
    refine ⟨hp, UInt64.le_iff_toNat_le.1 hlater, ?_, ?_⟩
    · change t.toNat ≤ next.toNat + s.produced.1.config.maxFutureTicks.toNat
      rw [Server.produced, hconfig]
      omega
    · change e.WellFormed s.produced.1.perTickLimit t
      rwa [Server.produced, hlimit]

end Windowed

theorem windowed_of_run {config : ServerConfig} {ops : List (Op F)} {s : Server F}
    {outs : List (Out F)} (hrun : runServer config ops = .ok (s, outs)) : Windowed s := by
  exact runServer_invariant (P := Windowed) (fun _ hnew => Windowed.new hnew)
    (fun _ _ _ _ h hexec => h.exec hexec) hrun

/-! ## What was accepted is not forgotten -/

/-- Tick `t` is gone by, or the slot of `p` for it has seen sequence number `n` or a greater
one. -/
def Seen (p : PlayerId) (t : Tick) (n : UInt64) (s : Server F) : Prop :=
  t.toNat < s.world.tick.toNat ∨
    ∃ e, s.inputBuffer.buffer.lookup (p, t) = some e ∧ n ≤ e.maxInputSeq

namespace Seen

variable {p : PlayerId} {t : Tick} {n : UInt64} {s s' : Server F}

/-- An accepted command is seen by its slot. -/
theorem of_accepted (hw : Windowed s) {sid : SessionId} (hp : s.sessionPlayers.lookup sid = some p)
    {input : InputCmdProto F} {result : ValidationResult}
    (hs : s.receiveInput sid input = .ok (s', result)) (hresult : result.isAccepted = true) :
    Seen p input.tick input.inputSeq s' := by
  rcases Server.receiveInput_verdict hs with ⟨hdropped, -⟩ | ⟨q, hq, hscreen, hroom, rfl⟩
  · rw [hresult] at hdropped
    cases hdropped
  · obtain rfl : p = q := Option.some.inj (hp.symm.trans hq)
    obtain ⟨e', harrive, -, -, hseq, -⟩ := arrive_wellFormed
      (fun e he => (hw.entries p input.tick e he).2.2.2) hroom rfl
      (length_of_finiteMoveDir (of_screen_eq_none hscreen).1)
    refine .inr ⟨e', ?_, hseq⟩
    rw [InputBuffer.lookup_tryBuffer_of_room hroom, if_pos rfl, harrive]

theorem receive (h : Seen p t n s) (hw : Windowed s) {sid : SessionId} {input : InputCmdProto F}
    {result : ValidationResult} (hs : s.receiveInput sid input = .ok (s', result)) :
    Seen p t n s' := by
  rcases Server.receiveInput_verdict hs with ⟨-, rfl⟩ | ⟨q, hq, hscreen, hroom, rfl⟩
  · exact h
  · refine h.imp_right ?_
    rintro ⟨e, he, hn⟩
    dsimp only
    rw [InputBuffer.lookup_tryBuffer_of_room hroom]
    split_ifs with hkey
    · obtain ⟨rfl, rfl⟩ := Prod.mk.inj hkey
      obtain ⟨e', harrive, -, -, -, hmax⟩ := arrive_wellFormed
        (fun e he => (hw.entries p input.tick e he).2.2.2) hroom rfl
        (length_of_finiteMoveDir (of_screen_eq_none hscreen).1)
      exact ⟨e', harrive, UInt64.le_trans hn (hmax e he)⟩
    · exact ⟨e, he, hn⟩

theorem exec (h : Seen p t n s) (hw : Windowed s) {op : Op F} {o : Out F}
    (hexec : s.exec op = .ok (s', o)) : Seen p t n s' := by
  cases op with
  | acceptSession =>
    obtain ⟨sid, p, e, hs, rfl⟩ := Server.exec_acceptSession.1 hexec
    obtain ⟨-, -, -, nextSid, nextPid, world, -, -, hspawn, rfl⟩ := Server.acceptSession_eq_ok.1 hs
    obtain ⟨rfl, next, -, rfl⟩ := World.spawnCharacter_eq_ok.1 hspawn
    exact h
  | welcomeFor sid =>
    obtain ⟨welcome, hs, rfl⟩ := Server.exec_welcomeFor.1 hexec
    obtain ⟨session, -, floor, -, rfl, -⟩ := Server.welcomeFor_eq_ok.1 hs
    exact h
  | receiveInput sid input =>
    obtain ⟨result, hs, rfl⟩ := Server.exec_receiveInput.1 hexec
    exact h.receive hw hs
  | disconnectSession sid =>
    obtain ⟨rfl, rfl⟩ := Server.exec_disconnectSession.1 hexec
    unfold Server.disconnectSession
    rcases s.sessions.lookup sid with _ | session <;> exact h
  | step =>
    obtain ⟨snapshot, floor, bytes, hs, rfl⟩ := Server.exec_step.1 hexec
    obtain ⟨next, hnext, -, rfl, -, -⟩ := Server.step_eq_ok.1 hs
    by_cases hlater : next ≤ t
    · rcases h with hlt | ⟨e, he, hn⟩
      · rw [UInt64.le_iff_toNat_le] at hlater
        omega
      · exact .inr ⟨e, by rw [Server.lookup_stepped hnext, if_pos hlater, he], hn⟩
    · exact .inl (UInt64.lt_iff_toNat_lt.1 (UInt64.not_le.1 hlater))

theorem run (hw : Windowed s) (h : Seen p t n s) {ops : List (Op F)} {outs : List (Out F)}
    (hrun : (serverMachine F).run s ops = .ok (s', outs)) : Seen p t n s' :=
  (Machine.run_invariant (M := serverMachine F) (P := fun s => Windowed s ∧ Seen p t n s)
    (fun _ _ _ _ h hexec => ⟨h.1.exec hexec, h.2.exec h.1 hexec⟩) ⟨hw, h⟩ hrun).2

end Seen

/-- What is taken out of the buffer is the command of an entry. -/
theorem InputBuffer.takeInput_eq_some {b b' : InputBuffer F} {p : PlayerId} {t : Tick}
    {cmd : InputCmdProto F} (h : b.takeInput p t = (b', some cmd)) :
    ∃ e, b.buffer.lookup (p, t) = some e ∧ e.selected = cmd := by
  rw [takeInput_eq] at h
  obtain ⟨e, he, hcmd⟩ := Option.bind_eq_some_iff.1 (Prod.mk.inj h).2
  split_ifs at hcmd
  exact ⟨e, he, Option.some.inj hcmd⟩

/-! ## How many entries there are -/

/-- Keys inside a window of `width` ticks and a list of players are at most their product. -/
theorem length_le_of_window {keys : List (PlayerId × Tick)} (hnodup : keys.Nodup)
    {players : List PlayerId} {first width : ℕ}
    (hkeys : ∀ key ∈ keys, key.1 ∈ players ∧ first ≤ key.2.toNat ∧ key.2.toNat < first + width) :
    keys.length ≤ players.dedup.length * width := by
  let place : PlayerId × Tick → PlayerId × ℕ := fun key => (key.1, key.2.toNat)
  have hinj : Function.Injective place := by
    rintro ⟨p, t⟩ ⟨q, u⟩ h
    obtain ⟨rfl, htick⟩ := Prod.mk.inj h
    exact Prod.ext rfl (UInt64.toNat_inj.1 htick)
  have hsubset : (keys.map place).toFinset ⊆
      players.toFinset ×ˢ Finset.Ico first (first + width) := by
    intro x hx
    obtain ⟨key, hkey, rfl⟩ := List.mem_map.1 (List.mem_toFinset.1 hx)
    obtain ⟨hp, hfirst, hlast⟩ := hkeys key hkey
    exact Finset.mem_product.2 ⟨List.mem_toFinset.2 hp, Finset.mem_Ico.2 ⟨hfirst, hlast⟩⟩
  calc keys.length = (keys.map place).length := (List.length_map _).symm
    _ = (keys.map place).toFinset.card := (List.toFinset_card_of_nodup (hnodup.map hinj)).symm
    _ ≤ (players.toFinset ×ˢ Finset.Ico first (first + width)).card :=
      Finset.card_le_card hsubset
    _ = players.dedup.length * width := by
      rw [Finset.card_product, Nat.card_Ico, Nat.add_sub_cancel_left, List.card_toFinset]

/-- The buffer of a server after `ops` with outputs `outs`. -/
structure BoundedBuffer (config : ServerConfig) (ops : List (Op F)) (outs : List (Out F))
    (s : Server F) : Prop where
  entries : ∀ p t e, s.inputBuffer.buffer.lookup (p, t) = some e →
    (∃ sid eid, .accepted sid p eid ∈ outs) ∧ s.world.tick.toNat ≤ t.toNat ∧
      t.toNat ≤ s.world.tick.toNat + config.maxFutureTicks.toNat ∧
      e.WellFormed s.inputBuffer.perTickLimit t
  count : s.inputBuffer.buffer.entries.length ≤
    (outs.flatMap Out.assigned).dedup.length * (config.maxFutureTicks.toNat + 1)
  /-- What is taken is for its tick, and as new as each command accepted for its player. -/
  taken : ∀ p t b cmd, s.inputBuffer.takeInput p t = (b, some cmd) → cmd.tick = t ∧
    ∀ before after sid input u os u' result, ops = before ++ .receiveInput sid input :: after →
      runServer config before = .ok (u, os) → u.sessionPlayers.lookup sid = some p →
      u.receiveInput sid input = .ok (u', result) → result.isAccepted = true → input.tick = t →
        input.inputSeq ≤ cmd.inputSeq

theorem buffer_bounded {config : ServerConfig} {ops : List (Op F)} {s : Server F}
    {outs : List (Out F)} (hrun : runServer config ops = .ok (s, outs)) :
    BoundedBuffer config ops outs s := by
  have hw := windowed_of_run hrun
  have hconfig := (config_of_runServer hrun).2
  have horder := assigned_of_runServer hrun
  refine ⟨fun p t e he => ?_, ?_, fun p t b cmd htaken => ?_⟩
  · obtain ⟨hp, hcurrent, hfuture, hwf⟩ := hw.entries p t e he
    rw [horder] at hp
    obtain ⟨o, ho, hassigned⟩ := List.mem_flatMap.1 hp
    obtain ⟨sid, eid, rfl⟩ := Out.mem_assigned.1 hassigned
    exact ⟨⟨sid, eid, ho⟩, hcurrent, hconfig ▸ hfuture, hwf⟩
  · have hkeys : ∀ key ∈ s.inputBuffer.buffer.keys, key.1 ∈ outs.flatMap Out.assigned ∧
        s.world.tick.toNat ≤ key.2.toNat ∧
        key.2.toNat < s.world.tick.toNat + (config.maxFutureTicks.toNat + 1) := by
      intro key hkey
      obtain ⟨e, he⟩ := Option.isSome_iff_exists.1 (AList.lookup_isSome.2 hkey)
      obtain ⟨hp, hcurrent, hfuture, -⟩ := hw.entries key.1 key.2 e he
      rw [hconfig] at hfuture
      exact ⟨horder ▸ hp, hcurrent, by omega⟩
    have hlength : s.inputBuffer.buffer.entries.length = s.inputBuffer.buffer.keys.length :=
      (List.length_map _).symm
    exact hlength ▸ length_le_of_window s.inputBuffer.buffer.keys_nodup hkeys
  · obtain ⟨e, he, rfl⟩ := InputBuffer.takeInput_eq_some htaken
    obtain ⟨-, hcurrent, -, hwf⟩ := hw.entries p t e he
    refine ⟨hwf.tick, ?_⟩
    rintro before after sid input u os u' result rfl hbefore hp hs hresult rfl
    obtain ⟨v, o, os', hexec, hafter, -⟩ := runServer_split hrun hbefore
    obtain ⟨result', hs', -⟩ := Server.exec_receiveInput.1 hexec
    obtain ⟨rfl, rfl⟩ := Prod.mk.inj (Except.ok.inj (hs.symm.trans hs'))
    have hu := windowed_of_run hbefore
    rcases (Seen.of_accepted hu hp hs hresult).run (hu.receive hs) hafter with hlt | ⟨e', he', hn⟩
    · omega
    · obtain rfl := Option.some.inj (he.symm.trans he')
      rwa [hwf.newest]

/-- Two commands for one tick, the older one last, and a command for a later tick. -/
theorem buffer_bounded_of_three : ∃ s outs,
    runServer (F := ℚ) {} [.acceptSession, .step, .receiveInput 1 ⟨2, 2, [3, 4]⟩,
      .receiveInput 1 ⟨2, 1, [0, 1]⟩, .receiveInput 1 ⟨7, 3, [1, 0]⟩] = .ok (s, outs) ∧
    BoundedBuffer {} [.acceptSession, .step, .receiveInput 1 ⟨2, 2, [3, 4]⟩,
      .receiveInput 1 ⟨2, 1, [0, 1]⟩, .receiveInput 1 ⟨7, 3, [1, 0]⟩] outs s := by
  have h : (runServer (F := ℚ) {} [.acceptSession, .step, .receiveInput 1 ⟨2, 2, [3, 4]⟩,
      .receiveInput 1 ⟨2, 1, [0, 1]⟩, .receiveInput 1 ⟨7, 3, [1, 0]⟩]).map
        (fun x => x.1.inputBuffer.buffer.keys.length) = .ok 2 := by
    decide +kernel
  obtain ⟨⟨s, outs⟩, hs, -⟩ := map_eq_ok.1 h
  exact ⟨s, outs, hs, buffer_bounded hs⟩

end Flowstate
