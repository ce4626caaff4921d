import Flowstate.Lockstep

/-!
# Inputs never act before their tick

Two runs that differ only in commands for ticks from `T` on agree on everything up to `T` :
the snapshots of ticks up to `T`, the recorded inputs of ticks before `T`, and every verdict
on a command for a tick before `T` (`causality`). A command for a late tick writes a slot
of that tick, the worlds stay equal as long as the clock has not passed `T`, and the rest
of the server never reads a world or a slot. Player ids need not be distinct.
-/

set_option linter.unusedSectionVars false

open Rust

namespace Flowstate

variable {F : Type} [F64 F]

/-- A command for a tick from `T` on. -/
def Op.targetsFrom (T : Tick) : Op F → Bool
  | .receiveInput _ input => T ≤ input.tick
  | _ => false

/-- An output without what a tick after `T` shows : the floor stays. -/
def Out.upTo (T : Tick) : Out F → Out F
  | .stepped snapshot floor bytes =>
    if snapshot.tick ≤ T then .stepped snapshot floor bytes
    else .stepped ⟨snapshot.tick, [], 0⟩ floor []
  | out => out

/-- What a run shows up to `T`, commands for later ticks dropped. -/
def viewUpTo (T : Tick) (ops : List (Op F)) (outs : List (Out F)) : List (Op F × Out F) :=
  (Machine.publicPart (Op.targetsFrom T) ops outs).map fun x => (x.1, x.2.upTo T)

/-- Two servers that differ in slots from `T` on, and once the clock has passed `T` in their
characters and intents. -/
def AgreeUpTo (T : Tick) (s t : Server F) : Prop :=
  ∃ characters inputBuffer lastKnownIntent replayRecorder,
    t = { s with
      world := { s.world with characters }, inputBuffer, lastKnownIntent, replayRecorder } ∧
    inputBuffer.config = s.inputBuffer.config ∧
    inputBuffer.perTickLimit = s.inputBuffer.perTickLimit ∧
    (∀ p τ, τ < T → inputBuffer.buffer.lookup (p, τ) = s.inputBuffer.buffer.lookup (p, τ)) ∧
    (s.world.tick ≤ T →
      characters = s.world.characters ∧ lastKnownIntent = s.lastKnownIntent) ∧
    replayRecorder.inputs.filter (fun a => a.tick < T) =
      s.replayRecorder.inputs.filter fun a => a.tick < T

namespace AgreeUpTo

variable {T : Tick} {s t : Server F}

theorem refl (T : Tick) (s : Server F) : AgreeUpTo T s s :=
  ⟨_, _, _, _, rfl, rfl, rfl, fun _ _ _ => rfl, fun _ => ⟨rfl, rfl⟩, rfl⟩

theorem symm (h : AgreeUpTo T s t) : AgreeUpTo T t s := by
  obtain ⟨characters, b, lki, r, rfl, hconfig, hlimit, hslots, hearly, hinputs⟩ := h
  refine ⟨s.world.characters, s.inputBuffer, s.lastKnownIntent, s.replayRecorder, rfl,
    hconfig.symm, hlimit.symm, fun p τ hτ => (hslots p τ hτ).symm, fun hT => ?_, hinputs.symm⟩
  exact ⟨(hearly hT).1.symm, (hearly hT).2.symm⟩

/-- The clocks and the configurations are the same. -/
theorem frame (h : AgreeUpTo T s t) : t.world.tick = s.world.tick ∧ t.config = s.config := by
  obtain ⟨_, _, _, _, rfl, -⟩ := h
  exact ⟨rfl, rfl⟩

/-- The inputs recorded for the ticks before `T` are the same. -/
theorem inputs (h : AgreeUpTo T s t) : t.replayRecorder.inputs.filter (fun a => a.tick < T) =
    s.replayRecorder.inputs.filter fun a => a.tick < T := by
  obtain ⟨_, _, _, _, rfl, -, -, -, -, hinputs⟩ := h
  exact hinputs

/-- A late command keeps the agreement on the side that executes it. -/
theorem left (h : AgreeUpTo T s t) {op : Op F} {s' : Server F} {o : Out F}
    (hop : op.targetsFrom T) (hexec : s.exec op = .ok (s', o)) : AgreeUpTo T s' t := by
  cases op with
  | receiveInput sid input =>
    obtain ⟨result, hs, -⟩ := Server.exec_receiveInput.1 hexec
    rcases Server.receiveInput_cases hs with rfl | ⟨p, -, -, rfl, -⟩
    · exact h
    · obtain ⟨characters, b, lki, r, rfl, hconfig, hlimit, hslots, hearly, hinputs⟩ := h
      obtain ⟨hconfig', hlimit'⟩ := s.inputBuffer.tryBuffer_frame p input
      refine ⟨characters, b, lki, r, rfl, hconfig.trans hconfig'.symm,
        hlimit.trans hlimit'.symm, fun q τ hτ => ?_, hearly, hinputs⟩
      have hT : T ≤ input.tick := by simpa [Op.targetsFrom] using hop
      have hne : (q, τ) ≠ (p, input.tick) := by
        rintro ⟨⟩
        rw [UInt64.lt_iff_toNat_lt] at hτ
        rw [UInt64.le_iff_toNat_le] at hT
        omega
      rw [InputBuffer.lookup_tryBuffer, if_neg hne]
      exact hslots q τ hτ
  | acceptSession | welcomeFor | disconnectSession | step => simp [Op.targetsFrom] at hop

/-- A tick keeps the agreement, and up to `T` both sides reach the same world. -/
theorem step (h : AgreeUpTo T s t) {next : Tick} (floor : Tick)
    (hnext : next.toNat = s.world.tick.toNat + 1) :
    AgreeUpTo T (s.stepped (s.steppedWorld next) floor) (t.stepped (t.steppedWorld next) floor) ∧
      (next ≤ T → t.steppedWorld next = s.steppedWorld next) := by
  obtain ⟨characters, b, lki, r, rfl, hconfig, hlimit, hslots, hearly, hinputs⟩ := h
  set t : Server F := { s with
    world := { s.world with characters }, inputBuffer := b, lastKnownIntent := lki,
    replayRecorder := r }
  have hproduced : s.world.tick < T → t.produced.2 = s.produced.2 := by
    intro hT
    have hle : s.world.tick ≤ T := by
      rw [UInt64.lt_iff_toNat_lt] at hT
      exact UInt64.le_iff_toNat_le.2 hT.le
    obtain rfl := (hearly hle).2
    exact Server.produceInputs_congr _ _ _ fun p => by rw [hslots p _ hT]
  have hlt : next ≤ T → s.world.tick < T := by
    intro hT
    rw [UInt64.le_iff_toNat_le] at hT
    rw [UInt64.lt_iff_toNat_lt]
    omega
  have hworld : next ≤ T → t.steppedWorld next = s.steppedWorld next := by
    intro hT
    have hinputs : t.stepInputs = s.stepInputs := by
      rw [Server.stepInputs, Server.appliedInputs, hproduced (hlt hT)]
      rfl
    have hle : s.world.tick ≤ T := by
      have hlt := hlt hT
      rw [UInt64.lt_iff_toNat_lt] at hlt
      exact UInt64.le_iff_toNat_le.2 hlt.le
    have hsame : t.world = s.world := by
      obtain rfl := (hearly hle).1
      rfl
    rw [Server.steppedWorld, Server.steppedWorld, hinputs, hsame]
  have hrecorded : t.appliedInputs.filter (fun a => a.tick < T) =
      s.appliedInputs.filter fun a => a.tick < T := by
    by_cases hT : s.world.tick < T
    · rw [Server.appliedInputs, hproduced hT]
      rfl
    · -- From `T` on the inputs applied are not compared.
      have hnil : ∀ u : Server F, u.world.tick = s.world.tick →
          u.appliedInputs.filter (fun a => a.tick < T) = [] := by
        intro u hu
        refine List.filter_eq_nil_iff.2 fun a ha => ?_
        rw [Server.tick_of_mem_produceInputs _ _ _ _ a ha, hu]
        simpa using hT
      rw [hnil t rfl, hnil s rfl]
  have hframe := Server.produceInputs_frame s.world.tick s.entitySpawnOrder s.inputBuffer
    s.lastKnownIntent
  have hframe' := Server.produceInputs_frame s.world.tick s.entitySpawnOrder b lki
  refine ⟨⟨(t.steppedWorld next).characters, _, _, _, rfl, (hframe'.1.trans hconfig).trans
    hframe.1.symm, (hframe'.2.trans hlimit).trans hframe.2.symm, fun p τ hτ => ?_, fun hT => ?_,
    ?_⟩, hworld⟩
  · simp only [Server.stepped, Server.produced, InputBuffer.lookup_evictBefore,
      Server.lookup_produceInputs, Server.steppedWorld_tick]
    rw [hslots p τ hτ]
  · exact ⟨by rw [hworld hT]; rfl, congrArg Prod.fst (hproduced (hlt hT))⟩
  · change (t.stepped (t.steppedWorld next) floor).replayRecorder.inputs.filter _ = _
    rw [Server.stepped_replayRecorder, Server.stepped_replayRecorder]
    dsimp only
    rw [List.filter_append, List.filter_append, hrecorded, hinputs]

/-- Both sides accept the same session. -/
theorem accept (h : AgreeUpTo T s t) {s' t' : Server F} {a a' : SessionId × PlayerId × EntityId}
    (hs : s.acceptSession = .ok (s', a)) (ht : t.acceptSession = .ok (t', a')) :
    AgreeUpTo T s' t' ∧ a = a' := by
  obtain ⟨sid, p, e⟩ := a
  obtain ⟨sid', p', e'⟩ := a'
  obtain ⟨characters, b, lki, r, rfl, hconfig, hlimit, hslots, hearly, hinputs⟩ := h
  rw [Server.acceptSession_eq_ok] at hs ht
  obtain ⟨-, rfl, hp, nextSid, nextPid, world, hnextSid, hnextPid, hspawn, rfl⟩ := hs
  obtain ⟨-, rfl, hp', nextSid', nextPid', world', hnextSid', hnextPid', hspawn', rfl⟩ := ht
  rw [World.spawnCharacter_eq_ok] at hspawn hspawn'
  obtain ⟨rfl, nextEid, hnextEid, rfl⟩ := hspawn
  obtain ⟨rfl, nextEid', hnextEid', rfl⟩ := hspawn'
  obtain rfl : p = p' := Except.ok.inj (hp.symm.trans hp')
  obtain rfl : nextSid = nextSid' := UInt64.toNat_inj.1 (hnextSid.trans hnextSid'.symm)
  obtain rfl : nextPid = nextPid' := UInt8.toNat_inj.1 (hnextPid.trans hnextPid'.symm)
  obtain rfl : nextEid = nextEid' := UInt64.toNat_inj.1 (hnextEid.trans hnextEid'.symm)
  refine ⟨⟨_, b, _, _, rfl, hconfig, hlimit, hslots, fun hT => ?_, hinputs⟩, rfl⟩
  obtain ⟨rfl, rfl⟩ := hearly hT
  exact ⟨rfl, rfl⟩

/-- Both sides give an early command the same verdict. -/
theorem receive (h : AgreeUpTo T s t) {sid : SessionId} {input : InputCmdProto F}
    {s' t' : Server F} {result result' : ValidationResult} (hT : input.tick < T)
    (hs : s.receiveInput sid input = .ok (s', result))
    (ht : t.receiveInput sid input = .ok (t', result')) :
    AgreeUpTo T s' t' ∧ result = result' := by
  have hagree := h
  obtain ⟨characters, b, lki, r, rfl, hconfig, hlimit, hslots, hearly, hinputs⟩ := h
  rw [Server.receiveInput_eq] at hs ht
  simp only [hconfig] at ht
  rcases hp : s.sessionPlayers.lookup sid with _ | p
  · simp only [hp, Except.ok.injEq, Prod.mk.injEq] at hs ht
    obtain ⟨rfl, rfl⟩ := hs
    obtain ⟨rfl, rfl⟩ := ht
    exact ⟨hagree, rfl⟩
  · rcases hscreen : screen s.inputBuffer.config.maxFutureTicks s.world.tick
      ((s.lastEmittedFloor.lookup sid).getD 0) input with e | _ | verdict
    · simp [hp, hscreen] at hs
    · simp only [hp, hscreen, Except.ok.injEq, Prod.mk.injEq] at hs ht
      obtain ⟨rfl, rfl⟩ := hs
      obtain ⟨rfl, rfl⟩ := ht
      obtain ⟨hc, hl⟩ := s.inputBuffer.tryBuffer_frame p input
      obtain ⟨hc', hl'⟩ := b.tryBuffer_frame p input
      refine ⟨⟨_, _, _, _, rfl, (hc'.trans hconfig).trans hc.symm,
        (hl'.trans hlimit).trans hl.symm, fun q τ hτ => ?_, hearly, hinputs⟩, ?_⟩
      · rw [InputBuffer.lookup_tryBuffer, InputBuffer.lookup_tryBuffer, hlimit,
          hslots p _ hT, hslots q τ hτ]
      · rw [InputBuffer.tryBuffer_result, InputBuffer.tryBuffer_result, hlimit, hslots p _ hT]
    · simp only [hp, hscreen, Except.ok.injEq, Prod.mk.injEq] at hs ht
      obtain ⟨rfl, rfl⟩ := hs
      obtain ⟨rfl, rfl⟩ := ht
      exact ⟨hagree, rfl⟩

/-- Any other operation keeps the agreement, and shows the same up to `T`. -/
theorem both (h : AgreeUpTo T s t) {op : Op F} {s' t' : Server F} {o o' : Out F}
    (hop : op.targetsFrom T = false) (hexec : s.exec op = .ok (s', o))
    (hexec' : t.exec op = .ok (t', o')) :
    AgreeUpTo T s' t' ∧ o.upTo T = o'.upTo T := by
  cases op with
  | acceptSession =>
    obtain ⟨sid, p, e, hs, rfl⟩ := Server.exec_acceptSession.1 hexec
    obtain ⟨sid', p', e', ht, rfl⟩ := Server.exec_acceptSession.1 hexec'
    obtain ⟨hagree, heq⟩ := h.accept hs ht
    obtain ⟨rfl, rfl, rfl⟩ : sid = sid' ∧ p = p' ∧ e = e' := by simpa using heq
    exact ⟨hagree, rfl⟩
  | welcomeFor sid =>
    obtain ⟨characters, b, lki, r, rfl, hconfig, hlimit, hslots, hearly, hinputs⟩ := h
    obtain ⟨welcome, hs, rfl⟩ := Server.exec_welcomeFor.1 hexec
    obtain ⟨welcome', ht, rfl⟩ := Server.exec_welcomeFor.1 hexec'
    rw [Server.welcomeFor_eq_ok] at hs ht
    obtain ⟨session, hsession, floor, hfloor, rfl, rfl⟩ := hs
    obtain ⟨session', hsession', floor', hfloor', rfl, rfl⟩ := ht
    obtain rfl : session = session' := Option.some.inj (hsession.symm.trans hsession')
    obtain rfl : floor = floor' := UInt64.toNat_inj.1 (hfloor.trans hfloor'.symm)
    exact ⟨⟨_, b, _, _, rfl, hconfig, hlimit, hslots, hearly, hinputs⟩, rfl⟩
  | receiveInput sid input =>
    obtain ⟨result, hs, rfl⟩ := Server.exec_receiveInput.1 hexec
    obtain ⟨result', ht, rfl⟩ := Server.exec_receiveInput.1 hexec'
    have hT : input.tick < T := by
      have hlt : ¬T ≤ input.tick := by simpa [Op.targetsFrom] using hop
      rw [UInt64.le_iff_toNat_le] at hlt
      exact UInt64.lt_iff_toNat_lt.2 (Nat.not_le.1 hlt)
    obtain ⟨hagree, rfl⟩ := h.receive hT hs ht
    exact ⟨hagree, rfl⟩
  | disconnectSession sid =>
    obtain ⟨characters, b, lki, r, rfl, hconfig, hlimit, hslots, hearly, hinputs⟩ := h
    obtain ⟨rfl, rfl⟩ := Server.exec_disconnectSession.1 hexec
    obtain ⟨rfl, rfl⟩ := Server.exec_disconnectSession.1 hexec'
    refine ⟨?_, rfl⟩
    unfold Server.disconnectSession
    rcases hsession : s.sessions.lookup sid with _ | session
    · exact ⟨_, b, _, _, rfl, hconfig, hlimit, hslots, hearly, hinputs⟩
    · refine ⟨_, b, _, _, rfl, hconfig, hlimit, hslots, fun hT => ?_, hinputs⟩
      obtain ⟨rfl, rfl⟩ := hearly hT
      exact ⟨rfl, rfl⟩
  | step =>
    obtain ⟨snapshot, floor, bytes, hs, rfl⟩ := Server.exec_step.1 hexec
    obtain ⟨snapshot', floor', bytes', ht, rfl⟩ := Server.exec_step.1 hexec'
    rw [Server.step_eq_ok] at hs ht
    obtain ⟨next, hnext, hfloor, rfl, rfl, rfl⟩ := hs
    obtain ⟨next', hnext', hfloor', rfl, rfl, rfl⟩ := ht
    obtain ⟨htick, hconfig⟩ := h.frame
    obtain rfl : next = next' := UInt64.toNat_inj.1 (hnext.trans (htick ▸ hnext').symm)
    obtain rfl : floor = floor' := UInt64.toNat_inj.1 (hfloor.trans (hconfig ▸ hfloor').symm)
    obtain ⟨hagree, hworld⟩ := h.step floor hnext
    refine ⟨hagree, ?_⟩
    by_cases hT : next ≤ T
    · rw [hworld hT]
    · have hcut : ∀ world : World F, world.tick = next →
          (Out.stepped (Server.snapshotOf world) floor
            (Server.snapshotBytes (Server.snapshotOf world) floor)).upTo T =
              .stepped ⟨next, [], 0⟩ floor [] := by
        rintro world rfl
        exact if_neg hT
      rw [hcut _ rfl, hcut _ rfl]

end AgreeUpTo

/-- Histories that show the same up to `T`, one operation at a time. -/
theorem viewUpTo_eq {T : Tick} {ops ops' : List (Op F)} {outs outs' : List (Out F)}
    (h : List.Forall₂ (fun x y => x.1 = y.1 ∧ x.2.upTo T = y.2.upTo T)
      (Machine.publicPart (Op.targetsFrom T) ops outs)
      (Machine.publicPart (Op.targetsFrom T) ops' outs')) :
    viewUpTo T ops outs = viewUpTo T ops' outs' := by
  rw [viewUpTo, viewUpTo, ← List.forall₂_eq_eq_eq, List.forall₂_map_left_iff,
    List.forall₂_map_right_iff]
  exact h.imp fun x y hxy => Prod.ext hxy.1 hxy.2

/-- Inputs never act before their tick. Two runs that differ only in commands for ticks from
`T` on show the same up to `T`, and record the same inputs for the ticks before `T`, as far
as both go : one may end early by a panic. -/
theorem causality {config : ServerConfig} {T : Tick} {ops ops' : List (Op F)} {s t : Server F}
    {outs outs' : List (Out F)}
    (hops : ops.filter (fun op => !op.targetsFrom T) <+: ops'.filter fun op => !op.targetsFrom T)
    (hs : runServer config ops = .ok (s, outs)) (ht : runServer config ops' = .ok (t, outs')) :
    (ops.filter (fun op => !op.targetsFrom T) = ops'.filter (fun op => !op.targetsFrom T) →
      viewUpTo T ops outs = viewUpTo T ops' outs' ∧
        s.replayRecorder.inputs.filter (fun a => a.tick < T) =
          t.replayRecorder.inputs.filter fun a => a.tick < T) ∧
    viewUpTo T ops outs <+: viewUpTo T ops' outs' ∧
      s.replayRecorder.inputs.filter (fun a => a.tick < T) <+:
        t.replayRecorder.inputs.filter fun a => a.tick < T := by
  obtain ⟨s₀, hnew, hs⟩ := bind_eq_ok.1 hs
  obtain ⟨t₀, hnew', ht⟩ := bind_eq_ok.1 ht
  obtain rfl : s₀ = t₀ := Except.ok.inj (hnew.symm.trans hnew')
  have hleft : ∀ (s t : Server F) op s' o, AgreeUpTo T s t → op.targetsFrom T →
      s.exec op = .ok (s', o) → AgreeUpTo T s' t :=
    fun _ _ _ _ _ h hop hexec => h.left hop hexec
  have hright : ∀ (s t : Server F) op t' o, AgreeUpTo T s t → op.targetsFrom T →
      t.exec op = .ok (t', o) → AgreeUpTo T s t' :=
    fun _ _ _ _ _ h hop hexec => (h.symm.left hop hexec).symm
  have hboth : ∀ (s t : Server F) op s' o t' o', AgreeUpTo T s t → op.targetsFrom T = false →
      s.exec op = .ok (s', o) → t.exec op = .ok (t', o') →
        AgreeUpTo T s' t' ∧ o.upTo T = o'.upTo T :=
    fun _ _ _ _ _ _ _ h hop hs ht => h.both hop hs ht
  have hrefl := AgreeUpTo.refl T s₀
  constructor
  · intro heq
    obtain ⟨hagree, hviews⟩ := Machine.run_unwind (M := serverMachine F)
      (Q := fun _ o o' => o.upTo T = o'.upTo T) hleft hright hboth heq hrefl hs ht
    exact ⟨viewUpTo_eq hviews, hagree.inputs.symm⟩
  · obtain ⟨t₁, before, after, os, os', rfl, -, hafter, hagree, hviews, hprefix⟩ :=
      Machine.run_unwind_prefix (M := serverMachine F)
        (Q := fun _ o o' => o.upTo T = o'.upTo T) hleft hright hboth hops hrefl hs ht
    obtain ⟨-, more, hmore, -⟩ := tick_of_run hafter
    refine ⟨viewUpTo_eq hviews ▸ hprefix.map _, ?_⟩
    rw [hmore, List.filter_append, ← hagree.inputs]
    exact List.prefix_append _ _

/-- One run ends before the other, and commands for tick 2 and later differ. -/
theorem causality_before_two : ∃ s t outs outs',
    runServer (F := ℚ) {} [.acceptSession, .receiveInput 1 ⟨1, 1, [1, 0]⟩,
      .receiveInput 1 ⟨2, 2, [0, 1]⟩, .step, .step] = .ok (s, outs) ∧
    runServer (F := ℚ) {} [.acceptSession, .receiveInput 1 ⟨1, 1, [1, 0]⟩, .step,
      .receiveInput 1 ⟨3, 3, [1, 0]⟩, .step, .step, .step] = .ok (t, outs') ∧
    viewUpTo 2 [.acceptSession, .receiveInput 1 ⟨1, 1, [1, 0]⟩, .receiveInput 1 ⟨2, 2, [0, 1]⟩,
      .step, .step] outs <+:
      viewUpTo 2 [.acceptSession, .receiveInput 1 ⟨1, 1, [1, 0]⟩, .step,
        .receiveInput 1 ⟨3, 3, [1, 0]⟩, .step, .step, .step] outs' ∧
    s.replayRecorder.inputs.filter (fun a => a.tick < 2) <+:
      t.replayRecorder.inputs.filter (fun a => a.tick < 2) ∧
    (s.replayRecorder.inputs.filter fun a => a.tick < 2).map AppliedInput.moveDir =
      [(0, 0), (1, 0)] := by
  have h : (runServer (F := ℚ) {} [.acceptSession, .receiveInput 1 ⟨1, 1, [1, 0]⟩,
      .receiveInput 1 ⟨2, 2, [0, 1]⟩, .step, .step]).map (fun x =>
        (x.1.replayRecorder.inputs.filter fun a => a.tick < 2).map AppliedInput.moveDir) =
      .ok [(0, 0), (1, 0)] := by
    decide +kernel
  have h' : (runServer (F := ℚ) {} [.acceptSession, .receiveInput 1 ⟨1, 1, [1, 0]⟩, .step,
      .receiveInput 1 ⟨3, 3, [1, 0]⟩, .step, .step, .step]).map (fun _ => ()) = .ok () := by
    decide +kernel
  obtain ⟨⟨s, outs⟩, hs, happlied⟩ := map_eq_ok.1 h
  obtain ⟨⟨t, outs'⟩, ht, -⟩ := map_eq_ok.1 h'
  obtain ⟨-, hview, hinputs⟩ := causality (T := 2) (by decide) hs ht
  exact ⟨s, t, outs, outs', hs, ht, hview, hinputs, happlied⟩

end Flowstate
