import Flowstate.Refinement
import Flowstate.Slot

/-!
# Arrival order does not matter

A batch of commands sends each slot the commands admitted to it, in their order in the
batch (`run_receives`). As long as no slot has to turn one away, the order leaves no trace :
the slots have seen the same commands (`SameSlot`), and servers that differ in nothing else
(`Alike`) answer every operation alike. The limit is one of a player and a tick, so where
two sessions share a player their commands count together (`arrival_order`), and do not
commute when only the limit for each session is kept (`not_arrival_order_shared`).
-/

set_option linter.unusedSectionVars false

open Rust

namespace Flowstate

variable {F : Type} [F64 F]

/-! ## Batches of commands -/

/-- The commands of a batch as operations. -/
def receives (batch : List (SessionId × InputCmdProto F)) : List (Op F) :=
  batch.map fun x => .receiveInput x.1 x.2

/-- The player whose slot of its tick a command reaches, if it reaches one. -/
def Server.route (s : Server F) (x : SessionId × InputCmdProto F) :
    Except Panic (Option PlayerId) :=
  match s.sessionPlayers.lookup x.1 with
  | none => .ok none
  | some p =>
    (screen s.inputBuffer.config.maxFutureTicks s.world.tick
      ((s.lastEmittedFloor.lookup x.1).getD 0) x.2).map fun verdict =>
        if verdict.isNone then some p else none

/-- The commands of a batch that reach a slot. -/
def Server.admitted (s : Server F) (key : PlayerId × Tick)
    (batch : List (SessionId × InputCmdProto F)) : List (InputCmdProto F) :=
  (batch.filter fun x => s.route x = .ok (some key.1) ∧ x.2.tick = key.2).map Prod.snd

/-- How many commands a slot has counted. -/
def receiveCount (slot : Option (BufferEntry F)) : ℕ :=
  (slot.map fun entry => entry.receiveCount.toNat).getD 0

/-- No player gets more commands for a tick than the limit allows, those already buffered
included. -/
def WithinLimit (s : Server F) (batch : List (SessionId × InputCmdProto F)) : Prop :=
  ∀ key, s.admitted key batch ≠ [] → receiveCount (s.inputBuffer.buffer.lookup key) +
    (s.admitted key batch).length ≤ s.inputBuffer.perTickLimit.toNat

/-- The server with another buffer. -/
def Server.withBuffer (s : Server F) (b : InputBuffer F) : Server F := { s with inputBuffer := b }

namespace Server

/-- The route of a command does not depend on what is buffered. -/
theorem route_withBuffer {s : Server F} {b : InputBuffer F}
    (h : b.config = s.inputBuffer.config) (x : SessionId × InputCmdProto F) :
    (s.withBuffer b).route x = s.route x := by
  simp only [route, withBuffer, h]

theorem admitted_withBuffer {s : Server F} {b : InputBuffer F}
    (h : b.config = s.inputBuffer.config) (key : PlayerId × Tick)
    (batch : List (SessionId × InputCmdProto F)) :
    (s.withBuffer b).admitted key batch = s.admitted key batch := by
  simp only [admitted, route_withBuffer h]

/-- A command panics, or goes nowhere, or is received by the slot it is routed to. -/
theorem receiveInput_route (s : Server F) (x : SessionId × InputCmdProto F) :
    (s.route x = .error addOverflow ∧ ∀ b, b.config = s.inputBuffer.config →
      (s.withBuffer b).receiveInput x.1 x.2 = .error addOverflow) ∨
    (s.route x = .ok none ∧ ∃ result, ∀ b, b.config = s.inputBuffer.config →
      (s.withBuffer b).receiveInput x.1 x.2 = .ok (s.withBuffer b, result)) ∨
    ∃ p, s.route x = .ok (some p) ∧ ∀ b, b.config = s.inputBuffer.config →
      (s.withBuffer b).receiveInput x.1 x.2 =
        .ok (s.withBuffer (b.tryBuffer p x.2).1, (b.tryBuffer p x.2).2.verdict) := by
  unfold route
  rcases hplayer : s.sessionPlayers.lookup x.1 with _ | p
  · refine .inr (.inl ⟨rfl, .droppedUnknownSession, fun b hb => ?_⟩)
    simp only [receiveInput_eq, withBuffer, hplayer]
  · rcases hscreen : screen s.inputBuffer.config.maxFutureTicks s.world.tick
      ((s.lastEmittedFloor.lookup x.1).getD 0) x.2 with e | _ | result
    · obtain rfl := screen_eq_error hscreen
      refine .inl ⟨rfl, fun b hb => ?_⟩
      simp only [receiveInput_eq, withBuffer, hplayer, hb, hscreen]
    · refine .inr (.inr ⟨p, rfl, fun b hb => ?_⟩)
      simp only [receiveInput_eq, withBuffer, hplayer, hb, hscreen]
    · refine .inr (.inl ⟨rfl, result, fun b hb => ?_⟩)
      simp only [receiveInput_eq, withBuffer, hplayer, hb, hscreen]

theorem admitted_cons (s : Server F) (key : PlayerId × Tick) (x : SessionId × InputCmdProto F)
    (batch : List (SessionId × InputCmdProto F)) :
    s.admitted key (x :: batch) = s.admitted key [x] ++ s.admitted key batch := by
  rw [admitted, ← List.singleton_append, List.filter_append, List.map_append]
  rfl

end Server

/-- What a slot holds after receiving the commands. -/
def receiveAll (perTickLimit : UInt32) (slot : Option (BufferEntry F))
    (commands : List (InputCmdProto F)) : Option (BufferEntry F) :=
  commands.foldl (fun slot c => (BufferEntry.receive perTickLimit slot c).1) slot

/-- A batch panics if one of its commands does, and else changes the buffer only : each slot
receives the commands admitted to it. -/
theorem run_receives : ∀ (batch : List (SessionId × InputCmdProto F)) (s : Server F),
    ((∃ x ∈ batch, s.route x = .error addOverflow) ∧
      (serverMachine F).run s (receives batch) = .error addOverflow) ∨
    (∀ x ∈ batch, s.route x ≠ .error addOverflow) ∧ ∃ b outs,
      (serverMachine F).run s (receives batch) = .ok (s.withBuffer b, outs) ∧
      b.config = s.inputBuffer.config ∧ b.perTickLimit = s.inputBuffer.perTickLimit ∧
      ∀ key, b.buffer.lookup key = receiveAll s.inputBuffer.perTickLimit
        (s.inputBuffer.buffer.lookup key) (s.admitted key batch)
  | [], s => .inr ⟨nofun, s.inputBuffer, [], rfl, rfl, rfl, fun key => rfl⟩
  | x :: batch, s => by
    have hexec : (serverMachine F).exec s (.receiveInput x.1 x.2) =
        (s.withBuffer s.inputBuffer).receiveInput x.1 x.2 >>= fun y => .ok (y.1, .verdict y.2) :=
      rfl
    -- The first command panics, or reaches its slot and leaves a server that routes alike.
    have hfirst : s.route x = .error addOverflow ∧
          (serverMachine F).exec s (.receiveInput x.1 x.2) = .error addOverflow ∨
        s.route x ≠ .error addOverflow ∧ ∃ b o,
          (serverMachine F).exec s (.receiveInput x.1 x.2) = .ok (s.withBuffer b, o) ∧
          b.config = s.inputBuffer.config ∧ b.perTickLimit = s.inputBuffer.perTickLimit ∧
          ∀ key, b.buffer.lookup key = receiveAll s.inputBuffer.perTickLimit
            (s.inputBuffer.buffer.lookup key) (s.admitted key [x]) := by
      rcases s.receiveInput_route x with ⟨hroute, h⟩ | ⟨hroute, result, h⟩ | ⟨p, hroute, h⟩ <;>
        rw [h s.inputBuffer rfl] at hexec
      · exact .inl ⟨hroute, hexec⟩
      · refine .inr ⟨by simp [hroute], s.inputBuffer, _, hexec, rfl, rfl, fun key => ?_⟩
        simp [Server.admitted, hroute, receiveAll]
      · obtain ⟨hconfig, hlimit⟩ := s.inputBuffer.tryBuffer_frame p x.2
        refine .inr ⟨by simp [hroute], _, _, hexec, hconfig, hlimit, fun key => ?_⟩
        rw [InputBuffer.lookup_tryBuffer]
        by_cases hkey : key = (p, x.2.tick)
        · subst hkey
          simp [Server.admitted, hroute, receiveAll]
        · have hne : ¬(p = key.1 ∧ x.2.tick = key.2) := fun h => hkey (Prod.ext h.1.symm h.2.symm)
          simp [Server.admitted, hroute, receiveAll, hkey, hne]
    rcases hfirst with ⟨hroute, hexec⟩ | ⟨hroute, b, o, hexec, hconfig, hlimit, hslots⟩
    · exact .inl ⟨⟨x, List.mem_cons_self, hroute⟩, Machine.run_cons_eq_error.2 (.inl hexec)⟩
    · have hsame := fun y => Server.route_withBuffer hconfig y
      rcases run_receives batch (s.withBuffer b) with
        ⟨⟨y, hy, hpanic⟩, h⟩ | ⟨hok, b', outs, h, hconfig', hlimit', hslots'⟩
      · exact .inl ⟨⟨y, List.mem_cons_of_mem _ hy, hsame y ▸ hpanic⟩,
          Machine.run_cons_eq_error.2 (.inr ⟨_, _, hexec, h⟩)⟩
      · refine .inr ⟨List.forall_mem_cons.2 ⟨hroute, fun y hy => hsame y ▸ hok y hy⟩, b',
          o :: outs, Machine.run_cons_eq_ok.2 ⟨_, _, _, hexec, h, rfl⟩, hconfig'.trans hconfig,
          hlimit'.trans hlimit, fun key => ?_⟩
        have hb : (s.withBuffer b).inputBuffer = b := rfl
        rw [hslots' key, Server.admitted_withBuffer hconfig, Server.admitted_cons, hb, hlimit,
          hslots key, receiveAll, receiveAll, receiveAll, List.foldl_append]

/-! ## Servers that have seen the same commands -/

variable [F64.LawfulClamp F]

/-- Two servers that differ in the order in which their slots have seen the same commands. -/
def Alike (s t : Server F) : Prop :=
  ∃ b, t = s.withBuffer b ∧ b.config = s.inputBuffer.config ∧
    b.perTickLimit = s.inputBuffer.perTickLimit ∧
    ∀ key, SameSlot (s.inputBuffer.buffer.lookup key) (b.buffer.lookup key)

namespace Alike

variable {s t : Server F}

/-- An operation that neither reads nor writes the buffer keeps two servers alike. -/
theorem frame {op : Op F} (h : Alike s t)
    (hop : ∀ b, (s.withBuffer b).exec op = (s.exec op).map fun x => (x.1.withBuffer b, x.2)) :
    Machine.ResultRel Alike Eq (s.exec op) (t.exec op) := by
  obtain ⟨b, rfl, hconfig, hlimit, hslots⟩ := h
  have hown := hop s.inputBuffer
  rcases hs : s.exec op with e | ⟨s', o⟩
  · exact Machine.resultRel_error rfl (by rw [hop, hs]; rfl)
  · have hbuffer : s' = s'.withBuffer s.inputBuffer := by
      rw [hs] at hown
      exact (Prod.mk.inj (Except.ok.inj (hs.symm.trans hown))).1
    refine Machine.resultRel_ok rfl (by rw [hop, hs]; rfl) ⟨b, rfl, ?_, ?_, ?_⟩ rfl
    · rw [hbuffer]
      exact hconfig
    · rw [hbuffer]
      exact hlimit
    · rw [hbuffer]
      exact hslots

theorem receive (h : Alike s t) (sid : SessionId) (input : InputCmdProto F) :
    Machine.ResultRel Alike Eq (s.exec (.receiveInput sid input))
      (t.exec (.receiveInput sid input)) := by
  have halike := h
  obtain ⟨b, rfl, hconfig, hlimit, hslots⟩ := h
  have hexec : ∀ u : Server F, u.exec (.receiveInput sid input) =
      u.receiveInput sid input >>= fun y => .ok (y.1, .verdict y.2) := fun _ => rfl
  have hs : s = s.withBuffer s.inputBuffer := rfl
  rw [hexec, hexec]
  rcases s.receiveInput_route (sid, input) with ⟨-, hr⟩ | ⟨-, result, hr⟩ | ⟨p, -, hr⟩
  · rw [hr b hconfig, hs, hr s.inputBuffer rfl]
    exact Machine.resultRel_error rfl rfl
  · rw [hr b hconfig, hs, hr s.inputBuffer rfl]
    exact Machine.resultRel_ok rfl rfl halike rfl
  · rw [hr b hconfig, hs, hr s.inputBuffer rfl]
    obtain ⟨hc, hl⟩ := s.inputBuffer.tryBuffer_frame p input
    obtain ⟨hc', hl'⟩ := b.tryBuffer_frame p input
    have hslot := (hslots (p, input.tick)).receive s.inputBuffer.perTickLimit input
    refine Machine.resultRel_ok rfl rfl ⟨_, rfl, (hc'.trans hconfig).trans hc.symm,
      (hl'.trans hlimit).trans hl.symm, fun key => ?_⟩ ?_
    · change SameSlot ((s.inputBuffer.tryBuffer p input).1.buffer.lookup key) _
      rw [InputBuffer.lookup_tryBuffer, InputBuffer.lookup_tryBuffer, hlimit]
      split_ifs
      · exact hslot.1
      · exact hslots key
    · rw [InputBuffer.tryBuffer_result, InputBuffer.tryBuffer_result, hlimit, hslot.2]

/-- A tick applies the same, since slots that have seen the same commands yield the same. -/
theorem step (h : Alike s t) :
    Machine.ResultRel Alike Eq (s.exec .step) (t.exec .step) := by
  obtain ⟨b, rfl, hconfig, hlimit, hslots⟩ := h
  have hproduced : (s.withBuffer b).produced.2 = s.produced.2 :=
    (Server.produceInputs_congr _ _ _ fun p => (hslots (p, s.world.tick)).taken_eq).symm
  have hworld : ∀ next, (s.withBuffer b).steppedWorld next = s.steppedWorld next := by
    intro next
    rw [Server.steppedWorld, Server.stepInputs, Server.appliedInputs, hproduced]
    rfl
  have hstepped : ∀ world floor, (s.withBuffer b).stepped world floor =
      (s.stepped world floor).withBuffer ((s.withBuffer b).produced.1.evictBefore world.tick) := by
    intro world floor
    rw [Server.stepped, hproduced]
    rfl
  have hframe := Server.produceInputs_frame s.world.tick s.entitySpawnOrder s.inputBuffer
    s.lastKnownIntent
  have hframe' := Server.produceInputs_frame s.world.tick s.entitySpawnOrder b s.lastKnownIntent
  have hexec : ∀ u : Server F, u.world.tick = s.world.tick → u.config = s.config →
      u.exec .step = addU64 s.world.tick 1 >>= fun next =>
        addU64 next s.config.inputLeadTicks >>= fun floor =>
          .ok (u.stepped (u.steppedWorld next) floor,
            .stepped (Server.snapshotOf (u.steppedWorld next)) floor
              (Server.snapshotBytes (Server.snapshotOf (u.steppedWorld next)) floor)) := by
    intro u htick hconfig
    rw [Server.exec, Server.step_eq, htick, hconfig]
    rcases addU64 s.world.tick 1 with e | next
    · rfl
    · simp only [bind, Except.bind]
      rcases addU64 next s.config.inputLeadTicks with e | floor <;> rfl
  rw [hexec s rfl rfl, hexec (s.withBuffer b) rfl rfl]
  simp only [hworld, hstepped, Server.steppedWorld_tick]
  rcases addU64 s.world.tick 1 with e | next
  · exact Machine.resultRel_error rfl rfl
  · simp only [bind, Except.bind]
    rcases addU64 next s.config.inputLeadTicks with e | floor
    · exact Machine.resultRel_error rfl rfl
    · refine Machine.resultRel_ok rfl rfl ⟨_, rfl, (hframe'.1.trans hconfig).trans hframe.1.symm,
        (hframe'.2.trans hlimit).trans hframe.2.symm, fun key => ?_⟩ rfl
      change SameSlot ((s.produced.1.evictBefore next).buffer.lookup key)
        (((s.withBuffer b).produced.1.evictBefore next).buffer.lookup key)
      rw [InputBuffer.lookup_evictBefore, InputBuffer.lookup_evictBefore, Server.produced,
        Server.produced, Server.lookup_produceInputs, Server.lookup_produceInputs]
      change SameSlot (if next ≤ key.2 then if key.1 ∈ s.entitySpawnOrder ∧ key.2 = s.world.tick
        then none else s.inputBuffer.buffer.lookup key else none) (if next ≤ key.2 then
          if key.1 ∈ s.entitySpawnOrder ∧ key.2 = s.world.tick then none else b.buffer.lookup key
            else none)
      split_ifs
      · exact SameSlot.none
      · exact hslots key
      · exact SameSlot.none

/-- Servers that have seen the same commands answer every operation alike. -/
theorem exec (h : Alike s t) (op : Op F) :
    Machine.ResultRel Alike Eq (s.exec op) (t.exec op) := by
  cases op with
  | acceptSession =>
    refine h.frame fun b => ?_
    by_cases hcap : s.config.maxSessions ≤ s.sessionCount
    · have hcap' : (s.withBuffer b).config.maxSessions ≤ (s.withBuffer b).sessionCount := hcap
      simp only [Server.exec, Server.acceptSession, hcap, hcap', if_true]
      rfl
    · have hcap' : ¬(s.withBuffer b).config.maxSessions ≤ (s.withBuffer b).sessionCount := hcap
      have hassign : ∀ ordinal, (s.withBuffer b).assignPlayerId ordinal =
          s.assignPlayerId ordinal := fun _ => rfl
      simp only [Server.exec, Server.acceptSession, hcap, hcap', if_false, hassign]
      simp only [Server.withBuffer]
      rcases addU64 s.nextSessionId 1 with e | nextSid
      · rfl
      · rcases addU8 s.nextPlayerId 1 with e | nextPid
        · rfl
        · rcases hp : s.assignPlayerId s.nextPlayerId with e | p
          · rfl
          · rcases hspawn : s.world.spawnCharacter p with e | ⟨world, e⟩
            · simp [bind, Except.bind, Except.map, hspawn]
            · simp [bind, Except.bind, Except.map, pure, Except.pure, hspawn]
  | welcomeFor sid =>
    refine h.frame fun b => ?_
    simp only [Server.exec, Server.welcomeFor, Server.withBuffer]
    rcases s.sessions.lookup sid with _ | session
    · rfl
    · rcases hadd : addU64 s.world.tick s.config.inputLeadTicks with e | floor <;>
        simp [bind, Except.bind, Except.map, pure, Except.pure]
  | receiveInput sid input => exact h.receive sid input
  | disconnectSession sid =>
    refine h.frame fun b => ?_
    simp only [Server.exec, Server.disconnectSession, Server.withBuffer]
    rcases s.sessions.lookup sid with _ | session <;> rfl
  | step => exact h.step

theorem run (h : Alike s t) (ops : List (Op F)) :
    Machine.ResultRel Alike (List.Forall₂ Eq) ((serverMachine F).run s ops)
      ((serverMachine F).run t ops) :=
  Machine.run_rel (M := serverMachine F) (N := serverMachine F) (R := fun _ => Alike)
    (fun _ _ op _ h => h.exec op) h

end Alike

/-- The servers answer every continuation alike, and record the same. -/
def Indistinguishable (s t : Server F) : Prop :=
  ∀ ops, Machine.ResultRel (fun s' t' => s'.replayRecorder = t'.replayRecorder) Eq
    ((serverMachine F).run s ops) ((serverMachine F).run t ops)

theorem Alike.indistinguishable {s t : Server F} (h : Alike s t) : Indistinguishable s t := by
  refine fun ops => (h.run ops).imp ?_ ?_
  · rintro s' t' ⟨b, rfl, -⟩
    rfl
  · rintro outs outs' houts
    rwa [List.forall₂_eq_eq_eq] at houts

/-- The slots of a reachable server have seen the commands they have seen. -/
theorem alike_self {config : ServerConfig} {ops : List (Op F)} {s : Server F} {outs : List (Out F)}
    (hrun : runServer config ops = .ok (s, outs)) : Alike s s := by
  obtain ⟨s₀, hnew, hrun⟩ := bind_eq_ok.1 hrun
  have hempty : Alike s₀ s₀ := by
    obtain ⟨-, rfl⟩ := Server.new_eq_ok.1 hnew
    exact ⟨_, rfl, rfl, rfl, fun _ => SameSlot.none⟩
  have hself := hempty.run ops
  rw [hrun] at hself
  exact hself.1

/-! ## Order -/

theorem receiveCount_arrive {slot : Option (BufferEntry F)} (c : InputCmdProto F)
    (h : receiveCount slot + 1 < 2 ^ 32) :
    receiveCount (arrive slot c) = receiveCount slot + 1 := by
  rcases slot with _ | entry
  · rw [arrive, BufferEntry.first, BufferEntry.clampSelected_eq]
    rfl
  · have hcount : (entry.receiveCount + 1).toNat = entry.receiveCount.toNat + 1 := by
      rw [UInt32.toNat_add]
      exact Nat.mod_eq_of_lt h
    rw [arrive, BufferEntry.next, BufferEntry.clampSelected_eq]
    by_cases hlead : entry.maxInputSeq < c.inputSeq
    · simpa [receiveCount, hlead] using hcount
    · by_cases htie : c.inputSeq = entry.maxInputSeq <;>
        simpa [receiveCount, hlead, htie] using hcount

/-- A slot below the limit accepts every command. -/
theorem receiveAll_eq_foldl {perTickLimit : UInt32} : ∀ {slot : Option (BufferEntry F)}
    {commands : List (InputCmdProto F)},
    receiveCount slot + commands.length ≤ perTickLimit.toNat →
      receiveAll perTickLimit slot commands = commands.foldl arrive slot
  | _, [], _ => rfl
  | slot, c :: commands, h => by
    rw [List.length_cons] at h
    have hlt := perTickLimit.toNat_lt
    have hnot : ¬Full perTickLimit slot := by
      rintro ⟨entry, rfl, hfull⟩
      rw [UInt32.le_iff_toNat_le] at hfull
      simp only [receiveCount, Option.map_some, Option.getD_some] at h
      omega
    have hcount : receiveCount (arrive slot c) = receiveCount slot + 1 :=
      receiveCount_arrive c (by omega)
    have hrest : receiveCount (arrive slot c) + commands.length ≤ perTickLimit.toNat := by omega
    have ih := receiveAll_eq_foldl hrest
    rw [receiveAll] at ih ⊢
    rw [List.foldl_cons, List.foldl_cons, (receive_of_not_full hnot c).1, ih]

theorem admitted_perm (s : Server F) {batch batch' : List (SessionId × InputCmdProto F)}
    (h : batch.Perm batch') (key : PlayerId × Tick) :
    (s.admitted key batch).Perm (s.admitted key batch') :=
  (h.filter _).map _

/-- Within the limit, the slots see the same commands in whatever order the batch comes. -/
theorem sameSlot_receiveAll {s : Server F} {batch batch' : List (SessionId × InputCmdProto F)}
    (hself : Alike s s) (hperm : batch.Perm batch') (hlimit : WithinLimit s batch)
    (key : PlayerId × Tick) :
    SameSlot
      (receiveAll s.inputBuffer.perTickLimit (s.inputBuffer.buffer.lookup key)
        (s.admitted key batch))
      (receiveAll s.inputBuffer.perTickLimit (s.inputBuffer.buffer.lookup key)
        (s.admitted key batch')) := by
  have hadmitted := admitted_perm s hperm key
  obtain ⟨b, -, -, -, hslots⟩ := hself
  obtain ⟨commands, commands', -, hslot, -⟩ := hslots key
  have hall : ∀ more : List (InputCmdProto F), more.Perm (s.admitted key batch) →
      receiveAll s.inputBuffer.perTickLimit (s.inputBuffer.buffer.lookup key) more =
        summarize (commands ++ more) := by
    intro more hmore
    by_cases hnil : s.admitted key batch = []
    · rw [hnil, List.perm_nil] at hmore
      rw [hmore, List.append_nil, ← hslot]
      rfl
    · rw [receiveAll_eq_foldl (hmore.length_eq ▸ hlimit key hnil), hslot, summarize, summarize,
        List.foldl_append]
  exact ⟨_, _, hadmitted.append_left commands, hall _ (.refl _), hall _ hadmitted.symm⟩

/-- Arrival order does not matter. From every reachable server, a batch of commands within
the limit of every player and tick panics in every order or in none, and in every order
leads to servers that no continuation can tell apart. -/
theorem arrival_order {config : ServerConfig} {ops : List (Op F)} {s : Server F}
    {outs : List (Out F)} (hrun : runServer config ops = .ok (s, outs))
    {batch batch' : List (SessionId × InputCmdProto F)} (hperm : batch.Perm batch')
    (hlimit : WithinLimit s batch) :
    Machine.ResultRel Indistinguishable (fun _ _ => True)
      ((serverMachine F).run s (receives batch)) ((serverMachine F).run s (receives batch')) := by
  rcases run_receives batch s with
    ⟨⟨x, hx, hpanic⟩, h⟩ | ⟨hok, b, outs₁, h, hconfig, hlim, hslots⟩ <;>
    rcases run_receives batch' s with
      ⟨⟨x', hx', hpanic'⟩, h'⟩ | ⟨hok', b', outs₂, h', hconfig', hlim', hslots'⟩
  · exact Machine.resultRel_error h h'
  · exact absurd hpanic (hok' x (hperm.mem_iff.1 hx))
  · exact absurd hpanic' (hok x' (hperm.mem_iff.2 hx'))
  · refine Machine.resultRel_ok h h' (Alike.indistinguishable ⟨b', rfl, hconfig'.trans hconfig.symm,
      hlim'.trans hlim.symm, fun key => ?_⟩) trivial
    change SameSlot (b.buffer.lookup key) (b'.buffer.lookup key)
    rw [hslots key, hslots' key]
    exact sameSlot_receiveAll (alike_self hrun) hperm hlimit key

/-- Two commands for one tick, and their order in a batch. -/
theorem arrival_order_of_two : ∃ s outs, runServer (F := ℚ) {} [.acceptSession] = .ok (s, outs) ∧
    Machine.ResultRel Indistinguishable (fun _ _ => True)
      ((serverMachine ℚ).run s (receives [(1, ⟨1, 1, [1, 0]⟩), (1, ⟨1, 2, [3, 4]⟩)]))
      ((serverMachine ℚ).run s (receives [(1, ⟨1, 2, [3, 4]⟩), (1, ⟨1, 1, [1, 0]⟩)])) := by
  have h : (runServer (F := ℚ) {} [.acceptSession]).map (fun x =>
      (x.1.inputBuffer.perTickLimit, x.1.inputBuffer.buffer.entries.length)) = .ok (4, 0) := by
    decide +kernel
  obtain ⟨⟨s, outs⟩, hs, heq⟩ := map_eq_ok.1 h
  obtain ⟨hlimit, hempty⟩ := Prod.mk.inj heq
  refine ⟨s, outs, hs, arrival_order hs (.swap ..) fun key _ => ?_⟩
  have hnone : s.inputBuffer.buffer.lookup key = none := by
    rw [AList.lookup_eq_none, AList.mem_keys, AList.keys, List.length_eq_zero_iff.1 hempty]
    exact List.not_mem_nil
  have hlen : (s.admitted key [(1, ⟨1, 1, [1, 0]⟩), (1, ⟨1, 2, [3, 4]⟩)]).length ≤ 2 := by
    rw [Server.admitted, List.length_map]
    exact List.length_filter_le _ _
  rw [hnone, hlimit]
  exact (Nat.zero_add _).trans_le (hlen.trans (by decide))

/-- No session sends more commands for a tick than the limit allows, those already buffered
for its player included. -/
def WithinSessionLimit (s : Server F) (batch : List (SessionId × InputCmdProto F)) : Prop :=
  ∀ sid p t, s.sessionPlayers.lookup sid = some p →
    receiveCount (s.inputBuffer.buffer.lookup (p, t)) +
      (batch.filter fun x => x.1 = sid ∧ x.2.tick = t).length ≤ s.inputBuffer.perTickLimit.toNat

/-- Two commands of different sessions are at most one of each session. -/
theorem length_filter_pair {x y : SessionId × InputCmdProto F} (hne : x.1 ≠ y.1) (sid : SessionId)
    (t : Tick) : ([x, y].filter fun z => z.1 = sid ∧ z.2.tick = t).length ≤ 1 := by
  by_cases hx : x.1 = sid
  · have hy : y.1 ≠ sid := fun hy => hne (hx.trans hy.symm)
    simp only [List.filter_cons, hy, List.filter_nil]
    split_ifs <;> simp_all
  · simp only [List.filter_cons, hx, List.filter_nil]
    split_ifs <;> simp_all

/-- With one command for a player and tick, two sessions that share a player compete : the
command that comes first is applied. -/
theorem not_arrival_order_shared : ∃ s outs,
    runServer (F := ℚ) { inputRateLimitPerSec := 30, testPlayerIds := some [5, 5] }
      [.acceptSession, .acceptSession] = .ok (s, outs) ∧
    WithinSessionLimit s [(1, ⟨1, 1, [1, 0]⟩), (2, ⟨1, 2, [0, 1]⟩)] ∧
    ¬Machine.ResultRel Indistinguishable (fun _ _ => True)
      ((serverMachine ℚ).run s (receives [(1, ⟨1, 1, [1, 0]⟩), (2, ⟨1, 2, [0, 1]⟩)]))
      ((serverMachine ℚ).run s (receives [(2, ⟨1, 2, [0, 1]⟩), (1, ⟨1, 1, [1, 0]⟩)])) := by
  have h : (runServer (F := ℚ) { inputRateLimitPerSec := 30, testPlayerIds := some [5, 5] }
      [.acceptSession, .acceptSession]).map (fun x => (x.1.inputBuffer.perTickLimit,
        x.1.inputBuffer.buffer.entries.length)) = .ok (1, 0) := by
    decide +kernel
  obtain ⟨⟨s, outs⟩, hs, heq⟩ := map_eq_ok.1 h
  obtain ⟨hlimit, hempty⟩ := Prod.mk.inj heq
  -- What is recorded for the two orders, two steps later.
  have hrun : ∀ batch : List (SessionId × InputCmdProto ℚ), ∀ applied,
      (runServer { inputRateLimitPerSec := 30, testPlayerIds := some [5, 5] }
        [.acceptSession, .acceptSession] >>= fun x =>
          (serverMachine ℚ).run x.1 (receives batch) >>= fun y =>
            ((serverMachine ℚ).run y.1 [.step, .step]).map fun z =>
              z.1.replayRecorder.inputs.map AppliedInput.moveDir) = .ok applied →
      ∃ u uouts v vouts, (serverMachine ℚ).run s (receives batch) = .ok (u, uouts) ∧
        (serverMachine ℚ).run u [.step, .step] = .ok (v, vouts) ∧
        v.replayRecorder.inputs.map AppliedInput.moveDir = applied := by
    intro batch applied h
    obtain ⟨⟨s', outs'⟩, hs', h⟩ := bind_eq_ok.1 h
    obtain ⟨rfl, rfl⟩ : s = s' ∧ outs = outs' := by simpa using hs.symm.trans hs'
    obtain ⟨⟨u, uouts⟩, hu, h⟩ := bind_eq_ok.1 h
    obtain ⟨⟨v, vouts⟩, hv, happlied⟩ := map_eq_ok.1 h
    exact ⟨u, uouts, v, vouts, hu, hv, happlied⟩
  obtain ⟨u, uouts, v, vouts, hu, hv, happlied⟩ := hrun
    [(1, ⟨1, 1, [1, 0]⟩), (2, ⟨1, 2, [0, 1]⟩)] [(0, 0), (0, 0), (1, 0), (1, 0)] (by decide +kernel)
  obtain ⟨u', uouts', v', vouts', hu', hv', happlied'⟩ := hrun
    [(2, ⟨1, 2, [0, 1]⟩), (1, ⟨1, 1, [1, 0]⟩)] [(0, 0), (0, 0), (0, 1), (0, 1)] (by decide +kernel)
  refine ⟨s, outs, hs, fun sid p t _ => ?_, fun hsame => ?_⟩
  · have hnone : s.inputBuffer.buffer.lookup (p, t) = none := by
      rw [AList.lookup_eq_none, AList.mem_keys, AList.keys, List.length_eq_zero_iff.1 hempty]
      exact List.not_mem_nil
    rw [hnone, hlimit]
    refine (Nat.zero_add _).trans_le ?_
    exact length_filter_pair (by decide) sid t
  · rw [hu, hu'] at hsame
    have hsteps := hsame.1 [.step, .step]
    rw [hv, hv'] at hsteps
    rw [hsteps.1, happlied'] at happlied
    exact absurd happlied (by decide)

end Flowstate
