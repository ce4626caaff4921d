import Flowstate.Refinement

/-!
# Players do not influence one another

Two runs of one configuration that differ only in the commands and the leave of one
session look the same to every other one : the same snapshots but for that session's
entity, the same floors, the same verdicts on their own commands, and the same recorded
inputs (`isolation`). In the match this is an unwinding : an operation of the session
touches its lane only, and no other lane reads it.
-/

set_option linter.unusedSectionVars false

open Rust

namespace Flowstate

variable {F : Type} [F64 F]

/-- The commands and the leave of a session. -/
def Op.isBy (a : SessionId) : Op F → Bool
  | .receiveInput sid _ => sid == a
  | .disconnectSession sid => sid == a
  | _ => false

/-- An output without an entity, and without what is computed from all entities : the digest
and the serialized bytes. -/
def Out.hide (e : EntityId) : Out F → Out F
  | .stepped snapshot floor _ =>
    .stepped ⟨snapshot.tick, snapshot.entities.filter fun x => x.entityId != e, 0⟩ floor []
  | out => out

/-- What a run shows of everything but session `a`, whose entity is `e`. -/
def othersView (a : SessionId) (e : EntityId) (ops : List (Op F)) (outs : List (Out F)) :
    List (Op F × Out F) :=
  (Machine.publicPart (Op.isBy a) ops outs).map fun x => (x.1, x.2.hide e)

/-- Two matches that agree on every lane but `a`'s. -/
structure AgreeExcept (a : SessionId) (m n : Match F) : Prop where
  rules : m.rules = n.rules
  tick : m.tick = n.tick
  joined : m.joined = n.joined
  lane : ∀ sid, sid ≠ a → m.lane sid = n.lane sid
  log : m.log.filter (fun x => x.session != a) = n.log.filter (fun x => x.session != a)

namespace AgreeExcept

variable {a : SessionId} {m n : Match F}

theorem symm (h : AgreeExcept a m n) : AgreeExcept a n m :=
  ⟨h.rules.symm, h.tick.symm, h.joined.symm, fun sid hne => (h.lane sid hne).symm, h.log.symm⟩

theorem order_eq (h : AgreeExcept a m n) : m.order = n.order := by
  rw [Match.order, Match.order, h.joined]

/-- A change of the lane of `a` goes unnoticed. -/
theorem setLane_left (h : AgreeExcept a m n) (l : Lane F) : AgreeExcept a (m.setLane a l) n where
  rules := h.rules
  tick := h.tick
  joined := h.joined
  lane := by
    intro sid hne
    rw [Match.lane_setLane, if_neg hne]
    exact h.lane sid hne
  log := h.log

/-- The same change of a lane on both sides keeps the agreement. -/
theorem setLane (h : AgreeExcept a m n) {sid : SessionId} {l l' : Lane F}
    (hl : sid ≠ a → l = l') : AgreeExcept a (m.setLane sid l) (n.setLane sid l') where
  rules := h.rules
  tick := h.tick
  joined := h.joined
  lane := by
    intro sid' hne
    rw [Match.lane_setLane, Match.lane_setLane]
    by_cases heq : sid' = sid
    · rw [if_pos heq, if_pos heq]
      exact hl (heq ▸ hne)
    · rw [if_neg heq, if_neg heq]
      exact h.lane sid' hne
  log := h.log

theorem join (h : AgreeExcept a m n) : AgreeExcept a
    { m.setLane (Match.sessionAt m.joined) (m.lane (Match.sessionAt m.joined)).join with
      joined := m.joined + 1 }
    { n.setLane (Match.sessionAt n.joined) (n.lane (Match.sessionAt n.joined)).join with
      joined := n.joined + 1 } := by
  rw [h.joined]
  have hset : AgreeExcept a
      (m.setLane (Match.sessionAt n.joined) (m.lane (Match.sessionAt n.joined)).join)
      (n.setLane (Match.sessionAt n.joined) (n.lane (Match.sessionAt n.joined)).join) :=
    h.setLane fun hne => congrArg Lane.join (h.lane _ hne)
  exact ⟨hset.rules, hset.tick, rfl, hset.lane, hset.log⟩

/-- Every lane but `a`'s is applied the same. -/
theorem applied_eq (h : AgreeExcept a m n) :
    m.applied.filter (fun x => x.session != a) = n.applied.filter (fun x => x.session != a) := by
  rw [Match.applied, Match.applied, h.order_eq, List.filter_map, List.filter_map]
  refine List.map_congr_left fun sid hmem => ?_
  have hne : sid ≠ a := by simpa using (List.mem_filter.1 hmem).2
  rw [h.lane sid hne, h.tick]

theorem advance (h : AgreeExcept a m n) (next floor : Tick) :
    AgreeExcept a (m.advance next floor) (n.advance next floor) where
  rules := h.rules
  tick := rfl
  joined := h.joined
  lane := by
    intro sid hne
    rw [Match.lane_advance, Match.lane_advance, h.order_eq, h.lane sid hne, h.rules, h.tick]
  log := by
    rw [Match.advance, Match.advance, List.filter_append, List.filter_append, h.log, h.applied_eq]

/-- Every entity but `a`'s is shown the same. -/
theorem entities_eq (h : AgreeExcept a m n) :
    m.entities.filter (fun x => x.entityId != a) =
      n.entities.filter (fun x => x.entityId != a) := by
  rw [Match.entities, Match.entities, h.order_eq, List.filter_map, List.filter_map]
  refine List.map_congr_left fun sid hmem => ?_
  have hne : sid ≠ a := by simpa using (List.mem_filter.1 hmem).2
  rw [h.lane sid hne]

/-- An operation of `a` keeps the agreement on the side that executes it. -/
theorem left (h : AgreeExcept a m n) {op : Op F} {m' : Match F} {o : Out F} (hop : op.isBy a)
    (hexec : m.exec op = .ok (m', o)) : AgreeExcept a m' n := by
  cases Match.steps_of_exec hexec with
  | unknown | drop | absent => exact h
  | buffer | leave =>
    obtain rfl : _ = a := by simpa [Op.isBy] using hop
    exact h.setLane_left _
  | join | welcome | tick => simp [Op.isBy] at hop

/-- Any other operation keeps the agreement, and shows the others the same. -/
theorem both (h : AgreeExcept a m n) {op : Op F} {m' n' : Match F} {o o' : Out F}
    (hop : op.isBy a = false) (hm : m.exec op = .ok (m', o)) (hn : n.exec op = .ok (n', o')) :
    AgreeExcept a m' n' ∧ o.hide a = o'.hide a := by
  cases op with
  | acceptSession =>
    cases Match.steps_of_exec hm
    cases Match.steps_of_exec hn
    exact ⟨h.join, by rw [h.joined]⟩
  | welcomeFor sid =>
    cases Match.steps_of_exec hm with
    | welcome _ hfloor =>
      cases Match.steps_of_exec hn with
      | welcome _ hfloor' =>
        rw [h.tick, h.rules, ← hfloor', UInt64.toNat_inj] at hfloor
        rw [hfloor, h.rules]
        exact ⟨h.setLane fun hne => by rw [h.lane sid hne], rfl⟩
  | receiveInput sid input =>
    have hne : sid ≠ a := by simpa [Op.isBy] using hop
    rw [Match.exec, h.lane sid hne, h.rules, h.tick] at hm
    rw [Match.exec] at hn
    by_cases hlive : (n.lane sid).live
    · rw [if_pos hlive] at hm hn
      rcases hreceive : (n.lane sid).receive n.rules n.tick input with e | ⟨l, result⟩
      · simp [hreceive, bind, Except.bind] at hn
      · simp only [hreceive, bind, Except.bind, pure, Except.pure, Except.ok.injEq,
          Prod.mk.injEq] at hm hn
        obtain ⟨rfl, rfl⟩ := hm
        obtain ⟨rfl, rfl⟩ := hn
        exact ⟨h.setLane fun _ => rfl, rfl⟩
    · rw [if_neg hlive] at hm hn
      obtain ⟨rfl, rfl⟩ := Prod.mk.inj (Except.ok.inj hm)
      obtain ⟨rfl, rfl⟩ := Prod.mk.inj (Except.ok.inj hn)
      exact ⟨h, rfl⟩
  | disconnectSession sid =>
    have hne : sid ≠ a := by simpa [Op.isBy] using hop
    rw [Match.exec, h.lane sid hne] at hm
    rw [Match.exec] at hn
    obtain ⟨rfl, rfl⟩ := Prod.mk.inj (Except.ok.inj hm)
    obtain ⟨rfl, rfl⟩ := Prod.mk.inj (Except.ok.inj hn)
    split_ifs
    · exact ⟨h.setLane fun _ => rfl, rfl⟩
    · exact ⟨h, rfl⟩
  | step =>
    cases Match.steps_of_exec hm with
    | tick hnext hfloor =>
      cases Match.steps_of_exec hn with
      | tick hnext' hfloor' =>
        rw [h.tick, ← hnext', UInt64.toNat_inj] at hnext
        rw [hnext, h.rules, ← hfloor', UInt64.toNat_inj] at hfloor
        rw [hnext, hfloor]
        refine ⟨h.advance _ _, ?_⟩
        rw [Out.hide, Out.hide, Match.snapshot, Match.snapshot, (h.advance _ _).entities_eq]
        rfl

end AgreeExcept

/-- Two match runs that differ in operations of `a` only agree on all the others see. -/
theorem agreeExcept_of_run {rules : Rules F} {a : SessionId} {ops ops' : List (Op F)}
    {m n : Match F} {outs outs' : List (Out F)}
    (hops : ops.filter (fun op => !op.isBy a) = ops'.filter (fun op => !op.isBy a))
    (hm : (matchMachine F).run (Match.new rules) ops = .ok (m, outs))
    (hn : (matchMachine F).run (Match.new rules) ops' = .ok (n, outs')) :
    AgreeExcept a m n ∧ othersView a a ops outs = othersView a a ops' outs' := by
  obtain ⟨hagree, hviews⟩ := Machine.run_unwind (R := AgreeExcept a)
    (Q := fun _ o o' => o.hide a = o'.hide a)
    (fun _ _ _ _ _ h hop hexec => h.left hop hexec)
    (fun _ _ _ _ _ h hop hexec => (h.symm.left hop hexec).symm)
    (fun _ _ _ _ _ _ _ h hop hs ht => h.both hop hs ht)
    hops ⟨rfl, rfl, rfl, fun _ _ => rfl, rfl⟩ hm hn
  refine ⟨hagree, ?_⟩
  rw [othersView, othersView, ← List.forall₂_eq_eq_eq, List.forall₂_map_left_iff,
    List.forall₂_map_right_iff]
  exact hviews.imp fun x y hxy => Prod.ext hxy.1 hxy.2

/-- If the first run ends before the second has performed all the others do, it agrees with
what the second has come to by then. -/
theorem agreeExcept_of_run_prefix {rules : Rules F} {a : SessionId} {ops ops' : List (Op F)}
    {m n : Match F} {outs outs' : List (Out F)}
    (hops : ops.filter (fun op => !op.isBy a) <+: ops'.filter fun op => !op.isBy a)
    (hm : (matchMachine F).run (Match.new rules) ops = .ok (m, outs))
    (hn : (matchMachine F).run (Match.new rules) ops' = .ok (n, outs')) :
    ∃ n₀ : Match F, n₀.order ⊆ n.order ∧ n₀.log <+: n.log ∧ AgreeExcept a m n₀ ∧
      othersView a a ops outs <+: othersView a a ops' outs' := by
  obtain ⟨n₀, before, after, os, os', rfl, -, hafter, hagree, hviews, hprefix⟩ :=
    Machine.run_unwind_prefix (R := AgreeExcept a) (Q := fun _ o o' => o.hide a = o'.hide a)
      (fun _ _ _ _ _ h hop hexec => h.left hop hexec)
      (fun _ _ _ _ _ h hop hexec => (h.symm.left hop hexec).symm)
      (fun _ _ _ _ _ _ _ h hop hs ht => h.both hop hs ht)
      hops ⟨rfl, rfl, rfl, fun _ _ => rfl, rfl⟩ hm hn
  obtain ⟨horder, hlog⟩ := Match.grows_of_run hafter
  refine ⟨n₀, horder, hlog, hagree, ?_⟩
  have hview : othersView a a ops outs = othersView a a before os := by
    rw [othersView, othersView, ← List.forall₂_eq_eq_eq, List.forall₂_map_left_iff,
      List.forall₂_map_right_iff]
    exact hviews.imp fun x y hxy => Prod.ext hxy.1 hxy.2
  rw [hview]
  exact hprefix.map _

theorem Out.hide_named (config : ServerConfig) (e : EntityId) (o : Out F) :
    (o.named config).hide e = (o.hide e).named config := by
  cases o <;> rfl

theorem othersView_named (config : ServerConfig) (a : SessionId) (e : EntityId)
    (ops : List (Op F)) (outs : List (Out F)) :
    othersView a e ops (outs.map (Out.named config)) =
      (othersView a e ops outs).map fun x => (x.1, x.2.named config) := by
  rw [othersView, othersView, Machine.publicPart_map, List.map_map, List.map_map]
  exact List.map_congr_left fun x _ => congrArg (Prod.mk x.1) (Out.hide_named config e x.2)

/-- Players do not influence one another. Take two runs with distinct players that differ
only in the commands and the leave of session `a`, whose player is `p` and whose entity is
`e`. As far as both go, and one may end early by a panic, the others see the same snapshots
but for `e`, the same floors and verdicts, and the recorded inputs of every player but `p`
are the same. -/
theorem isolation {config : ServerConfig} {a : SessionId} {p : PlayerId} {e : EntityId}
    {ops ops' : List (Op F)} {s t : Server F} {outs outs' : List (Out F)}
    (hops : ops.filter (fun op => !op.isBy a) <+: ops'.filter fun op => !op.isBy a)
    (hs : runServer config ops = .ok (s, outs)) (ht : runServer config ops' = .ok (t, outs'))
    (hs' : s.entitySpawnOrder.Nodup) (ht' : t.entitySpawnOrder.Nodup)
    (ha : .accepted a p e ∈ outs') :
    (ops.filter (fun op => !op.isBy a) = ops'.filter (fun op => !op.isBy a) →
      othersView a e ops outs = othersView a e ops' outs' ∧
        s.replayRecorder.inputs.filter (fun x => x.playerId != p) =
          t.replayRecorder.inputs.filter fun x => x.playerId != p) ∧
    othersView a e ops outs <+: othersView a e ops' outs' ∧
      s.replayRecorder.inputs.filter (fun x => x.playerId != p) <+:
        t.replayRecorder.inputs.filter fun x => x.playerId != p := by
  obtain ⟨m, mouts, hm, rfl, hsm, hsc⟩ := runServer_refines hs hs'
  obtain ⟨n, nouts, hn, rfl, htn, htc⟩ := runServer_refines ht ht'
  obtain ⟨o, ho, hoa⟩ := List.mem_map.1 ha
  cases o with
  | accepted sid q e' =>
    obtain ⟨rfl, rfl, rfl⟩ := Out.accepted.inj hoa
    obtain ⟨rfl, horder⟩ := Match.accepted_of_run hn ho
    have htp := htn.filter_inputs horder not
    rw [htc] at htp
    constructor
    · intro heq
      obtain ⟨hagree, hview⟩ := agreeExcept_of_run heq hm hn
      refine ⟨by rw [othersView_named, othersView_named, hview], ?_⟩
      have hsp := hsm.filter_inputs (hagree.order_eq ▸ horder) not
      rw [hsc] at hsp
      exact hsp.trans ((congrArg _ hagree.log).trans htp.symm)
    · obtain ⟨n₀, hsub, hlog, hagree, hview⟩ := agreeExcept_of_run_prefix hops hm hn
      refine ⟨by rw [othersView_named, othersView_named]; exact hview.map _, ?_⟩
      have hsp := hsm.filter_inputs_of htn (hsc.trans htc.symm) (hagree.order_eq ▸ hsub) horder not
      rw [hsc] at hsp
      have hcut := (hlog.filter fun x => x.session != e').map (Applied.toAppliedInput config)
      rw [← hagree.log] at hcut
      exact hsp.symm ▸ htp.symm ▸ hcut
  | welcomed | verdict | disconnected | stepped => cases hoa

/-- A flood in a run that stops early, and a leave in one that goes on. -/
theorem isolation_of_flood_and_leave : ∃ s t outs outs',
    runServer (F := ℚ) {} [.acceptSession, .acceptSession, .receiveInput 1 ⟨1, 1, [1, 0]⟩,
      .receiveInput 1 ⟨1, 1, [0, 1]⟩, .receiveInput 2 ⟨1, 1, [1, 0]⟩, .step, .step] =
        .ok (s, outs) ∧
    runServer (F := ℚ) {} [.acceptSession, .acceptSession, .disconnectSession 1,
      .receiveInput 2 ⟨1, 1, [1, 0]⟩, .step, .step, .receiveInput 2 ⟨3, 2, [0, 1]⟩, .step] =
        .ok (t, outs') ∧
    s.replayRecorder.inputs.filter (fun x => x.playerId != 0) <+:
      t.replayRecorder.inputs.filter (fun x => x.playerId != 0) ∧
    (s.replayRecorder.inputs.filter fun x => x.playerId != 0).map AppliedInput.moveDir =
      [(0, 0), (1, 0)] := by
  have h : (runServer (F := ℚ) {} [.acceptSession, .acceptSession,
      .receiveInput 1 ⟨1, 1, [1, 0]⟩, .receiveInput 1 ⟨1, 1, [0, 1]⟩,
      .receiveInput 2 ⟨1, 1, [1, 0]⟩, .step, .step]).map (fun x => (x.1.entitySpawnOrder,
        (x.1.replayRecorder.inputs.filter fun a => a.playerId != 0).map AppliedInput.moveDir)) =
      .ok ([0, 1], [(0, 0), (1, 0)]) := by
    decide +kernel
  have h' : (runServer (F := ℚ) {} [.acceptSession, .acceptSession, .disconnectSession 1,
      .receiveInput 2 ⟨1, 1, [1, 0]⟩, .step, .step, .receiveInput 2 ⟨3, 2, [0, 1]⟩, .step]).map
        (fun x => (x.1.entitySpawnOrder, x.2.head?)) = .ok ([0, 1], some (.accepted 1 0 1)) := by
    decide +kernel
  obtain ⟨⟨s, outs⟩, hs, heq⟩ := map_eq_ok.1 h
  obtain ⟨⟨t, outs'⟩, ht, heq'⟩ := map_eq_ok.1 h'
  obtain ⟨hplayers, happlied⟩ := Prod.mk.inj heq
  obtain ⟨hplayers', hhead⟩ := Prod.mk.inj heq'
  refine ⟨s, t, outs, outs', hs, ht,
    (isolation (a := 1) (p := 0) (e := 1) ?_ hs ht ?_ ?_ ?_).2.2, happlied⟩
  · decide
  · exact hplayers ▸ by decide
  · exact hplayers' ▸ by decide
  · exact List.mem_of_mem_head? hhead

end Flowstate
