import Flowstate.Lockstep
import Flowstate.Soundness

/-!
# What a session is sent

A session is sent a welcome, a baseline, and from then on the snapshot of every step. The
welcome computes its floor from the tick before the next step, a step computes it from the
tick after, and both give the world's tick plus the lead in the state they leave behind. Each
list of entities is that of the world, which only ever gains characters at its end. So
what a session is sent is coherent (`coherent`), whoever joins or leaves in between.
-/

set_option linter.unusedSectionVars false

open Rust

namespace Flowstate

variable {F : Type} [F64 F]

/-- Every accept is followed by the welcome of its session. -/
def Greeted (h : List (Op F × Out F)) : Prop :=
  ∀ before after sid p e, h = before ++ (.acceptSession, .accepted sid p e) :: after →
    ∃ welcome after', after = (.welcomeFor sid, .welcomed welcome) :: after'

/-- The snapshot a step returns, with its floor and its bytes. -/
def Out.snapshot : Out F → Option (Snapshot F × Tick × Protobuf.Bytes)
  | .stepped snapshot floor bytes => some (snapshot, floor, bytes)
  | _ => none

/-- The snapshots among `outs`, in order. -/
def snapshots (outs : List (Out F)) : List (Snapshot F × Tick × Protobuf.Bytes) :=
  outs.filterMap Out.snapshot

/-- The entity ids of the baseline sent in state `u` and of the snapshots after it. -/
def entityLists (u : Server F) (outs : List (Out F)) : List (List EntityId) :=
  u.baselineProto.entities.map EntitySnapshotProto.entityId ::
    (snapshots outs).map fun x => x.1.entities.map EntitySnapshot.entityId

/-- What a session that controls `e` is sent : its welcome and its baseline, both made in
state `u`, and the snapshots that the operations `ops` after it return. -/
structure Sent (u : Server F) (e : EntityId) (welcome : ServerWelcome) (ops : List (Op F))
    (outs : List (Out F)) : Prop where
  welcome_floor : welcome.targetTickFloor.toNat =
    u.baselineProto.tick.toNat + u.config.inputLeadTicks.toNat
  controlled : welcome.controlledEntityId = e
  /-- The `k`-th snapshot after the join. -/
  snapshot : ∀ k snapshot floor bytes, (snapshots outs)[k]? = some (snapshot, floor, bytes) →
    snapshot.tick.toNat = u.baselineProto.tick.toNat + (k + 1) ∧
      floor.toNat = snapshot.tick.toNat + u.config.inputLeadTicks.toNat ∧
      bytes = (⟨snapshot.tick, snapshot.entities.map EntitySnapshot.toProto, snapshot.digest,
        floor⟩ : SnapshotProto F).encode
  floors : (welcome.targetTickFloor :: (snapshots outs).map fun x => x.2.1).Pairwise (· < ·)
  ascending : ∀ l ∈ entityLists u outs, l.Pairwise (· < ·)
  includes : ∀ l ∈ entityLists u outs, e ∈ l
  grows : (entityLists u outs).Pairwise (· ⊆ ·)
  baseline_digest : u.baselineProto.entities = u.world.sortedEntitySnapshots.map
    EntitySnapshot.toProto ∧ u.baselineProto.digest = u.world.stateDigest
  /-- A snapshot shows the world of the state its step leads to. -/
  snapshot_digest : ∀ k x, (snapshots outs)[k]? = some x → ∃ before after v os,
    ops = before ++ .step :: after ∧ steps before = k ∧
      (serverMachine F).run u (before ++ [.step]) = .ok (v, os) ∧
      x.1.tick = v.world.tick ∧ x.1.entities = v.world.sortedEntitySnapshots ∧
      x.1.digest = v.world.stateDigest

/-- What every session of a run is sent, and told last. -/
structure Coherent (config : ServerConfig) (ops : List (Op F)) (outs : List (Out F))
    (s : Server F) : Prop where
  floors : ∀ sid ∈ s.sessions, ∃ floor, s.lastEmittedFloor.lookup sid = some floor ∧
    floor.toNat = s.world.tick.toNat + config.inputLeadTicks.toNat
  sent : ∀ before after sid p e welcome u os os',
    ops = before ++ .acceptSession :: .welcomeFor sid :: after →
    outs = os ++ .accepted sid p e :: .welcomed welcome :: os' →
    runServer config (before ++ [.acceptSession, .welcomeFor sid]) =
      .ok (u, os ++ [.accepted sid p e, .welcomed welcome]) → Sent u e welcome after os'
  /-- Whoever it was sent to, an earlier message has no entity that a later one has not. -/
  grows : ∀ before mid after u v os os', ops = before ++ (mid ++ after) →
    runServer config before = .ok (u, os) → (serverMachine F).run u mid = .ok (v, os') →
      u.world.sortedEntitySnapshots.map EntitySnapshot.entityId ⊆
        v.world.sortedEntitySnapshots.map EntitySnapshot.entityId

/-! ## Entities -/

/-- The entity ids of the world, in the order it lists them. -/
def World.entityIds (w : World F) : List EntityId :=
  w.sortedEntitySnapshots.map EntitySnapshot.entityId

theorem entityIds_eq (w : World F) : w.entityIds = w.characters.map Character.entityId := by
  rw [World.entityIds, World.sortedEntitySnapshots, List.map_map]
  rfl

theorem Ordered.of_ids_eq {w w' : World F} (h : Ordered w) (hids : w'.ids = w.ids)
    (hnext : w'.nextEntityId = w.nextEntityId) : Ordered w' := by
  have hentities := (nodup_of_ids_eq hids).1
  refine ⟨?_, fun c hc => ?_⟩
  · have hpairwise := h.pairwise
    rw [← List.pairwise_map (f := Character.entityId) (R := fun a b => a.toNat < b.toNat)]
      at hpairwise ⊢
    rwa [hentities]
  · obtain ⟨d, hd, heq⟩ := List.mem_map.1 (hentities ▸ List.mem_map_of_mem hc)
    rw [hnext, ← heq]
    exact h.lt_next d hd

/-- The world stays ordered, and gains entities at its end only. -/
theorem Ordered.exec {s s' : Server F} (h : Ordered s.world) {op : Op F} {o : Out F}
    (hexec : s.exec op = .ok (s', o)) :
    Ordered s'.world ∧ s.world.entityIds <+: s'.world.entityIds := by
  by_cases haccept : op = .acceptSession
  · subst haccept
    obtain ⟨sid, p, e, hs, rfl⟩ := Server.exec_acceptSession.1 hexec
    obtain ⟨-, -, -, nextSid, nextPid, world, -, -, hspawn, rfl⟩ := Server.acceptSession_eq_ok.1 hs
    obtain ⟨hordered, -, hcharacters⟩ := h.spawn hspawn
    refine ⟨hordered, ?_⟩
    rw [entityIds_eq, entityIds_eq, hcharacters, List.map_append]
    exact List.prefix_append _ _
  · by_cases hstep : op = .step
    · subst hstep
      obtain ⟨snapshot, floor, bytes, hs, rfl⟩ := Server.exec_step.1 hexec
      obtain ⟨next, hnext, -, rfl, -, -⟩ := Server.step_eq_ok.1 hs
      have hids : (s.steppedWorld next).ids = s.world.ids := ids_foldl_applyMovement s.stepInputs _
      refine ⟨h.of_ids_eq hids rfl, ?_⟩
      rw [entityIds_eq, entityIds_eq, Server.stepped_world, (nodup_of_ids_eq hids).1]
    · obtain ⟨_, _, _, _, _, _, rfl⟩ := Server.exec_quiet hexec haccept hstep
      exact ⟨h, List.prefix_rfl⟩

theorem entityIds_of_run : ∀ {ops : List (Op F)} {s t : Server F} {outs : List (Out F)},
    Ordered s.world → (serverMachine F).run s ops = .ok (t, outs) →
      Ordered t.world ∧ s.world.entityIds <+: t.world.entityIds
  | [], s, t, outs, h, hrun => by
    obtain ⟨rfl, -⟩ : s = t ∧ [] = outs := by simpa using hrun
    exact ⟨h, List.prefix_rfl⟩
  | op :: ops, s, t, outs, h, hrun => by
    obtain ⟨s', o, os, hexec, hrest, -⟩ := Machine.run_cons_eq_ok.1 hrun
    obtain ⟨h', hpre⟩ := h.exec hexec
    obtain ⟨ht, hpre'⟩ := entityIds_of_run h' hrest
    exact ⟨ht, hpre.trans hpre'⟩

theorem ordered_of_runServer {config : ServerConfig} {ops : List (Op F)} {s : Server F}
    {outs : List (Out F)} (hrun : runServer config ops = .ok (s, outs)) : Ordered s.world := by
  obtain ⟨s₀, hnew, hrun⟩ := bind_eq_ok.1 hrun
  obtain ⟨-, rfl⟩ := Server.new_eq_ok.1 hnew
  exact (entityIds_of_run ⟨List.Pairwise.nil, fun c hc => absurd hc List.not_mem_nil⟩ hrun).1

theorem Ordered.pairwise_entityIds {w : World F} (h : Ordered w) :
    w.entityIds.Pairwise (· < ·) := by
  rw [entityIds_eq, List.pairwise_map]
  exact h.pairwise.imp UInt64.lt_iff_toNat_lt.2

/-! ## Floors -/

/-- The last floor of every live session is the tick plus the lead. -/
def UpToDate (s : Server F) : Prop :=
  ∀ sid ∈ s.sessions, ∃ floor, s.lastEmittedFloor.lookup sid = some floor ∧
    floor.toNat = s.world.tick.toNat + s.config.inputLeadTicks.toNat

/-- An operation other than an accept keeps the floors up to date. -/
theorem UpToDate.exec {s s' : Server F} (h : UpToDate s) {op : Op F} {o : Out F}
    (hop : op ≠ .acceptSession) (hexec : s.exec op = .ok (s', o)) : UpToDate s' := by
  cases op with
  | acceptSession => exact absurd rfl hop
  | welcomeFor sid =>
    obtain ⟨welcome, hs, rfl⟩ := Server.exec_welcomeFor.1 hexec
    obtain ⟨session, -, floor, hfloor, rfl, -⟩ := Server.welcomeFor_eq_ok.1 hs
    intro sid' hmem
    rw [HashMap.lookup_insert]
    split_ifs
    · exact ⟨floor, rfl, hfloor⟩
    · exact h sid' hmem
  | receiveInput sid input =>
    obtain ⟨result, hs, rfl⟩ := Server.exec_receiveInput.1 hexec
    rcases Server.receiveInput_cases hs with rfl | ⟨p, -, -, rfl, -⟩ <;> exact h
  | disconnectSession sid =>
    obtain ⟨rfl, rfl⟩ := Server.exec_disconnectSession.1 hexec
    unfold Server.disconnectSession
    rcases s.sessions.lookup sid with _ | session
    · exact h
    · intro sid' hmem
      obtain ⟨hne, hmem⟩ := AList.mem_erase.1 hmem
      rw [HashMap.lookup_erase, if_neg hne]
      exact h sid' hmem
  | step =>
    obtain ⟨snapshot, floor, bytes, hs, rfl⟩ := Server.exec_step.1 hexec
    obtain ⟨next, -, hfloor, rfl, -, -⟩ := Server.step_eq_ok.1 hs
    intro sid hmem
    have hkey : sid ∈ s.sessions.keys := hmem
    refine ⟨floor, ?_, hfloor⟩
    change (s.lastEmittedFloor.insertAll s.sessions.keys floor).lookup sid = _
    rw [HashMap.lookup_insertAll, if_pos hkey]

/-- An accept with its welcome does, too. -/
theorem UpToDate.join {s s' s'' : Server F} (h : UpToDate s) {sid : SessionId} {p : PlayerId}
    {e : EntityId} {welcome : ServerWelcome}
    (haccept : s.exec .acceptSession = .ok (s', .accepted sid p e))
    (hwelcome : s'.exec (.welcomeFor sid) = .ok (s'', .welcomed welcome)) : UpToDate s'' := by
  obtain ⟨_, _, _, hs, heq⟩ := Server.exec_acceptSession.1 haccept
  obtain ⟨rfl, rfl, rfl⟩ := Out.accepted.inj heq
  obtain ⟨-, -, -, nextSid, nextPid, world, -, -, hspawn, rfl⟩ := Server.acceptSession_eq_ok.1 hs
  obtain ⟨rfl, next, -, rfl⟩ := World.spawnCharacter_eq_ok.1 hspawn
  obtain ⟨_, hs', heq⟩ := Server.exec_welcomeFor.1 hwelcome
  obtain ⟨session, -, floor, hfloor, rfl, -⟩ := Server.welcomeFor_eq_ok.1 hs'
  intro sid' hmem
  rw [HashMap.lookup_insert]
  split_ifs with hsid
  · exact ⟨floor, rfl, hfloor⟩
  · exact h sid' ((AList.mem_insert _).1 hmem |>.resolve_left hsid)

theorem Greeted.nil : Greeted ([] : List (Op F × Out F)) := fun before _ _ _ _ hsplit =>
  absurd hsplit.symm (List.append_ne_nil_of_right_ne_nil before (List.cons_ne_nil _ _))

/-- Operations that accept nobody need no welcome. -/
theorem Greeted.of_forall_ne {h : List (Op F × Out F)} (hh : ∀ x ∈ h, x.1 ≠ .acceptSession) :
    Greeted h := by
  rintro before after sid p e rfl
  exact absurd rfl (hh (.acceptSession, .accepted sid p e) (by simp))

theorem Greeted.singleton {op : Op F} {out : Out F} (hop : op ≠ .acceptSession) :
    Greeted [(op, out)] :=
  .of_forall_ne fun _ hx => List.mem_singleton.1 hx ▸ hop

/-- A session is welcomed at once. -/
theorem Greeted.welcomed (sid : SessionId) (p : PlayerId) (e : EntityId) (welcome : ServerWelcome) :
    Greeted ([(.acceptSession, .accepted sid p e), (.welcomeFor sid, .welcomed welcome)] :
      List (Op F × Out F)) := by
  rintro (_ | ⟨x, before⟩) after sid' p' e' heq
  · obtain ⟨hx, rfl⟩ := List.cons.inj heq
    obtain ⟨rfl, -, -⟩ := Out.accepted.inj (Prod.mk.inj hx).2
    exact ⟨_, _, rfl⟩
  · exact Greeted.singleton (fun h => by cases h) before after sid' p' e' (List.cons.inj heq).2

theorem Greeted.append {h h' : List (Op F × Out F)} (hh : Greeted h) (hh' : Greeted h') :
    Greeted (h ++ h') := by
  intro before after sid p e hsplit
  rcases List.append_eq_append_iff.1 hsplit with ⟨mid, rfl, rfl⟩ | ⟨mid, rfl, hmid⟩
  · exact hh' mid after sid p e rfl
  · rcases mid with _ | ⟨x, mid⟩
    · exact hh' [] after sid p e hmid.symm
    · obtain ⟨rfl, rfl⟩ := List.cons.inj hmid
      obtain ⟨welcome, after', rfl⟩ := hh before mid sid p e rfl
      exact ⟨welcome, after' ++ h', rfl⟩

theorem Greeted.tail {x : Op F × Out F} {h : List (Op F × Out F)} (hgreeted : Greeted (x :: h)) :
    Greeted h :=
  fun before after sid p e hsplit =>
    hgreeted (x :: before) after sid p e (by rw [hsplit, List.cons_append])

theorem UpToDate.run : ∀ {ops : List (Op F)} {s t : Server F} {outs : List (Out F)}, UpToDate s →
    (serverMachine F).run s ops = .ok (t, outs) → Greeted (ops.zip outs) → UpToDate t
  | [], s, t, outs, h, hrun, _ => by
    obtain ⟨rfl, -⟩ : s = t ∧ [] = outs := by simpa using hrun
    exact h
  | [op], s, t, outs, h, hrun, hgreeted => by
    obtain ⟨s', o, os, hexec, hrest, rfl⟩ := Machine.run_cons_eq_ok.1 hrun
    obtain ⟨rfl, rfl⟩ : s' = t ∧ [] = os := by simpa using hrest
    refine h.exec (fun haccept => ?_) hexec
    subst haccept
    obtain ⟨sid, p, e, -, rfl⟩ := Server.exec_acceptSession.1 hexec
    obtain ⟨_, _, hnil⟩ := hgreeted [] [] sid p e rfl
    cases hnil
  | op :: op' :: ops, s, t, outs, h, hrun, hgreeted => by
    obtain ⟨s', o, os, hexec, hrest, rfl⟩ := Machine.run_cons_eq_ok.1 hrun
    by_cases haccept : op = .acceptSession
    · -- The next operation is the welcome.
      subst haccept
      obtain ⟨s'', o', os', hexec', hrest', rfl⟩ := Machine.run_cons_eq_ok.1 hrest
      obtain ⟨sid, p, e, -, rfl⟩ := Server.exec_acceptSession.1 hexec
      obtain ⟨welcome, rest, hzip⟩ := hgreeted [] ((op' :: ops).zip (o' :: os')) sid p e rfl
      obtain ⟨rfl, rfl⟩ := Prod.mk.inj (List.cons.inj hzip).1
      exact (h.join hexec hexec').run hrest' hgreeted.tail.tail
    · exact (h.exec haccept hexec).run hrest hgreeted.tail

/-! ## Snapshots -/

theorem snapshots_cons (o : Out F) (outs : List (Out F)) :
    snapshots (o :: outs) = o.snapshot.toList ++ snapshots outs := by
  rw [snapshots, List.filterMap_cons]
  rcases o.snapshot with _ | x <;> rfl

theorem snapshot_of_exec {s s' : Server F} {op : Op F} {o : Out F}
    (h : s.exec op = .ok (s', o)) (hop : op ≠ .step) : o.snapshot = none := by
  cases op with
  | acceptSession =>
    obtain ⟨sid, p, e, -, rfl⟩ := Server.exec_acceptSession.1 h
    rfl
  | welcomeFor sid =>
    obtain ⟨welcome, -, rfl⟩ := Server.exec_welcomeFor.1 h
    rfl
  | receiveInput sid input =>
    obtain ⟨result, -, rfl⟩ := Server.exec_receiveInput.1 h
    rfl
  | disconnectSession sid =>
    obtain ⟨-, rfl⟩ := Server.exec_disconnectSession.1 h
    rfl
  | step => exact absurd rfl hop

/-- The `k`-th snapshot of a run is that of the step after `k` others. -/
theorem exists_step_of_snapshot : ∀ {ops : List (Op F)} {s t : Server F} {outs : List (Out F)}
    {k : ℕ} {x : Snapshot F × Tick × Protobuf.Bytes},
    (serverMachine F).run s ops = .ok (t, outs) → (snapshots outs)[k]? = some x →
      ∃ before after u v os, ops = before ++ .step :: after ∧ steps before = k ∧
        (serverMachine F).run s before = .ok (u, os) ∧ u.step = .ok (v, x)
  | [], s, t, outs, k, x, hrun, hk => by
    obtain ⟨-, rfl⟩ : s = t ∧ [] = outs := by simpa using hrun
    cases hk
  | op :: ops, s, t, outs, k, x, hrun, hk => by
    obtain ⟨s', o, os, hexec, hrest, rfl⟩ := Machine.run_cons_eq_ok.1 hrun
    rw [snapshots_cons] at hk
    have hlater : ∀ {j}, (snapshots os)[j]? = some x → ∃ before after u v us,
        op :: ops = before ++ .step :: after ∧ steps before = steps [op] + j ∧
          (serverMachine F).run s before = .ok (u, us) ∧ u.step = .ok (v, x) := by
      intro j hj
      obtain ⟨before, after, u, v, us, rfl, rfl, hbefore, hstep⟩ :=
        exists_step_of_snapshot hrest hj
      exact ⟨op :: before, after, u, v, o :: us, rfl, steps_cons op before,
        Machine.run_cons_eq_ok.2 ⟨s', o, us, hexec, hbefore, rfl⟩, hstep⟩
    by_cases hop : op = .step
    · subst hop
      obtain ⟨snapshot, floor, bytes, hs, rfl⟩ := Server.exec_step.1 hexec
      rcases k with _ | k
      · obtain rfl : (snapshot, floor, bytes) = x := by simpa [Out.snapshot] using hk
        exact ⟨[], ops, s, s', [], rfl, rfl, rfl, hs⟩
      · have hsteps : steps [(.step : Op F)] + k = k + 1 := Nat.add_comm 1 k
        rw [← hsteps]
        exact hlater (by simpa [Out.snapshot] using hk)
    · rw [snapshot_of_exec hexec hop] at hk
      have hsteps : steps [op] + k = k := by rw [steps_of_ne hop, Nat.zero_add]
      rw [← hsteps]
      exact hlater (by simpa using hk)

/-- The snapshots of a run list the entities there were before it, and each those of the
earlier ones. -/
theorem entities_of_run : ∀ {ops : List (Op F)} {s t : Server F} {outs : List (Out F)},
    Ordered s.world → (serverMachine F).run s ops = .ok (t, outs) →
      let lists := (snapshots outs).map fun x => x.1.entities.map EntitySnapshot.entityId
      (∀ l ∈ lists, l.Pairwise (· < ·) ∧ s.world.entityIds <+: l) ∧ lists.Pairwise (· <+: ·)
  | [], s, t, outs, h, hrun => by
    obtain ⟨-, rfl⟩ : s = t ∧ [] = outs := by simpa using hrun
    exact ⟨fun l hl => absurd hl List.not_mem_nil, List.Pairwise.nil⟩
  | op :: ops, s, t, outs, h, hrun => by
    obtain ⟨s', o, os, hexec, hrest, rfl⟩ := Machine.run_cons_eq_ok.1 hrun
    obtain ⟨h', hpre⟩ := h.exec hexec
    obtain ⟨hlists, hpairwise⟩ := entities_of_run h' hrest
    have hlater : ∀ l ∈ (snapshots os).map fun x => x.1.entities.map EntitySnapshot.entityId,
        l.Pairwise (· < ·) ∧ s.world.entityIds <+: l := fun l hl =>
      ⟨(hlists l hl).1, hpre.trans (hlists l hl).2⟩
    by_cases hop : op = .step
    · subst hop
      obtain ⟨snapshot, floor, bytes, hs, rfl⟩ := Server.exec_step.1 hexec
      obtain ⟨next, -, -, rfl, rfl, -⟩ := Server.step_eq_ok.1 hs
      rw [snapshots_cons]
      exact ⟨List.forall_mem_cons.2 ⟨⟨h'.pairwise_entityIds, hpre⟩, hlater⟩,
        List.pairwise_cons.2 ⟨fun l hl => (hlists l hl).2, hpairwise⟩⟩
    · rw [snapshots_cons, snapshot_of_exec hexec hop]
      exact ⟨hlater, hpairwise⟩

/-! ## All that is sent -/

/-- The `k`-th snapshot of a run is that of the tick `k + 1` later, with its floor. -/
theorem snapshot_of_run {u t : Server F} {ops : List (Op F)} {outs : List (Out F)}
    (hrun : (serverMachine F).run u ops = .ok (t, outs)) {k : ℕ} {snapshot : Snapshot F}
    {floor : Tick} {bytes : Protobuf.Bytes}
    (hk : (snapshots outs)[k]? = some (snapshot, floor, bytes)) :
    snapshot.tick.toNat = u.world.tick.toNat + (k + 1) ∧
      floor.toNat = snapshot.tick.toNat + u.config.inputLeadTicks.toNat ∧
      bytes = (⟨snapshot.tick, snapshot.entities.map EntitySnapshot.toProto, snapshot.digest,
        floor⟩ : SnapshotProto F).encode := by
  obtain ⟨before, after, s, v, os, -, hsteps, hbefore, hs⟩ := exists_step_of_snapshot hrun hk
  obtain ⟨next, hnext, hfloor, -, rfl, rfl⟩ := Server.step_eq_ok.1 hs
  have htick := (tick_of_run hbefore).1
  rw [config_of_run hbefore] at hfloor
  refine ⟨?_, hfloor, rfl⟩
  change next.toNat = _
  omega

/-- The floors a session is told : that of the welcome, and one more with every snapshot. -/
theorem floors_of_run {u t : Server F} {welcomeFloor : Tick} {ops : List (Op F)}
    {outs : List (Out F)}
    (hfloor : welcomeFloor.toNat = u.world.tick.toNat + u.config.inputLeadTicks.toNat)
    (hrun : (serverMachine F).run u ops = .ok (t, outs)) :
    (welcomeFloor :: (snapshots outs).map fun x => x.2.1).Pairwise (· < ·) := by
  have htimes : ∀ k floor, (welcomeFloor :: (snapshots outs).map fun x => x.2.1)[k]? =
      some floor → floor.toNat = u.world.tick.toNat + k + u.config.inputLeadTicks.toNat := by
    rintro (_ | k) floor hk
    · obtain rfl : welcomeFloor = floor := by simpa using hk
      exact hfloor
    · rw [List.getElem?_cons_succ, List.getElem?_map] at hk
      obtain ⟨⟨snapshot, floor, bytes⟩, hx, rfl⟩ := Option.map_eq_some_iff.1 hk
      obtain ⟨htick, hfloor, -⟩ := snapshot_of_run hrun hx
      dsimp only
      omega
  refine List.pairwise_iff_getElem.2 fun i j hi hj hij => UInt64.lt_iff_toNat_lt.2 ?_
  rw [htimes i _ (List.getElem?_eq_getElem hi), htimes j _ (List.getElem?_eq_getElem hj)]
  omega

theorem sent_of_run {u t : Server F} {e : EntityId} {welcome : ServerWelcome} {ops : List (Op F)}
    {outs : List (Out F)} (hordered : Ordered u.world) (he : e ∈ u.world.entityIds)
    (hfloor : welcome.targetTickFloor.toNat =
      u.world.tick.toNat + u.config.inputLeadTicks.toNat)
    (hcontrolled : welcome.controlledEntityId = e)
    (hrun : (serverMachine F).run u ops = .ok (t, outs)) : Sent u e welcome ops outs := by
  obtain ⟨hlists, hpairwise⟩ := entities_of_run hordered hrun
  have hbaseline : u.baselineProto.entities.map EntitySnapshotProto.entityId =
      u.world.entityIds := by
    simp [Server.baselineProto, Baseline.toProto, World.baseline, World.entityIds,
      EntitySnapshot.toProto]
  exact {
    welcome_floor := hfloor
    controlled := hcontrolled
    snapshot := fun _ _ _ _ hk => snapshot_of_run hrun hk
    floors := floors_of_run hfloor hrun
    ascending := by
      refine List.forall_mem_cons.2 ⟨?_, fun l hl => (hlists l hl).1⟩
      rw [hbaseline]
      exact hordered.pairwise_entityIds
    includes := by
      refine List.forall_mem_cons.2 ⟨hbaseline ▸ he, fun l hl => ?_⟩
      exact (hlists l hl).2.subset he
    grows := by
      refine List.pairwise_cons.2 ⟨fun l hl => ?_, hpairwise.imp fun hpre => hpre.subset⟩
      rw [hbaseline]
      exact (hlists l hl).2.subset
    baseline_digest := ⟨rfl, rfl⟩
    snapshot_digest := by
      rintro k ⟨snapshot, floor, bytes⟩ hk
      obtain ⟨before, after, s, v, os, rfl, hsteps, hbefore, hs⟩ :=
        exists_step_of_snapshot hrun hk
      have hexec : (serverMachine F).exec s .step = .ok (v, .stepped snapshot floor bytes) :=
        Server.exec_step.2 ⟨snapshot, floor, bytes, hs, rfl⟩
      obtain ⟨next, -, -, rfl, rfl, -⟩ := Server.step_eq_ok.1 hs
      exact ⟨before, after, _, _, rfl, hsteps, Machine.run_append_eq_ok.2
        ⟨s, os, _, hbefore, Machine.run_singleton hexec, rfl⟩, rfl, rfl, rfl⟩ }

/-- A join leaves the session's entity in the world and the welcome's floor up to date. -/
theorem join_spec {s s' u : Server F} {sid : SessionId} {p : PlayerId} {e : EntityId}
    {welcome : ServerWelcome} (hordered : Ordered s.world)
    (haccept : s.exec .acceptSession = .ok (s', .accepted sid p e))
    (hwelcome : s'.exec (.welcomeFor sid) = .ok (u, .welcomed welcome)) :
    e ∈ u.world.entityIds ∧ welcome.controlledEntityId = e ∧
      welcome.targetTickFloor.toNat = u.world.tick.toNat + u.config.inputLeadTicks.toNat := by
  obtain ⟨_, _, _, hs, heq⟩ := Server.exec_acceptSession.1 haccept
  obtain ⟨rfl, rfl, rfl⟩ := Out.accepted.inj heq
  obtain ⟨-, -, -, nextSid, nextPid, world, -, -, hspawn, rfl⟩ := Server.acceptSession_eq_ok.1 hs
  obtain ⟨_, hs', heq⟩ := Server.exec_welcomeFor.1 hwelcome
  obtain rfl := Out.welcomed.inj heq
  obtain ⟨session, hsession, floor, hfloor, rfl, rfl⟩ := Server.welcomeFor_eq_ok.1 hs'
  rw [HashMap.lookup_insert, if_pos rfl] at hsession
  obtain rfl := Option.some.inj hsession
  refine ⟨?_, rfl, hfloor⟩
  have hcharacters := (hordered.spawn hspawn).2.2
  rw [entityIds_eq]
  change e ∈ world.characters.map Character.entityId
  rw [hcharacters, List.map_append]
  exact List.mem_append_right _ (List.mem_singleton_self e)

/-- In a run that welcomes every session as it accepts it, what each session is sent is
coherent. -/
theorem coherent {config : ServerConfig} {ops : List (Op F)} {s : Server F} {outs : List (Out F)}
    (hrun : runServer config ops = .ok (s, outs)) (hgreeted : Greeted (ops.zip outs)) :
    Coherent config ops outs s where
  floors := by
    obtain ⟨s₀, hnew, hrun⟩ := bind_eq_ok.1 hrun
    obtain ⟨-, rfl⟩ := Server.new_eq_ok.1 hnew
    have hfloors := UpToDate.run (fun sid hmem => absurd hmem (AList.notMem_empty sid)) hrun hgreeted
    rwa [UpToDate, config_of_run hrun] at hfloors
  sent := by
    rintro before after sid p e welcome u os os' rfl rfl hjoin
    have hsplit : before ++ .acceptSession :: .welcomeFor sid :: after =
        (before ++ [.acceptSession, .welcomeFor sid]) ++ after := by simp
    obtain ⟨u', os₁, os₂, hjoin', hafter, houts⟩ := runServer_append (hsplit ▸ hrun)
    obtain ⟨rfl, rfl⟩ := Prod.mk.inj (Except.ok.inj (hjoin.symm.trans hjoin'))
    obtain rfl : os' = os₂ := by simpa using houts
    obtain ⟨v, vs, _, hbefore, hrest, heq⟩ := runServer_append hjoin
    obtain ⟨s', o, _, haccept, hrest', rfl⟩ := Machine.run_cons_eq_ok.1 hrest
    obtain ⟨_, o', _, hwelcome, hnil, rfl⟩ := Machine.run_cons_eq_ok.1 hrest'
    obtain ⟨rfl, rfl⟩ := Prod.mk.inj (Except.ok.inj hnil)
    obtain ⟨-, heq⟩ := List.append_inj' heq rfl
    obtain ⟨rfl, rfl⟩ : .accepted sid p e = o ∧ .welcomed welcome = o' := by simpa using heq
    obtain ⟨he, hcontrolled, hfloor⟩ :=
      join_spec (ordered_of_runServer hbefore) haccept hwelcome
    exact sent_of_run (ordered_of_runServer hjoin) he hfloor hcontrolled hafter
  grows := fun before mid after u v os os' _ hbefore hmid =>
    (entityIds_of_run (ordered_of_runServer hbefore) hmid).2.subset

/-- A second session joins after a step. -/
theorem coherent_of_late_join : ∃ s outs,
    runServer (F := ℚ) {} [.acceptSession, .welcomeFor 1, .step, .acceptSession, .welcomeFor 2,
      .step] = .ok (s, outs) ∧
    s.sessions.keys = [2, 1] ∧ (snapshots outs).map (fun x => x.1.entities.length) = [1, 2] ∧
    Coherent {} [.acceptSession, .welcomeFor 1, .step, .acceptSession, .welcomeFor 2, .step] outs
      s := by
  have h : (runServer (F := ℚ) {} [.acceptSession, .welcomeFor 1, .step, .acceptSession,
      .welcomeFor 2, .step]).map (fun x => (x.1.sessions.keys,
        (snapshots x.2).map fun x => x.1.entities.length, x.2.take 2, (x.2.drop 3).take 2)) =
      .ok ([2, 1], [1, 2], [.accepted 1 0 1, .welcomed ⟨1, 30, 0, 1⟩],
        [.accepted 2 1 2, .welcomed ⟨2, 30, 1, 2⟩]) := by
    decide +kernel
  obtain ⟨⟨s, outs⟩, hs, heq⟩ := map_eq_ok.1 h
  simp only [Prod.mk.injEq] at heq
  obtain ⟨hkeys, hlengths, hfirst, hsecond⟩ := heq
  refine ⟨s, outs, hs, hkeys, hlengths, coherent hs ?_⟩
  have hlen := length_of_runServer hs
  obtain ⟨o, o', rfl⟩ : ∃ o o', outs = [.accepted 1 0 1, .welcomed ⟨1, 30, 0, 1⟩, o,
      .accepted 2 1 2, .welcomed ⟨2, 30, 1, 2⟩, o'] := by
    rcases outs with _ | ⟨a, _ | ⟨b, _ | ⟨c, _ | ⟨d, _ | ⟨e, _ | ⟨f, _ | ⟨g, outs⟩⟩⟩⟩⟩⟩⟩ <;>
      simp_all
  have hstep : ∀ o : Out ℚ, Greeted [(.step, o)] := fun _ => .singleton fun heq => by cases heq
  exact (((Greeted.welcomed 1 0 1 _).append (hstep o)).append (.welcomed 2 1 2 _)).append (hstep o')

end Flowstate
