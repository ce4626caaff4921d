import Flowstate.Finiteness
import Flowstate.FloatLaws

/-!
# What a departed character does

`disconnectSession` resets the intent of the player, and the documentation wants the
character frozen in place. The buffer still holds the commands the player had sent for
ticks to come, and `step` applies them to the departed player as to any other. So the
character stays where it is, at rest, under every continuation exactly if none of these
commands moves it (`freezes_iff`).

In the match, a lane that has been left only ever advances. It stays put as long as its
intent and its usable slots give a zero velocity (`Inert`), and a tick keeps it so because
adding a zero displacement changes no finite position but `-0.0`. Positions are finite and
never `-0.0` (`tame_of_run`), in binary64 as in exact arithmetic.
-/

set_option linter.unusedSectionVars false

open Rust

namespace Flowstate

variable {F : Type} [F64 F]

/-- Zero as a number, in both components. -/
def AtRest (velocity : F × F) : Prop :=
  F64.eq velocity.1 (F64.lit 0) = true ∧ F64.eq velocity.2 (F64.lit 0) = true

/-- The snapshot reports the entity at a position, at rest. -/
def ReportsAtRest (snapshot : Snapshot F) (e : EntityId) (position : F × F) : Prop :=
  ∃ velocity, snapshot.entities.find? (fun x => x.entityId == e) = some ⟨e, position, velocity⟩ ∧
    AtRest velocity

/-- After the session has left, every snapshot of every continuation reports its entity at
rest where it was. -/
def Freezes (s : Server F) (session : Session) : Prop :=
  ∀ c ∈ s.world.characters, c.entityId = session.controlledEntityId →
    ∀ ops t outs, (serverMachine F).run (s.disconnectSession session.id) ops = .ok (t, outs) →
      t.entitySpawnOrder.Nodup → ∀ snapshot floor bytes, .stepped snapshot floor bytes ∈ outs →
        ReportsAtRest snapshot c.entityId c.position

/-- No command of the player is buffered, untied and for a tick still to come, that would
give its character a velocity. A tick is still to come if the counters last until then. -/
def NoPendingMove (s : Server F) (p : PlayerId) : Prop :=
  ∀ t entry, s.inputBuffer.buffer.lookup (p, t) = some entry → entry.maxSeqTied = false →
    s.world.tick ≤ t → t.toNat + 1 + s.config.inputLeadTicks.toNat < 2 ^ 64 →
      AtRest (Character.velocityOf (Server.commandMoveDir entry.selected))

/-! ## Zero velocities -/

section Zero

variable [F64.LawfulZero F]

/-- A zero displacement leaves a finite position that is not `-0.0`. -/
theorem add_displacement_eq {x v : F} {n : ℕ} (hfinite : F64.Finite x) (hx : ¬F64.NegZero x)
    (hn : 0 < n) (hlt : n < 2 ^ 32) (hv : F64.eq v (F64.lit 0) = true) :
    x + v * (F64.lit 1 / F64.lit n) = x :=
  F64.LawfulZero.add_eq_self x _ hfinite hx (F64.LawfulZero.eq_mul_dt v n hn hlt hv)

/-- The zero direction gives a zero velocity. -/
theorem atRest_velocityOf_zero :
    AtRest (Character.velocityOf ((F64.lit 0, F64.lit 0) : F × F)) := by
  have hclamp : clampMagnitude ((F64.lit 0, F64.lit 0) : F × F) (F64.lit 1) =
      (F64.lit 0, F64.lit 0) := if_pos F64.LawfulZero.zero_le_one
  rw [Character.velocityOf, hclamp]
  exact ⟨F64.LawfulZero.eq_zero_mul, F64.LawfulZero.eq_zero_mul⟩

end Zero

/-! ## Lanes that have been left -/

/-- The command a slot would be applied at its tick, if the counters last until then, gives
no velocity. -/
def Lane.NoPendingMove (m : Match F) (l : Lane F) : Prop :=
  ∀ t cmd, BufferEntry.taken (l.slots t) = some cmd → m.tick.toNat ≤ t.toNat →
    t.toNat + 1 + m.rules.inputLeadTicks.toNat < 2 ^ 64 →
      AtRest (Character.velocityOf (Server.commandMoveDir cmd))

/-- A session that has left a match in which nothing moves its character any more. -/
structure Inert (sid : SessionId) (position : F × F) (m : Match F) : Prop where
  joined_lt : m.joined < 2 ^ 8
  joined : sid ∈ m.order
  gone : ¬(m.lane sid).live
  position_eq : (m.lane sid).position = position
  intent : AtRest (Character.velocityOf (m.lane sid).intent)
  pending : (m.lane sid).NoPendingMove m
  dtSeconds : ∃ n, 0 < n ∧ n < 2 ^ 32 ∧ m.rules.dtSeconds = F64.lit 1 / F64.lit n

/-- An output that, if it is a snapshot, reports the entity at rest. -/
def Out.AtRest (e : EntityId) (position : F × F) : Out F → Prop
  | .stepped snapshot _ _ => ReportsAtRest snapshot e position
  | _ => True

namespace Match

/-- A snapshot reports a joined session's entity with its lane's motion. -/
theorem find?_entities {m : Match F} {sid : SessionId} (hmem : sid ∈ m.order) :
    m.entities.find? (fun x => x.entityId == sid) =
      some ⟨sid, (m.lane sid).position, (m.lane sid).velocity⟩ := by
  rw [entities, List.find?_map]
  rcases hfind : m.order.find? ((fun x : EntitySnapshot F => x.entityId == sid) ∘ fun sid =>
      ⟨sid, (m.lane sid).position, (m.lane sid).velocity⟩) with _ | sid'
  · rw [List.find?_eq_none] at hfind
    exact absurd (beq_self_eq_true sid) (hfind sid hmem)
  · obtain rfl : sid' = sid := by simpa using List.find?_some hfind
    rfl

end Match

section Inert

variable [F64.LawfulZero F] {sid : SessionId} {position : F × F} {m : Match F}

/-- What a tick applies to an inert lane gives no velocity. -/
theorem Inert.atRest_choice (h : Inert sid position m)
    (hlast : m.tick.toNat + 1 + m.rules.inputLeadTicks.toNat < 2 ^ 64) :
    AtRest (Character.velocityOf ((m.lane sid).choice m.tick).1) := by
  rw [Lane.choice, chooseInput]
  rcases htaken : BufferEntry.taken ((m.lane sid).slots m.tick) with _ | cmd
  · exact h.intent
  · exact h.pending m.tick cmd htaken le_rfl hlast

/-- Every operation leaves an inert session inert, and reports its entity at rest. -/
theorem inert_of_exec (hfinite : FinitePair position)
    (hposition : ¬F64.NegZero position.1 ∧ ¬F64.NegZero position.2) {m' : Match F} {op : Op F}
    {o : Out F} (h : Inert sid position m)
    (hexec : m.exec op = .ok (m', o)) : Inert sid position m' ∧ o.AtRest sid position := by
  have hset : ∀ sid' l, sid' ≠ sid → Inert sid position (m.setLane sid' l) := by
    intro sid' l hne
    have hlane : (m.setLane sid' l).lane sid = m.lane sid := by
      rw [Match.lane_setLane, if_neg hne.symm]
    exact ⟨h.joined_lt, h.joined, hlane ▸ h.gone, hlane ▸ h.position_eq, hlane ▸ h.intent,
      hlane ▸ h.pending, h.dtSeconds⟩
  have hlive : ∀ sid', (m.lane sid').live → sid' ≠ sid := fun sid' hlive heq =>
    h.gone (heq ▸ hlive)
  cases Match.steps_of_exec hexec with
  | join _ hjoined =>
    have hne : Match.sessionAt m.joined ≠ sid := fun heq =>
      Match.sessionAt_notMem_order (h.joined_lt.trans (by norm_num)) (heq ▸ h.joined)
    have hinert := hset _ (m.lane (Match.sessionAt m.joined)).join hne
    refine ⟨⟨hjoined, ?_, hinert.gone, hinert.position_eq, hinert.intent, hinert.pending,
      hinert.dtSeconds⟩, trivial⟩
    rw [Match.order_succ]
    exact List.mem_append_left _ h.joined
  | welcome hsid => exact ⟨hset _ _ (hlive _ hsid), trivial⟩
  | buffer hsid => exact ⟨hset _ _ (hlive _ hsid), trivial⟩
  | leave hsid => exact ⟨hset _ _ (hlive _ hsid), trivial⟩
  | unknown | drop | absent => exact ⟨h, trivial⟩
  | tick hnext hfloor =>
    rename_i next floor
    have hlast : m.tick.toNat + 1 + m.rules.inputLeadTicks.toNat < 2 ^ 64 := by
      have := floor.toNat_lt
      omega
    have hrest := h.atRest_choice hlast
    obtain ⟨n, hn, hrate, hdt⟩ := h.dtSeconds
    have hlane : (m.advance next floor).lane sid =
        (m.lane sid).advance m.rules.dtSeconds m.tick next floor := by
      rw [Match.lane_advance, if_pos h.joined]
    have hpos : ((m.advance next floor).lane sid).position = position := by
      rw [hlane, Lane.advance, hdt]
      dsimp only
      rw [h.position_eq, add_displacement_eq hfinite.1 hposition.1 hn hrate hrest.1,
        add_displacement_eq hfinite.2 hposition.2 hn hrate hrest.2]
    refine ⟨⟨h.joined_lt, h.joined, ?_, hpos, ?_, ?_, n, hn, hrate, hdt⟩, ?_⟩
    · rw [Match.live_advance]
      exact h.gone
    · rw [hlane]
      exact hrest
    · intro t cmd htaken hle hlt
      rw [hlane, Lane.advance] at htaken
      dsimp only at htaken
      split_ifs at htaken with hkeep
      · exact h.pending t cmd htaken (by rw [Match.advance] at hle; dsimp only at hle; omega) hlt
      · cases htaken
    · have hjoined : sid ∈ (m.advance next floor).order := h.joined
      have hfind := Match.find?_entities hjoined
      rw [hpos] at hfind
      refine ⟨_, hfind, ?_⟩
      rw [hlane]
      exact hrest

/-- Leaving makes a session inert if none of its usable slots moves it. -/
theorem inert_leave (hjoined : m.joined < 2 ^ 8) (hmem : sid ∈ m.order)
    (hpending : (m.lane sid).NoPendingMove m)
    (hdt : ∃ n, 0 < n ∧ n < 2 ^ 32 ∧ m.rules.dtSeconds = F64.lit 1 / F64.lit n) :
    Inert sid (m.lane sid).position (m.setLane sid (m.lane sid).leave) := by
  have hlane : (m.setLane sid (m.lane sid).leave).lane sid = (m.lane sid).leave := by
    rw [Match.lane_setLane, if_pos rfl]
  refine ⟨hjoined, hmem, ?_, by rw [hlane]; rfl, ?_, by rw [hlane]; exact hpending, hdt⟩
  · rw [hlane]
    simp [Lane.leave]
  · rw [hlane]
    exact atRest_velocityOf_zero

end Inert

/-! ## A pending move moves -/

/-- While the counters last, a step does not panic. -/
theorem exec_step_of_lt {m : Match F}
    (hlt : m.tick.toNat + 1 + m.rules.inputLeadTicks.toNat < 2 ^ 64) :
    ∃ next floor, next.toNat = m.tick.toNat + 1 ∧
      m.exec .step = .ok (m.advance next floor, .stepped (m.advance next floor).snapshot floor
        (Server.snapshotBytes (m.advance next floor).snapshot floor)) := by
  have hone : (1 : UInt64).toNat = 1 := rfl
  obtain ⟨next, hadd, hnext⟩ := addU64_of_lt (a := m.tick) (b := 1) (by omega)
  obtain ⟨floor, hfloor, -⟩ := addU64_of_lt (a := next) (b := m.rules.inputLeadTicks) (by omega)
  refine ⟨next, floor, hnext, ?_⟩
  simp only [Match.exec, hadd, hfloor, bind, Except.bind]
  rfl

/-- Steps leave the slots of the ticks not yet processed. -/
theorem exists_run_steps : ∀ (k : ℕ) (m : Match F),
    m.tick.toNat + k + m.rules.inputLeadTicks.toNat < 2 ^ 64 →
    ∃ n outs, (matchMachine F).run m (List.replicate k .step) = .ok (n, outs) ∧
      n.tick.toNat = m.tick.toNat + k ∧ n.rules = m.rules ∧ n.order = m.order ∧
      ∀ sid t, n.tick.toNat ≤ t.toNat → (n.lane sid).slots t = (m.lane sid).slots t
  | 0, m, _ => ⟨m, [], rfl, rfl, rfl, rfl, fun _ _ _ => rfl⟩
  | k + 1, m, hlt => by
    obtain ⟨next, floor, hnext, hexec⟩ := exec_step_of_lt (m := m) (by omega)
    have htick : (m.advance next floor).tick = next := rfl
    have hrules : (m.advance next floor).rules = m.rules := rfl
    obtain ⟨n, outs, hrun, hn, hnrules, horder, hslots⟩ :=
      exists_run_steps k (m.advance next floor) (by rw [hrules, htick]; omega)
    rw [htick] at hn
    refine ⟨n, _, Machine.run_cons_eq_ok.2 ⟨_, _, outs, hexec, hrun, rfl⟩, by omega, hnrules,
      horder, fun sid t ht => ?_⟩
    rw [hslots sid t ht, Match.lane_advance]
    split_ifs
    · exact if_pos (UInt64.le_iff_toNat_le.2 (by omega))
    · rfl

/-- A usable slot of a joined session is applied at its tick, and the snapshot shows it. -/
theorem exists_run_to_slot {m : Match F} {sid : SessionId} (hmem : sid ∈ m.order) {t : Tick}
    {cmd : InputCmdProto F} (htaken : BufferEntry.taken ((m.lane sid).slots t) = some cmd)
    (hle : m.tick.toNat ≤ t.toNat)
    (hlt : t.toNat + 1 + m.rules.inputLeadTicks.toNat < 2 ^ 64) :
    ∃ ops n outs snapshot floor bytes, (∀ op ∈ ops, op ≠ Op.acceptSession) ∧
      (matchMachine F).run m ops = .ok (n, outs) ∧ .stepped snapshot floor bytes ∈ outs ∧
      ∃ position, snapshot.entities.find? (fun x => x.entityId == sid) =
        some ⟨sid, position, Character.velocityOf (Server.commandMoveDir cmd)⟩ := by
  obtain ⟨n, outs, hrun, hn, hrules, horder, hslots⟩ :=
    exists_run_steps (t.toNat - m.tick.toNat) m (by omega)
  obtain rfl : n.tick = t := UInt64.toNat_inj.1 (by omega)
  obtain ⟨next, floor, -, hexec⟩ := exec_step_of_lt (m := n) (by rw [hrules]; exact hlt)
  rw [← horder] at hmem
  have hvelocity : ((n.advance next floor).lane sid).velocity =
      Character.velocityOf (Server.commandMoveDir cmd) := by
    rw [Match.lane_advance, if_pos hmem, Lane.advance, Lane.choice, chooseInput,
      hslots sid _ le_rfl, htaken]
  have hops : ∀ op ∈ List.replicate (n.tick.toNat - m.tick.toNat) Op.step ++ [Op.step],
      op ≠ (Op.acceptSession : Op F) := by
    intro op hop
    rcases List.mem_append.1 hop with hop | hop
    · rintro rfl
      cases List.eq_of_mem_replicate hop
    · rintro rfl
      cases List.mem_singleton.1 hop
  refine ⟨_, _, _, _, _, _, hops, Machine.run_append_eq_ok.2 ⟨n, outs, _, hrun,
    Machine.run_singleton hexec, rfl⟩, List.mem_append_right _ (List.mem_singleton_self _),
    ((n.advance next floor).lane sid).position, ?_⟩
  rw [← hvelocity]
  exact Match.find?_entities (m := n.advance next floor) hmem

/-! ## The server -/

theorem Refines.noPendingMove_iff {s : Server F} {m : Match F} (h : Refines s m)
    {sid : SessionId} (hmem : sid ∈ m.order) :
    NoPendingMove s (s.config.playerOf sid) ↔ (m.lane sid).NoPendingMove m := by
  have hlead : m.rules.inputLeadTicks = s.config.inputLeadTicks := by
    rw [h.rules]
    rfl
  simp only [NoPendingMove, Lane.NoPendingMove, h.slots sid hmem, h.tick, hlead,
    UInt64.le_iff_toNat_le]
  constructor
  · intro hpending t cmd htaken
    obtain ⟨entry, hentry, hcmd⟩ := Option.bind_eq_some_iff.1 htaken
    split_ifs at hcmd with htied
    obtain rfl := Option.some.inj hcmd
    exact hpending t entry hentry (by simpa using htied)
  · intro hpending t entry hentry htied
    exact hpending t entry.selected (by simp [BufferEntry.taken, hentry, htied])

theorem Out.mem_map_named {config : ServerConfig} {outs : List (Out F)} {snapshot : Snapshot F}
    {floor : Tick} {bytes : Protobuf.Bytes} :
    .stepped snapshot floor bytes ∈ outs.map (Out.named config) ↔
      .stepped snapshot floor bytes ∈ outs := by
  rw [List.mem_map]
  constructor
  · rintro ⟨o, ho, heq⟩
    cases o with
    | stepped => exact heq ▸ ho
    | accepted | welcomed | verdict | disconnected => cases heq
  · exact fun ho => ⟨_, ho, rfl⟩

/-- A departed character freezes exactly if no pending command of its player moves it. -/
theorem freezes_iff [F64.LawfulZero F] [F64.LawfulRange F] {config : ServerConfig}
    {ops : List (Op F)} {s : Server F} {outs : List (Out F)}
    (hrun : runServer config ops = .ok (s, outs))
    (hnodup : s.entitySpawnOrder.Nodup) {sid : SessionId} {session : Session}
    (hsession : s.sessions.lookup sid = some session) :
    Freezes s session ↔ NoPendingMove s session.playerId := by
  obtain ⟨m, mouts, hm, -, hrel, hconfig⟩ := runServer_refines hrun hnodup
  have hlive : (m.lane sid).live := by
    rw [← hrel.mem_sessions, ← AList.mem_keys, ← AList.lookup_isSome, hsession]
    rfl
  have hmem := hrel.mem_order_of_live hlive
  obtain rfl : Session.new sid (s.config.playerOf sid) sid = session := by
    have heq := hrel.sessions sid
    rw [if_pos hlive, hsession] at heq
    exact (Option.some.inj heq).symm
  have hleft := hrel.leave hlive
  have hslots : ((m.setLane sid (m.lane sid).leave).lane sid).slots = (m.lane sid).slots := by
    rw [Match.lane_setLane, if_pos rfl]
    rfl
  refine Iff.trans ?_ (hrel.noPendingMove_iff hmem).symm
  constructor
  · intro hfreezes t cmd htaken hle hlt
    obtain ⟨ops', n, nouts, snapshot, floor, bytes, hops, hrun', hout, position, hfind⟩ :=
      exists_run_to_slot (m := m.setLane sid (m.lane sid).leave) hmem (hslots ▸ htaken) hle hlt
    have hserver := run_refines_of_forall_ne hleft hops
    rw [hrun'] at hserver
    obtain ⟨u, uouts, hu, hrel', rfl⟩ := Machine.resultRel_ok_right hserver
    have hc : m.character s.config sid ∈ s.world.characters :=
      hrel.characters ▸ List.mem_map_of_mem hmem
    obtain ⟨velocity, hfind', hrest⟩ := hfreezes _ hc rfl ops' u _ hu hrel'.nodup snapshot floor
      bytes (Out.mem_map_named.2 hout)
    have heq := Option.some.inj (hfind.symm.trans hfind')
    rwa [← (EntitySnapshot.mk.inj heq).2.2] at hrest
  · intro hpending c hc he ops' t outs' hrun' hnodup' snapshot floor bytes hout
    obtain ⟨n, nouts, hn, rfl, -⟩ := run_refines hleft hrun' hnodup'
    obtain ⟨sid', hsid', rfl⟩ := List.mem_map.1 (hrel.characters ▸ hc)
    obtain rfl : sid' = sid := he
    have hrate : 0 < config.tickRateHz.toNat := by
      obtain ⟨s₀, hnew, -⟩ := bind_eq_ok.1 hrun
      refine Nat.pos_of_ne_zero fun hzero => (Server.new_eq_ok.1 hnew).1 ?_
      exact UInt32.toNat_inj.1 hzero
    have htame := tame_of_run ⟨_, hrate, config.tickRateHz.toNat_lt, rfl⟩ hm
    have hlane := htame.lane sid'
    have hinert := inert_leave hrel.joined_lt hmem hpending htame.dtSeconds
    obtain ⟨-, houts⟩ := Machine.run_outputs (P := Inert sid' (m.lane sid').position)
      (Q := Out.AtRest sid' (m.lane sid').position)
      (fun _ _ _ _ h hexec => inert_of_exec hlane.position hlane.signed h hexec) hinert hn
    exact houts _ (Out.mem_map_named.1 hout)

/-- A player whose commands have all been applied freezes. -/
theorem freezes_after_applied : ∃ s outs session,
    runServer (F := Float) {} [.acceptSession, .receiveInput 1 ⟨1, 1, [1, 0]⟩, .step, .step] =
      .ok (s, outs) ∧ s.sessions.lookup 1 = some session ∧ Freezes s session := by
  have h : (runServer (F := Float) {} [.acceptSession, .receiveInput 1 ⟨1, 1, [1, 0]⟩, .step,
      .step]).map (fun x => (x.1.entitySpawnOrder, x.1.sessions.lookup 1,
        x.1.inputBuffer.buffer.entries.length)) = .ok ([0], some ⟨1, 0, 1, none, none⟩, 0) := by
    decide +kernel
  obtain ⟨⟨s, outs⟩, hs, heq⟩ := map_eq_ok.1 h
  obtain ⟨hplayers, hsession, hempty⟩ : s.entitySpawnOrder = [0] ∧ s.sessions.lookup 1 = _ ∧
    s.inputBuffer.buffer.entries.length = 0 := by simpa using heq
  refine ⟨s, outs, _, hs, hsession, (freezes_iff hs (by rw [hplayers]; decide) hsession).2 ?_⟩
  intro t entry hentry
  have hmem := AList.mem_lookup_iff.1 hentry
  rw [List.length_eq_zero_iff.1 hempty] at hmem
  exact absurd hmem List.not_mem_nil

/-- What an output shows of the entities' positions. -/
def Out.positions : Out F → List (F × F)
  | .stepped snapshot _ _ => snapshot.entities.map EntitySnapshot.position
  | _ => []

/-- A player who leaves with a command buffered for the next tick moves after the leave. -/
theorem not_freezes_pending : ∃ s outs session,
    runServer (F := Float) {} [.acceptSession, .receiveInput 1 ⟨1, 1, [1, 0]⟩] = .ok (s, outs) ∧
      s.entitySpawnOrder.Nodup ∧ s.sessions.lookup 1 = some session ∧ ¬Freezes s session := by
  have h : (runServer (F := Float) {} [.acceptSession, .receiveInput 1 ⟨1, 1, [1, 0]⟩]).map
        (fun x => (x.1.sessions.lookup 1, x.1.world.characters, x.1.entitySpawnOrder)) =
      .ok (some ⟨1, 0, 1, none, none⟩, [⟨1, 0, (0, 0), (0, 0)⟩], [0]) := by
    decide +kernel
  obtain ⟨⟨s, outs⟩, hs, heq⟩ := map_eq_ok.1 h
  simp only [Prod.mk.injEq] at heq
  obtain ⟨hsession, hcharacters, hplayers⟩ := heq
  have h' : (runServer (F := Float) {} [.acceptSession, .receiveInput 1 ⟨1, 1, [1, 0]⟩] >>= fun x =>
      ((serverMachine Float).run (x.1.disconnectSession 1) [.step, .step]).map fun y =>
        (y.1.entitySpawnOrder, y.2.map Out.positions)) =
      .ok ([0], [[(0, 0)], [(5 * (1 / 30), 0)]]) := by
    decide +kernel
  obtain ⟨⟨s', outs'⟩, hs', h'⟩ := bind_eq_ok.1 h'
  obtain ⟨rfl, rfl⟩ : s = s' ∧ outs = outs' := by simpa using hs.symm.trans hs'
  obtain ⟨⟨t, outs'⟩, ht, heq⟩ := map_eq_ok.1 h'
  simp only [Prod.mk.injEq] at heq
  obtain ⟨hplayers', hpositions⟩ := heq
  refine ⟨s, outs, _, hs, by rw [hplayers]; decide, hsession, fun hfreezes => ?_⟩
  have hmem : [(5 * (1 / 30), 0)] ∈ outs'.map Out.positions := by
    rw [hpositions]
    simp
  obtain ⟨o, ho, hoe⟩ := List.mem_map.1 hmem
  cases o with
  | stepped snapshot floor bytes =>
    obtain ⟨velocity, hfind, -⟩ := hfreezes ⟨1, 0, (0, 0), (0, 0)⟩ (by rw [hcharacters]; simp) rfl
      _ t outs' ht (by rw [hplayers']; decide) snapshot floor bytes ho
    -- The only position shown is not the origin.
    have hposition := List.mem_map_of_mem (f := EntitySnapshot.position)
      (List.mem_of_find?_eq_some hfind)
    have hshown : snapshot.entities.map EntitySnapshot.position = [(5 * (1 / 30), 0)] := hoe
    rw [hshown] at hposition
    have hne : ((0, 0) : Float × Float) ≠ (5 * (1 / 30), 0) := by decide +kernel
    exact hne (List.mem_singleton.1 hposition)
  | accepted | welcomed | verdict | disconnected => cases hoe

end Flowstate
