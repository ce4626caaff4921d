import Flowstate.NetworkClient
import Mathlib.Data.List.MinMax

/-!
# Frames of the Godot client

What the client shows does not depend on how the packets fall into frames. Two guards are
in play : a drain keeps the snapshot of the highest tick, and the state of the match refuses
a stale one. A drain under way stands for the scene it would finish in, and each event moves
the one as a frame of its own moves the other (`Drain.bind_finish`). So any frames end where
frames of one event each end (`play_eq_process`), and there every snapshot is applied.
-/

namespace Flowstate.Godot

open WireCodec Channels

/-! ## The newest snapshot -/

namespace MatchState

variable {m : MatchState} {p q : SnapshotProto}

theorem applySnapshot_of_le (h : p.tick ≤ m.latestTick) : (m.applySnapshot p).1 = m := by
  rw [applySnapshot, if_pos h]

theorem applySnapshot_of_lt (h : m.latestTick < p.tick) : (m.applySnapshot p).1 = m.shown p := by
  rw [applySnapshot, if_neg (Int64.not_le.2 h)]

theorem toInt_latestTick_applySnapshot (m : MatchState) (p : SnapshotProto) :
    (m.applySnapshot p).1.latestTick.toInt = max m.latestTick.toInt p.tick.toInt := by
  rcases Int64.lt_or_le m.latestTick p.tick with h | h
  · rw [applySnapshot_of_lt h, max_eq_right (Int64.lt_iff_toInt_lt.1 h).le]
    rfl
  · rw [applySnapshot_of_le h, max_eq_left (Int64.le_iff_toInt_le.1 h)]

/-- Of two snapshots the newer one remains, the first one if they are of one tick. -/
theorem applySnapshot_applySnapshot (m : MatchState) (q p : SnapshotProto) :
    ((m.applySnapshot q).1.applySnapshot p).1 =
      (m.applySnapshot (if q.tick < p.tick then p else q)).1 := by
  have htick := m.toInt_latestTick_applySnapshot q
  split_ifs with h
  · rcases Int64.lt_or_le m.latestTick q.tick with hq | hq
    · -- `q` is shown for a while
      have hp : (m.shown q).latestTick < p.tick := h
      rw [applySnapshot_of_lt hq, applySnapshot_of_lt hp, applySnapshot_of_lt (Int64.lt_trans hq h)]
      rfl
    · rw [applySnapshot_of_le hq]
  · refine applySnapshot_of_le ?_
    have hle := Int64.le_iff_toInt_le.1 (Int64.not_lt.1 h)
    rw [Int64.le_iff_toInt_le, htick]
    exact hle.trans (le_max_right _ _)

end MatchState

/-- The first snapshot of the highest tick. -/
def newestSnapshot (snapshots : List SnapshotProto) : Option SnapshotProto :=
  snapshots.foldl (List.argAux fun p q => q.tick < p.tick) none

theorem newestSnapshot_concat (snapshots : List SnapshotProto) (p : SnapshotProto) :
    newestSnapshot (snapshots ++ [p]) =
      match newestSnapshot snapshots with
      | some q => some (if q.tick < p.tick then p else q)
      | none => some p := by
  rw [newestSnapshot, List.foldl_concat, ← newestSnapshot, List.argAux]
  rcases newestSnapshot snapshots with - | q
  · rfl
  · dsimp only
    split_ifs <;> rfl

theorem mem_of_newestSnapshot {snapshots : List SnapshotProto} {p : SnapshotProto}
    (h : newestSnapshot snapshots = some p) : p ∈ snapshots := by
  induction snapshots using List.reverseRecOn generalizing p with
  | nil => cases h
  | append_singleton snapshots r ih =>
    rw [newestSnapshot_concat] at h
    rcases hlatest : newestSnapshot snapshots with - | q <;> rw [hlatest] at h
    · simp [Option.some.inj h]
    · have heq := Option.some.inj h
      split_ifs at heq
      · simp [heq]
      · exact List.mem_append_left [r] (heq ▸ ih hlatest)

/-- The snapshot newer than all before it and as new as all behind it. -/
theorem newestSnapshot_of_split {before after : List SnapshotProto} {p : SnapshotProto}
    (hbefore : ∀ q ∈ before, q.tick < p.tick) (hafter : ∀ q ∈ after, q.tick ≤ p.tick) :
    newestSnapshot (before ++ p :: after) = some p := by
  induction after using List.reverseRecOn with
  | nil =>
    rw [newestSnapshot_concat]
    rcases hlatest : newestSnapshot before with - | q
    · rfl
    · exact congrArg some (if_pos (hbefore q (mem_of_newestSnapshot hlatest)))
  | append_singleton after r ih =>
    have ⟨hrest, hr⟩ := List.forall_mem_append.1 hafter
    rw [← List.cons_append, ← List.append_assoc, newestSnapshot_concat, ih hrest]
    exact congrArg some (if_neg (Int64.not_lt.2 (hr r (List.mem_singleton_self r))))

/-- The state that shows the newest of the snapshots, if it is newer than `m`. -/
def MatchState.newest (m : MatchState) (snapshots : List SnapshotProto) : MatchState :=
  match newestSnapshot snapshots with
  | some p => if m.latestTick < p.tick then m.shown p else m
  | none => m

theorem MatchState.ite_shown (m : MatchState) (p : SnapshotProto) :
    (if m.latestTick < p.tick then m.shown p else m) = (m.applySnapshot p).1 := by
  split_ifs with h
  · exact (applySnapshot_of_lt h).symm
  · exact (applySnapshot_of_le (Int64.not_lt.1 h)).symm

theorem MatchState.newest_concat (m : MatchState) (snapshots : List SnapshotProto)
    (p : SnapshotProto) :
    m.newest (snapshots ++ [p]) = ((m.newest snapshots).applySnapshot p).1 := by
  rw [newest, newest, newestSnapshot_concat]
  rcases newestSnapshot snapshots with - | q
  · exact m.ite_shown p
  · dsimp only
    rw [m.ite_shown, m.ite_shown, applySnapshot_applySnapshot]

theorem MatchState.latestTick_le_newest (m : MatchState) (snapshots : List SnapshotProto) :
    m.latestTick ≤ (m.newest snapshots).latestTick := by
  rw [newest]
  rcases newestSnapshot snapshots with - | p
  · exact Int64.le_refl _
  · dsimp only
    rw [m.ite_shown, Int64.le_iff_toInt_le, toInt_latestTick_applySnapshot]
    exact le_max_left _ _

/-- The floor raised to the newest tick and its lead `L`. -/
def newestFloor (L floor : ℤ) (snapshots : List SnapshotProto) : ℤ :=
  match newestSnapshot snapshots with
  | some p => max floor (p.tick.toInt + L)
  | none => floor

theorem newestFloor_concat (L floor : ℤ) (snapshots : List SnapshotProto) (p : SnapshotProto) :
    newestFloor L floor (snapshots ++ [p]) =
      max (newestFloor L floor snapshots) (p.tick.toInt + L) := by
  rw [newestFloor, newestFloor, newestSnapshot_concat]
  rcases newestSnapshot snapshots with - | q
  · rfl
  · dsimp only
    split_ifs with h <;> rw [Int64.lt_iff_toInt_lt] at h <;> omega

/-! ## A drain under way -/

/-- `max` as the floor takes it. -/
theorem toInt_max (a b : Int64) : (max a b).toInt = max a.toInt b.toInt := by
  change (if a ≤ b then b else a).toInt = _
  split_ifs with h <;> rw [Int64.le_iff_toInt_le] at h <;> omega

theorem NetworkClient.exists_tickFloor {c : NetworkClient} (h : c.state = .ready) :
    ∃ f, c.tickFloor = some f :=
  Option.isSome_iff_exists.1 (c.welcomed (.inr h)).1

theorem NetworkClient.observe_of_some {c : NetworkClient} {f : TickFloor}
    (hf : c.tickFloor = some f) (received : Int64) :
    c.observe received = some (c.setTickFloor (f.observe received)) := by
  rw [observe, hf]
  rfl

/-- A scene to which a drain brought a snapshot, and nothing newer. -/
def MatchScene.settle (s : MatchScene) (p : SnapshotProto) : Option MatchScene :=
  Drain.finish ⟨s, some p, p.targetTickFloor⟩

theorem MatchScene.settle_of_some {s : MatchScene} {f : TickFloor}
    (hf : s.networkClient.tickFloor = some f) (p : SnapshotProto) :
    s.settle p = some ⟨s.networkClient.setTickFloor (f.observe p.targetTickFloor),
      (s.matchState.applySnapshot p).1⟩ := by
  simp only [settle, Drain.finish, NetworkClient.observe_of_some hf]
  rfl

/-- `p` leads its tick by `L`. -/
def SnapshotProto.Leads (L : ℤ) (p : SnapshotProto) : Prop :=
  p.targetTickFloor.toInt = p.tick.toInt + L

/-- The floors that two snapshots bring are ordered as their ticks. -/
theorem TickFloor.observe_observe {L : ℤ} (f : TickFloor) {q p : SnapshotProto} (hq : q.Leads L)
    (hp : p.Leads L) : (f.observe q.targetTickFloor).observe p.targetTickFloor =
      f.observe (if q.tick < p.tick then p else q).targetTickFloor := by
  have h : ((f.observe q.targetTickFloor).observe p.targetTickFloor).floor =
      (f.observe (if q.tick < p.tick then p else q).targetTickFloor).floor := by
    rw [← Int64.toInt_inj]
    simp only [observe, toInt_max, Int64.lt_iff_toInt_lt]
    split_ifs <;> rw [SnapshotProto.Leads] at hq hp <;> omega
  exact congrArg TickFloor.mk h

/-- Of two snapshots drained one after the other the newer one remains. -/
theorem MatchScene.settle_bind_settle {L : ℤ} {s : MatchScene} {f : TickFloor}
    (hf : s.networkClient.tickFloor = some f) {q p : SnapshotProto} (hq : q.Leads L)
    (hp : p.Leads L) :
    ((s.settle q).bind fun t => t.settle p) = s.settle (if q.tick < p.tick then p else q) := by
  rw [settle_of_some hf, settle_of_some hf, Option.bind_some, settle_of_some rfl,
    f.observe_observe hq hp, MatchState.applySnapshot_applySnapshot]
  rfl

/-- The snapshot that a realtime packet carries. -/
def ENetEvent.snapshot? (fuel : ℕ) : ENetEvent → Option SnapshotProto
  | .receive channel packet =>
    if channel = channelRealtime then (decodeSnapshotProto fuel packet).value? else none
  | _ => none

/-- An event of a standing connection : every realtime packet is a snapshot that leads its
tick by `L`. -/
structure ENetEvent.Orderly (fuel : ℕ) (L : ℤ) (e : ENetEvent) : Prop where
  connected : e ≠ .disconnect
  decodes : ∀ packet, e = .receive channelRealtime packet →
    ∃ p, (decodeSnapshotProto fuel packet).value? = some p ∧ p.Leads L

theorem ENetEvent.Orderly.leads {fuel : ℕ} {L : ℤ} {e : ENetEvent} (he : e.Orderly fuel L)
    {p : SnapshotProto} (hp : e.snapshot? fuel = some p) : p.Leads L := by
  rcases e with - | ⟨channel, packet⟩ | - | -
  · cases hp
  · rw [snapshot?] at hp
    split_ifs at hp with hchannel
    obtain ⟨q, hdec, hleads⟩ := he.decodes packet (by rw [hchannel])
    obtain rfl := Option.some.inj (hp.symm.trans hdec)
    exact hleads
  · cases hp
  · cases hp

theorem ENetEvent.orderly_receive {fuel : ℕ} {L : ℤ} {packet : PackedByteArray} {p : SnapshotProto}
    (hdec : (decodeSnapshotProto fuel packet).value? = some p) (hp : p.Leads L) :
    (ENetEvent.receive channelRealtime packet).Orderly fuel L :=
  ⟨ENetEvent.noConfusion, by rintro _ ⟨⟩; exact ⟨p, hdec, hp⟩⟩

/-- What an event without a snapshot does to a ready client. -/
def NetworkClient.greet (c : NetworkClient) (e : ENetEvent) : NetworkClient :=
  if e = .connect then c.onConnect else c

@[simp] theorem NetworkClient.state_greet (c : NetworkClient) (e : ENetEvent) :
    (c.greet e).state = c.state := by
  simp only [greet, onConnect, send]
  split_ifs <;> rfl

@[simp] theorem NetworkClient.tickFloor_greet (c : NetworkClient) (e : ENetEvent) :
    (c.greet e).tickFloor = c.tickFloor := by
  simp only [greet, onConnect, send]
  split_ifs <;> rfl

theorem NetworkClient.setTickFloor_greet (c : NetworkClient) (e : ENetEvent) (f : TickFloor) :
    (c.greet e).setTickFloor f = (c.setTickFloor f).greet e := by
  by_cases he : e = .connect <;> by_cases hsent : c.helloSent <;>
    simp [greet, onConnect, send, setTickFloor, he, hsent]

/-- A drain of a ready client, its floor the one of its snapshot. -/
structure Drain.Regular (L : ℤ) (d : Drain) : Prop where
  ready : d.scene.networkClient.state = .ready
  floor : ∀ p, d.latestSnapshot = some p → d.latestSnapshotFloor = p.targetTickFloor ∧ p.Leads L

namespace Drain

variable {fuel : ℕ} {L : ℤ} {d d' : Drain} {e : ENetEvent}

theorem onEvent_of_regular (hd : d.Regular L) (he : e.Orderly fuel L) :
    (∃ p, e.snapshot? fuel = some p ∧ d.onEvent fuel e = some (d.keep p)) ∨
      e.snapshot? fuel = none ∧ d.onEvent fuel e =
        some { d with scene.networkClient := d.scene.networkClient.greet e } := by
  rcases e with - | ⟨channel, packet⟩ | - | -
  · exact .inr ⟨rfl, rfl⟩
  · by_cases hcontrol : channel = channelControl
    · subst hcontrol
      -- a ready client has had its welcome and its baseline
      have hscene : d.scene.handleControlPacket fuel packet = some d.scene := by
        rw [MatchScene.handleControlPacket]
        split
        · exact absurd (hd.ready.symm.trans ‹_›) (by decide)
        · exact absurd (hd.ready.symm.trans ‹_›) (by decide)
        · rfl
        · rfl
      refine .inr ⟨rfl, ?_⟩
      rw [onEvent, if_pos rfl, hscene]
      rfl
    · by_cases hrealtime : channel = channelRealtime
      · subst hrealtime
        obtain ⟨p, hdec, -⟩ := he.decodes packet rfl
        refine .inl ⟨p, by rw [ENetEvent.snapshot?, if_pos rfl, hdec], ?_⟩
        rw [onEvent, if_neg hcontrol, if_pos ⟨rfl, hd.ready⟩, hdec]
        rfl
      · refine .inr ⟨if_neg hrealtime, ?_⟩
        rw [onEvent, if_neg hcontrol, if_neg fun h => hrealtime h.1]
        rfl
  · exact absurd rfl he.connected
  · exact .inr ⟨rfl, rfl⟩

theorem Regular.keep (hd : d.Regular L) {p : SnapshotProto} (hp : p.Leads L) :
    (d.keep p).Regular L := by
  rw [Drain.keep]
  split_ifs
  · exact ⟨hd.ready, by rintro q ⟨⟩; exact ⟨rfl, hp⟩⟩
  · exact hd

theorem Regular.onEvent (hd : d.Regular L) (he : e.Orderly fuel L)
    (h : d.onEvent fuel e = some d') : d'.Regular L := by
  rcases onEvent_of_regular hd he with ⟨p, hp, heq⟩ | ⟨-, heq⟩
  · obtain rfl := Option.some.inj (heq.symm.trans h)
    exact hd.keep (he.leads hp)
  · obtain rfl := Option.some.inj (heq.symm.trans h)
    exact ⟨(NetworkClient.state_greet _ e).trans hd.ready, hd.floor⟩

theorem finish_of_regular (hd : d.Regular L) :
    d.finish = match d.latestSnapshot with
      | some p => d.scene.settle p
      | none => some d.scene := by
  obtain ⟨scene, - | p, floor⟩ := d
  · rfl
  · obtain rfl : floor = p.targetTickFloor := (hd.floor p rfl).1
    rfl

theorem finish_keep (hd : d.Regular L) {p : SnapshotProto} (hp : p.Leads L) :
    (d.keep p).finish = d.finish.bind fun s => s.settle p := by
  obtain ⟨f, hf⟩ := NetworkClient.exists_tickFloor hd.ready
  rw [finish_of_regular (hd.keep hp), finish_of_regular hd, keep]
  rcases hlatest : d.latestSnapshot with - | q
  · rfl
  · rw [MatchScene.settle_bind_settle hf (hd.floor q hlatest).2 hp]
    by_cases h : q.tick < p.tick
    · simp [h]
    · simp [h, hlatest]

theorem finish_greet (hd : d.Regular L) (e : ENetEvent) :
    ({ d with scene.networkClient := d.scene.networkClient.greet e } : Drain).finish =
      d.finish.map fun s => { s with networkClient := s.networkClient.greet e } := by
  obtain ⟨f, hf⟩ := NetworkClient.exists_tickFloor hd.ready
  obtain ⟨scene, - | p, floor⟩ := d
  · rfl
  · have hf' : (scene.networkClient.greet e).tickFloor = some f := by simpa using hf
    simp only [finish, NetworkClient.observe_of_some hf, NetworkClient.observe_of_some hf',
      NetworkClient.setTickFloor_greet]
    rfl

/-- A drain leaves a ready client ready. -/
theorem ready_of_finish (hd : d.Regular L) {s : MatchScene} (h : d.finish = some s) :
    s.networkClient.state = .ready := by
  obtain ⟨f, hf⟩ := NetworkClient.exists_tickFloor hd.ready
  rw [finish_of_regular hd] at h
  rcases hlatest : d.latestSnapshot with - | p <;> rw [hlatest] at h
  · obtain rfl := Option.some.inj h
    exact hd.ready
  · obtain rfl := Option.some.inj ((MatchScene.settle_of_some hf p).symm.trans h)
    exact hd.ready

theorem regular_start {s : MatchScene} (hs : s.networkClient.state = .ready) :
    Regular L ⟨s, none, 0⟩ :=
  ⟨hs, by rintro p ⟨⟩⟩

end Drain

theorem process_of_ready {fuel : ℕ} {s : MatchScene} (hs : s.networkClient.state = .ready)
    (events : List ENetEvent) : process fuel s events =
      (events.foldlM (Drain.onEvent fuel) ⟨s, none, 0⟩).bind Drain.finish := by
  have h : s.networkClient.state ≠ .disconnected := by rw [hs]; decide
  rw [process, if_neg h]
  rfl

/-- A frame of one event : its snapshot is reported, or there is none. -/
theorem process_singleton {fuel : ℕ} {L : ℤ} {s : MatchScene}
    (hs : s.networkClient.state = .ready) {e : ENetEvent} (he : e.Orderly fuel L) :
    process fuel s [e] = match e.snapshot? fuel with
      | some p => s.settle p
      | none => some { s with networkClient := s.networkClient.greet e } := by
  rw [process_of_ready hs, List.foldlM_cons]
  rcases Drain.onEvent_of_regular (Drain.regular_start hs) he with ⟨p, hp, h⟩ | ⟨hp, h⟩ <;>
    rw [h, hp] <;> rfl

namespace Drain

variable {fuel : ℕ} {L : ℤ} {d d' : Drain} {e : ENetEvent}

/-- An event moves a drain as a frame of its own moves the scene the drain would finish in. -/
theorem bind_finish (hd : d.Regular L) (he : e.Orderly fuel L) :
    (d.onEvent fuel e).bind finish = d.finish.bind fun s => process fuel s [e] := by
  have hsingle : ∀ s, d.finish = some s → process fuel s [e] = match e.snapshot? fuel with
      | some p => s.settle p
      | none => some { s with networkClient := s.networkClient.greet e } :=
    fun s hs => process_singleton (ready_of_finish hd hs) he
  rw [Option.bind_congr hsingle]
  rcases onEvent_of_regular hd he with ⟨p, hsnap, h⟩ | ⟨hsnap, h⟩ <;>
    rw [h, hsnap, Option.bind_some]
  · exact finish_keep hd (he.leads hsnap)
  · rw [finish_greet hd, Option.map_eq_bind]
    rfl

/-- The rest of a drain goes through the frames of one event each. -/
theorem foldlM_bind_finish {events : List ENetEvent} (he : ∀ e ∈ events, e.Orderly fuel L) :
    ∀ {d : Drain}, d.Regular L → (events.foldlM (onEvent fuel) d).bind finish =
      d.finish.bind fun s => events.foldlM (fun s e => process fuel s [e]) s := by
  induction events with
  | nil =>
    intro d hd
    exact (Option.bind_fun_some d.finish).symm
  | cons e events ih =>
    intro d hd
    have ⟨he, hrest⟩ := List.forall_mem_cons.1 he
    have hframe : (d.finish.bind fun s => (e :: events).foldlM (fun s e => process fuel s [e]) s) =
        ((d.onEvent fuel e).bind finish).bind fun s =>
          events.foldlM (fun s e => process fuel s [e]) s := by
      rw [bind_finish hd he, Option.bind_assoc]
      rfl
    rw [hframe, List.foldlM_cons]
    rcases h : d.onEvent fuel e with - | d'
    · rfl
    · exact ih hrest (hd.onEvent he h)

end Drain

/-- A frame of a ready client goes through the frames of one event each. -/
theorem process_eq_foldlM {fuel : ℕ} {L : ℤ} {s : MatchScene}
    (hs : s.networkClient.state = .ready) {events : List ENetEvent}
    (he : ∀ e ∈ events, e.Orderly fuel L) :
    process fuel s events = events.foldlM (fun s e => process fuel s [e]) s := by
  rw [process_of_ready hs, Drain.foldlM_bind_finish he (Drain.regular_start hs)]
  rfl

/-! ## Handshake and input -/

namespace MatchScene

variable {fuel : ℕ} {s : MatchScene} {packet : PackedByteArray}

theorem handleControlPacket_of_connecting (hs : s.networkClient.state = .connecting)
    {welcome : ServerWelcome} (hdec : (decodeServerWelcome fuel packet).value? = some welcome) :
    ∃ t, s.handleControlPacket fuel packet = some t ∧ t.networkClient.state = .awaitingBaseline ∧
      t.networkClient.welcome = some welcome ∧
      t.networkClient.getTickFloor = welcome.targetTickFloor ∧ t.matchState = s.matchState := by
  rw [handleControlPacket]
  split
  · rw [hdec]
    exact ⟨_, rfl, rfl, rfl, rfl, rfl⟩
  all_goals exact absurd (hs.symm.trans ‹_›) (by decide)

theorem handleControlPacket_of_awaitingBaseline
    (hs : s.networkClient.state = .awaitingBaseline) {welcome : ServerWelcome}
    (hwelcome : s.networkClient.welcome = some welcome) {baseline : JoinBaseline}
    (hdec : (decodeJoinBaseline fuel packet).value? = some baseline) :
    ∃ t, s.handleControlPacket fuel packet = some t ∧ t.networkClient.state = .ready ∧
      t.networkClient.getTickFloor = s.networkClient.getTickFloor ∧
      t.matchState = ⟨welcome.controlledEntityId, baseline.tick,
        MatchState.entitiesOf baseline.entities⟩ := by
  rw [handleControlPacket]
  split
  · exact absurd (hs.symm.trans ‹_›) (by decide)
  · rw [hdec]
    simp only [onBaselineReceived, hwelcome]
    exact ⟨_, rfl, rfl, rfl, rfl⟩
  all_goals exact absurd (hs.symm.trans ‹_›) (by decide)

end MatchScene

/-- The welcome and the baseline make a client ready, the baseline shown. -/
theorem process_handshake {fuel : ℕ} {s : MatchScene} (hs : s.networkClient.state = .connecting)
    {welcomePacket baselinePacket : PackedByteArray} {welcome : ServerWelcome}
    {baseline : JoinBaseline}
    (hwelcome : (decodeServerWelcome fuel welcomePacket).value? = some welcome)
    (hbaseline : (decodeJoinBaseline fuel baselinePacket).value? = some baseline) :
    ∃ t, process fuel s [.receive channelControl welcomePacket,
        .receive channelControl baselinePacket] = some t ∧ t.networkClient.state = .ready ∧
      t.networkClient.getTickFloor = welcome.targetTickFloor ∧
      t.matchState = ⟨welcome.controlledEntityId, baseline.tick,
        MatchState.entitiesOf baseline.entities⟩ := by
  obtain ⟨t, ht, hstate, htwelcome, hfloor, -⟩ :=
    MatchScene.handleControlPacket_of_connecting hs hwelcome
  obtain ⟨u, hu, hready, hufloor, humatch⟩ :=
    MatchScene.handleControlPacket_of_awaitingBaseline hstate htwelcome hbaseline
  refine ⟨u, ?_, hready, hufloor.trans hfloor, humatch⟩
  have hne : s.networkClient.state ≠ .disconnected := by rw [hs]; decide
  rw [process, if_neg hne]
  simp [Drain.onEvent, ht, hu, Drain.finish]

/-- What a ready client sends for its player targets the floor. -/
theorem onMoveDirChanged_of_ready {s : MatchScene} (hs : s.networkClient.state = .ready)
    (moveDir : PackedFloat64Array) : ∃ t, s.onMoveDirChanged moveDir = some t ∧
      t.networkClient.sent = s.networkClient.sent ++ [⟨channelRealtime, encodeInputCmdProto
        ⟨s.networkClient.getTickFloor, s.networkClient.inputSeq.seq + 1, moveDir⟩, 0⟩] ∧
      t.networkClient.inputSeq.seq = s.networkClient.inputSeq.seq + 1 := by
  obtain ⟨f, hf⟩ := NetworkClient.exists_tickFloor hs
  have hfloor : s.networkClient.getTickFloor = f.floor := by
    rw [NetworkClient.getTickFloor, hf]
    rfl
  have hmax : max f.getFloor f.floor = f.floor := by
    rw [← Int64.toInt_inj, toInt_max]
    exact max_self _
  have hready : s.networkClient.isReady = true := decide_eq_true hs
  have hsend : s.networkClient.sendInput moveDir f.floor =
      some ({ s.networkClient with inputSeq := ⟨s.networkClient.inputSeq.seq + 1⟩ }.send
        channelRealtime (encodeInputCmdProto
          ⟨f.floor, s.networkClient.inputSeq.seq + 1, moveDir⟩) 0) := by
    simp [NetworkClient.sendInput, hs, hf, hmax, InputSeqGen.advance]
  rw [MatchScene.onMoveDirChanged, if_pos hready, hfloor, hsend]
  exact ⟨_, rfl, rfl, rfl⟩

/-! ## Frames -/

/-- The snapshots that events deliver. -/
def delivered (fuel : ℕ) (events : List ENetEvent) : List SnapshotProto :=
  events.filterMap (ENetEvent.snapshot? fuel)

theorem delivered_concat (fuel : ℕ) (events : List ENetEvent) (e : ENetEvent) :
    delivered fuel (events ++ [e]) = delivered fuel events ++ (e.snapshot? fuel).toList := by
  rw [delivered, List.filterMap_append, delivered]
  rcases h : e.snapshot? fuel <;> simp [h]

/-- A ready scene once `snapshots` have arrived in it. -/
structure MatchScene.Shows (L : ℤ) (s : MatchScene) (snapshots : List SnapshotProto)
    (t : MatchScene) : Prop where
  ready : t.networkClient.state = .ready
  matchState : t.matchState = s.matchState.newest snapshots
  floor : t.networkClient.getTickFloor.toInt =
    newestFloor L s.networkClient.getTickFloor.toInt snapshots

theorem MatchScene.Shows.settle {L : ℤ} {s t : MatchScene} {snapshots : List SnapshotProto}
    (h : s.Shows L snapshots t) {p : SnapshotProto} (hp : p.Leads L) :
    ∃ u, t.settle p = some u ∧ s.Shows L (snapshots ++ [p]) u := by
  obtain ⟨f, hf⟩ := NetworkClient.exists_tickFloor h.ready
  refine ⟨_, MatchScene.settle_of_some hf p, h.ready, ?_, ?_⟩
  · rw [MatchState.newest_concat, h.matchState]
  · have hfloor : f.floor.toInt = newestFloor L s.networkClient.getTickFloor.toInt snapshots := by
      rw [← h.floor, NetworkClient.getTickFloor, hf]
      rfl
    rw [newestFloor_concat, ← hfloor, ← hp]
    exact toInt_max f.floor p.targetTickFloor

theorem MatchScene.Shows.greet {L : ℤ} {s t : MatchScene} {snapshots : List SnapshotProto}
    (h : s.Shows L snapshots t) (e : ENetEvent) :
    s.Shows L snapshots { t with networkClient := t.networkClient.greet e } := by
  refine ⟨(NetworkClient.state_greet _ e).trans h.ready, h.matchState, ?_⟩
  rw [← h.floor, NetworkClient.getTickFloor, NetworkClient.getTickFloor,
    NetworkClient.tickFloor_greet]

section play

variable {fuel : ℕ} {L : ℤ} {s : MatchScene}

/-- A drain brings the newest of its snapshots. -/
theorem exists_process (hs : s.networkClient.state = .ready) {events : List ENetEvent}
    (he : ∀ e ∈ events, e.Orderly fuel L) :
    ∃ t, process fuel s events = some t ∧ s.Shows L (delivered fuel events) t := by
  rw [process_eq_foldlM hs he]
  induction events using List.reverseRecOn with
  | nil => exact ⟨s, rfl, hs, rfl, rfl⟩
  | append_singleton events e ih =>
    have he' := fun e' h => he e' (List.mem_append_left [e] h)
    obtain ⟨t, ht, hshows⟩ := ih he'
    have hlast := he e (List.mem_append_right events (List.mem_singleton_self e))
    rw [List.foldlM_append, ht, Option.bind_eq_bind, Option.bind_some, List.foldlM_cons,
      process_singleton hshows.ready hlast, delivered_concat]
    rcases hsnap : e.snapshot? fuel with - | p
    · exact ⟨_, rfl, by simpa using hshows.greet e⟩
    · obtain ⟨u, hu, hshows'⟩ := hshows.settle (hlast.leads hsnap)
      exact ⟨u, by simp [hu], hshows'⟩

/-- Any frames end where one frame of all their events ends. -/
theorem play_eq_process : ∀ {frames : List (List ENetEvent)} {s : MatchScene},
    s.networkClient.state = .ready → (∀ e ∈ frames.flatten, e.Orderly fuel L) →
      play fuel s frames = process fuel s frames.flatten
  | [], s, hs, he => (process_eq_foldlM hs he).symm
  | frame :: frames, s, hs, he => by
    have ⟨hframe, hframes⟩ := List.forall_mem_append.1 he
    obtain ⟨t, ht, hshows⟩ := exists_process hs hframe
    have hsplit : process fuel s (frame :: frames).flatten =
        (process fuel s frame).bind fun t => process fuel t frames.flatten := by
      rw [process_eq_foldlM hs he, List.flatten_cons, List.foldlM_append,
        ← process_eq_foldlM hs hframe, ht, Option.bind_some,
        process_eq_foldlM hshows.ready hframes]
      rfl
    rw [hsplit, ht, Option.bind_some, ← play_eq_process hshows.ready hframes, play,
      List.foldlM_cons, ht]
    rfl

/-- Nothing that the client keeps depends on how the events fall into frames : it ends as if
each had a frame of its own, with the first of the newest snapshots shown if it is newer
than the baseline, and the floor raised to its tick and `L`. The latest tick never falls. -/
theorem play_frames (hs : s.networkClient.state = .ready) {frames : List (List ENetEvent)}
    (he : ∀ e ∈ frames.flatten, e.Orderly fuel L) :
    ∃ t, play fuel s frames = some t ∧
      play fuel s (frames.flatten.map fun e => [e]) = some t ∧
      (delivered fuel frames.flatten = [] → t.matchState = s.matchState ∧
        t.networkClient.getTickFloor = s.networkClient.getTickFloor) ∧
      (∀ before p after, delivered fuel frames.flatten = before ++ p :: after →
        (∀ q ∈ before, q.tick < p.tick) → (∀ q ∈ after, q.tick ≤ p.tick) →
          t.matchState =
            (if s.matchState.latestTick < p.tick then s.matchState.shown p else s.matchState) ∧
          t.networkClient.getTickFloor.toInt =
            max s.networkClient.getTickFloor.toInt (p.tick.toInt + L)) ∧
      ∀ before frame after, frames = before ++ frame :: after →
        ∃ u v, play fuel s before = some u ∧ process fuel u frame = some v ∧
          u.matchState.latestTick ≤ v.matchState.latestTick := by
  obtain ⟨t, ht, hshows⟩ := exists_process hs he
  have hsingle : (frames.flatten.map fun e => [e]).flatten = frames.flatten := by
    rw [← List.flatMap_def, List.flatMap_singleton']
  refine ⟨t, (play_eq_process hs he).trans ht, ?_, fun hnil => ?_, ?_, ?_⟩
  · rw [play_eq_process hs (hsingle ▸ he), hsingle, ht]
  · rw [hnil] at hshows
    exact ⟨hshows.matchState, Int64.toInt_inj.1 hshows.floor⟩
  · intro before p after hsplit hbefore hafter
    have hmatch := hshows.matchState
    have hfloor := hshows.floor
    rw [hsplit, MatchState.newest, newestSnapshot_of_split hbefore hafter] at hmatch
    rw [hsplit, newestFloor, newestSnapshot_of_split hbefore hafter] at hfloor
    exact ⟨hmatch, hfloor⟩
  · rintro before frame after rfl
    rw [List.flatten_append, List.forall_mem_append, List.flatten_cons,
      List.forall_mem_append] at he
    obtain ⟨u, hu, hbefore⟩ := exists_process hs he.1
    obtain ⟨v, hv, hframe⟩ := exists_process hbefore.ready he.2.1
    refine ⟨u, v, (play_eq_process hs he.1).trans hu, hv, ?_⟩
    rw [hframe.matchState]
    exact MatchState.latestTick_le_newest _ _

end play

/-- The snapshots of ticks 7, 5 and 6 in two frames : the last one is stale. -/
theorem play_frames_reordered : ∃ s t,
    process 64 ⟨NetworkClient.new.connectToServer, MatchState.new⟩
      [.receive channelControl [8, 2, 16, 60], .receive channelControl [8, 1]] = some s ∧
    play 64 s [[.receive channelRealtime [8, 7, 32, 9], .receive channelRealtime [8, 5, 32, 7]],
      [.connect, .receive channelRealtime [8, 6, 32, 8]]] = some t ∧
    t.matchState.latestTick = 7 ∧ t.networkClient.getTickFloor = 9 := by
  have hwelcome : (decodeServerWelcome 64 [8, 2, 16, 60]).value? = some ⟨2, 60, 0, 0⟩ := by decide
  have hbaseline : (decodeJoinBaseline 64 [8, 1]).value? = some ⟨1, [], 0⟩ := by decide
  obtain ⟨s, hs, hready, hfloor, hstate⟩ :=
    process_handshake (s := ⟨NetworkClient.new.connectToServer, MatchState.new⟩) rfl hwelcome
      hbaseline
  have hframes : ∀ e ∈ [[ENetEvent.receive channelRealtime [8, 7, 32, 9],
      .receive channelRealtime [8, 5, 32, 7]],
      [.connect, .receive channelRealtime [8, 6, 32, 8]]].flatten, e.Orderly 64 2 := by
    have h7 : (decodeSnapshotProto 64 [8, 7, 32, 9]).value? = some ⟨7, [], 0, 9⟩ := by decide
    have h5 : (decodeSnapshotProto 64 [8, 5, 32, 7]).value? = some ⟨5, [], 0, 7⟩ := by decide
    have h6 : (decodeSnapshotProto 64 [8, 6, 32, 8]).value? = some ⟨6, [], 0, 8⟩ := by decide
    have hconnect : ENetEvent.connect.Orderly 64 2 := ⟨by decide, by rintro _ ⟨⟩⟩
    simp only [List.flatten_cons, List.flatten_nil, List.append_nil, List.cons_append,
      List.nil_append, List.forall_mem_cons, List.not_mem_nil, false_imp_iff, implies_true,
      and_true]
    exact ⟨ENetEvent.orderly_receive h7 rfl, ENetEvent.orderly_receive h5 rfl, hconnect,
      ENetEvent.orderly_receive h6 rfl⟩
  obtain ⟨t, ht, -, -, hnewest, -⟩ := play_frames hready hframes
  obtain ⟨hmatch, htfloor⟩ := hnewest [] ⟨7, [], 0, 9⟩ [⟨5, [], 0, 7⟩, ⟨6, [], 0, 8⟩] (by decide)
    (by simp) (by decide)
  refine ⟨s, t, hs, ht, ?_, ?_⟩
  · rw [hmatch, hstate]
    decide
  · rw [hfloor] at htfloor
    rw [← Int64.toInt_inj, htfloor]
    decide

end Flowstate.Godot
