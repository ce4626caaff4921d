import Flowstate.Format
import Flowstate.Frames

/-!
# A connection of the Godot client

What a client is sent over its connection, and what the transport makes of it : the control
channel brings the welcome and the baseline in their order, the realtime channel any of the
snapshots any number of times, and the connection may break at any point, within a frame,
too. Wherever the handshake stands (`Stage`), every frame goes through without a script error
and leaves the client where the handshake can go on, showing nothing that it was not sent
(`Stage.frame`).
-/

namespace Flowstate.Godot

open WireCodec Channels

/-! ## Transport -/

/-- What the transport brings a client next. -/
inductive Arrival
  | connect
  /-- The next packet of the control channel. -/
  | control
  /-- Any packet of the realtime channel. -/
  | realtime (k : ℕ)
  | disconnect
  | error
deriving DecidableEq

/-- The event of an arrival, and what remains on the control channel. -/
def Arrival.event (feed control : List PackedByteArray) :
    Arrival → Option (ENetEvent × List PackedByteArray)
  | .connect => some (.connect, control)
  | .control =>
    match control with
    | [] => none
    | packet :: control => some (.receive channelControl packet, control)
  | .realtime k => feed[k]?.map fun packet => (.receive channelRealtime packet, control)
  | .disconnect => some (.disconnect, control)
  | .error => some (.error, control)

/-- The events of a frame, and what remains on the control channel. -/
def deliver (feed : List PackedByteArray) :
    List PackedByteArray → List Arrival → Option (List ENetEvent × List PackedByteArray)
  | control, [] => some ([], control)
  | control, arrival :: arrivals => do
    let (e, control) ← arrival.event feed control
    let (events, control) ← deliver feed control arrivals
    return (e :: events, control)

/-- The bytes of an event. -/
def ENetEvent.size : ENetEvent → ℕ
  | .receive _ packet => packet.length
  | _ => 0

/-- Rounds enough for every packet of a frame. -/
def frameFuel (events : List ENetEvent) : ℕ := (events.map ENetEvent.size).sum

theorem size_le_frameFuel {events : List ENetEvent} {e : ENetEvent} (he : e ∈ events) :
    e.size ≤ frameFuel events :=
  List.single_le_sum (fun _ _ => Nat.zero_le _) _ (List.mem_map_of_mem he)

/-! ## Handshake -/

/-- What the server sends a client that it accepts. -/
structure Greeting where
  welcome : ServerWelcome
  baseline : JoinBaseline

namespace Greeting

/-- The packets of a greeting, in the order in which they are sent. -/
def packets (g : Greeting) : List PackedByteArray :=
  [encodeServerWelcome g.welcome, encodeJoinBaseline g.baseline]

/-- The packets are no longer than an array can be. -/
def Fits (g : Greeting) : Prop := ∀ packet ∈ g.packets, packet.length < 2 ^ 63

/-- The first floor leads the tick of the baseline by `L`. -/
def Leads (L : ℤ) (g : Greeting) : Prop :=
  g.welcome.targetTickFloor.toInt = g.baseline.tick.toInt + L

end Greeting

/-- A scene that shows what it was sent : the baseline, or a snapshot newer than that. Where
every message leads its tick by `L`, the floor leads the tick shown. -/
structure MatchScene.Mirrors (L : ℤ) (g : Greeting) (feed : List SnapshotProto)
    (s : MatchScene) : Prop where
  controlled : s.matchState.controlledEntityId = g.welcome.controlledEntityId
  source : (s.matchState.latestTick = g.baseline.tick ∧
      s.matchState.entities = MatchState.entitiesOf g.baseline.entities) ∨
    ∃ p ∈ feed, g.baseline.tick < p.tick ∧ s.matchState.latestTick = p.tick ∧
      s.matchState.entities = MatchState.entitiesOf p.entities
  floor : ∃ f, s.networkClient.tickFloor = some f ∧
    (g.Leads L → (∀ p ∈ feed, p.Leads L) → f.floor.toInt = s.matchState.latestTick.toInt + L)

/-- Where the handshake stands : what the client was sent, what of it is still under way, and
the scene. -/
inductive Stage (L : ℤ) (feed : List SnapshotProto) :
    Option Greeting → List PackedByteArray → MatchScene → Prop
  | fresh {s : MatchScene} (hs : s.networkClient.state = .connecting)
      (hm : s.matchState = .new) : Stage L feed none [] s
  | invited {s : MatchScene} {g : Greeting} (hs : s.networkClient.state = .connecting)
      (hm : s.matchState = .new) : Stage L feed (some g) g.packets s
  | welcomed {s : MatchScene} {g : Greeting} (hs : s.networkClient.state = .awaitingBaseline)
      (hwelcome : s.networkClient.welcome = some g.welcome)
      (hfloor : s.networkClient.tickFloor = some ⟨g.welcome.targetTickFloor⟩)
      (hm : s.matchState = .new) : Stage L feed (some g) [encodeJoinBaseline g.baseline] s
  | ready {s : MatchScene} {g : Greeting} (hs : s.networkClient.state = .ready)
      (hshown : s.Mirrors L g feed) : Stage L feed (some g) [] s
  /-- Gone before it was ready. -/
  | missed {s : MatchScene} {g : Option Greeting} {control : List PackedByteArray}
      (hs : s.networkClient.state = .disconnected) (hm : s.matchState = .new) :
      Stage L feed g control s
  | left {s : MatchScene} {g : Greeting} {control : List PackedByteArray}
      (hs : s.networkClient.state = .disconnected) (hshown : s.Mirrors L g feed) :
      Stage L feed (some g) control s

variable {L : ℤ} {g : Greeting} {feed : List SnapshotProto} {s : MatchScene}

namespace MatchScene.Mirrors

/-- Reporting a snapshot shows it, unless what is shown is as new. -/
theorem settle (h : s.Mirrors L g feed) {p : SnapshotProto} (hp : p ∈ feed) :
    ∃ t, s.settle p = some t ∧ t.Mirrors L g feed ∧
      t.networkClient.state = s.networkClient.state := by
  obtain ⟨f, hf, hfloor⟩ := h.floor
  refine ⟨_, MatchScene.settle_of_some hf p, ?_, rfl⟩
  rcases Int64.lt_or_le s.matchState.latestTick p.tick with hlt | hle
  · have hbaseline : g.baseline.tick < p.tick := by
      rcases h.source with ⟨htick, -⟩ | ⟨q, -, hq, htick, -⟩
      · exact htick ▸ hlt
      · exact Int64.lt_trans (htick ▸ hq) hlt
    refine ⟨?_, .inr ⟨p, hp, hbaseline, ?_, ?_⟩, ?_⟩
    · rw [MatchState.applySnapshot_of_lt hlt]
      exact h.controlled
    · rw [MatchState.applySnapshot_of_lt hlt]
      rfl
    · rw [MatchState.applySnapshot_of_lt hlt]
      rfl
    · refine ⟨_, rfl, fun hg hfeed => ?_⟩
      have hold := hfloor hg hfeed
      have hnew : p.targetTickFloor.toInt = p.tick.toInt + L := hfeed p hp
      rw [Int64.lt_iff_toInt_lt] at hlt
      rw [TickFloor.observe, toInt_max, MatchState.toInt_latestTick_applySnapshot, hold, hnew]
      omega
  · refine ⟨?_, ?_, ?_⟩
    · rw [MatchState.applySnapshot_of_le hle]
      exact h.controlled
    · rw [MatchState.applySnapshot_of_le hle]
      exact h.source
    · refine ⟨_, rfl, fun hg hfeed => ?_⟩
      have hold := hfloor hg hfeed
      have hnew : p.targetTickFloor.toInt = p.tick.toInt + L := hfeed p hp
      rw [Int64.le_iff_toInt_le] at hle
      rw [TickFloor.observe, toInt_max, MatchState.toInt_latestTick_applySnapshot, hold, hnew]
      omega

theorem congr {t : MatchScene} (h : s.Mirrors L g feed)
    (hfloor : t.networkClient.tickFloor = s.networkClient.tickFloor)
    (hm : t.matchState = s.matchState) : t.Mirrors L g feed := by
  obtain ⟨hcontrolled, hsource, hf⟩ := h
  rw [← hm] at hcontrolled hsource hf
  rw [← hfloor] at hf
  exact ⟨hcontrolled, hsource, hf⟩

/-- The server goes on broadcasting. -/
theorem mono {feed' : List SnapshotProto} (h : s.Mirrors L g feed) (hfeed : feed ⊆ feed') :
    s.Mirrors L g feed' := by
  obtain ⟨f, hf, hfloor⟩ := h.floor
  refine ⟨h.controlled, h.source.imp_right ?_,
    f, hf, fun hg hleads => hfloor hg fun p hp => hleads p (hfeed hp)⟩
  rintro ⟨p, hp, hrest⟩
  exact ⟨p, hfeed hp, hrest⟩

end MatchScene.Mirrors

namespace Stage

variable {sent : Option Greeting} {control : List PackedByteArray}

/-- Only the state of the client, its welcome, its floor and what is shown matter. -/
theorem congr {t : MatchScene} (h : Stage L feed sent control s)
    (hs : t.networkClient.state = s.networkClient.state)
    (hwelcome : t.networkClient.welcome = s.networkClient.welcome)
    (hfloor : t.networkClient.tickFloor = s.networkClient.tickFloor)
    (hm : t.matchState = s.matchState) : Stage L feed sent control t := by
  cases h with
  | fresh hs' hm' => exact .fresh (hs.trans hs') (hm.trans hm')
  | invited hs' hm' => exact .invited (hs.trans hs') (hm.trans hm')
  | welcomed hs' hwelcome' hfloor' hm' =>
    exact .welcomed (hs.trans hs') (hwelcome.trans hwelcome') (hfloor.trans hfloor') (hm.trans hm')
  | ready hs' hshown => exact .ready (hs.trans hs') (hshown.congr hfloor hm)
  | missed hs' hm' => exact .missed (hs.trans hs') (hm.trans hm')
  | left hs' hshown => exact .left (hs.trans hs') (hshown.congr hfloor hm)

theorem mono {feed' : List SnapshotProto} (h : Stage L feed sent control s)
    (hfeed : feed ⊆ feed') : Stage L feed' sent control s := by
  cases h with
  | fresh hs hm => exact .fresh hs hm
  | invited hs hm => exact .invited hs hm
  | welcomed hs hwelcome hfloor hm => exact .welcomed hs hwelcome hfloor hm
  | ready hs hshown => exact .ready hs (hshown.mono hfeed)
  | missed hs hm => exact .missed hs hm
  | left hs hshown => exact .left hs (hshown.mono hfeed)

/-- The server accepts the client. -/
theorem greet (h : Stage L feed none control s) (g : Greeting) :
    Stage L feed (some g) (control ++ g.packets) s := by
  cases h with
  | fresh hs hm => exact .invited hs hm
  | missed hs hm => exact .missed hs hm

theorem new : Stage L feed none [] ⟨NetworkClient.new.connectToServer, .new⟩ :=
  .fresh rfl rfl

/-- The player moves. -/
theorem move (h : Stage L feed sent control s) (moveDir : PackedFloat64Array) :
    ∃ t, s.onMoveDirChanged moveDir = some t ∧ Stage L feed sent control t := by
  by_cases hs : s.networkClient.state = .ready
  · obtain ⟨f, hf⟩ := NetworkClient.exists_tickFloor hs
    have hready : s.networkClient.isReady = true := decide_eq_true hs
    have hsend : s.networkClient.sendInput moveDir s.networkClient.getTickFloor =
        some ({ s.networkClient with inputSeq := ⟨s.networkClient.inputSeq.seq + 1⟩ }.send
          channelRealtime (encodeInputCmdProto ⟨max f.getFloor s.networkClient.getTickFloor,
            s.networkClient.inputSeq.seq + 1, moveDir⟩) 0) := by
      simp [NetworkClient.sendInput, hs, hf, InputSeqGen.advance]
    rw [MatchScene.onMoveDirChanged, if_pos hready, hsend]
    exact ⟨_, rfl, h.congr rfl rfl rfl rfl⟩
  · have hready : ¬s.networkClient.isReady = true := fun h => hs (of_decide_eq_true h)
    exact ⟨s, if_neg hready, h⟩

/-- A ready client was accepted, and shows what it was sent. -/
theorem mirrors_of_ready (h : Stage L feed sent control s) (hs : s.networkClient.state = .ready) :
    ∃ g, sent = some g ∧ control = [] ∧ s.Mirrors L g feed := by
  cases h with
  | ready _ hshown => exact ⟨_, rfl, rfl, hshown⟩
  | fresh hs' | invited hs' | welcomed hs' | missed hs' | left hs' =>
    exact absurd (hs.symm.trans hs') (by decide)

end Stage

/-! ## A drain under way -/

/-- A drain of a client at a stage. A snapshot is kept only once there is something to show. -/
structure Drain.Sound (L : ℤ) (feed : List SnapshotProto) (sent : Option Greeting)
    (control : List PackedByteArray) (d : Drain) : Prop where
  stage : Stage L feed sent control d.scene
  kept : ∀ p, d.latestSnapshot = some p → p ∈ feed ∧ d.latestSnapshotFloor = p.targetTickFloor ∧
    control = [] ∧ ∃ g, sent = some g ∧ d.scene.Mirrors L g feed

namespace Drain.Sound

variable {sent : Option Greeting} {control rest : List PackedByteArray} {d : Drain} {fuel : ℕ}

theorem of_scene {scene : MatchScene} (h : d.Sound L feed sent control)
    (hstage : Stage L feed sent control scene)
    (hmirrors : ∀ g, d.scene.Mirrors L g feed → scene.Mirrors L g feed) :
    Sound L feed sent control { d with scene } := by
  refine ⟨hstage, fun p hp => ?_⟩
  obtain ⟨hmem, hfloor, hnil, g, hsent, hshown⟩ := h.kept p hp
  exact ⟨hmem, hfloor, hnil, g, hsent, hmirrors g hshown⟩

theorem connect (h : d.Sound L feed sent control) :
    Sound L feed sent control
      { d with scene.networkClient := d.scene.networkClient.onConnect } := by
  have hsame : d.scene.networkClient.onConnect.state = d.scene.networkClient.state ∧
      d.scene.networkClient.onConnect.welcome = d.scene.networkClient.welcome ∧
      d.scene.networkClient.onConnect.tickFloor = d.scene.networkClient.tickFloor := by
    rw [NetworkClient.onConnect]
    split_ifs <;> exact ⟨rfl, rfl, rfl⟩
  obtain ⟨hs, hwelcome, hfloor⟩ := hsame
  exact h.of_scene (h.stage.congr hs hwelcome hfloor rfl) fun g hshown => hshown.congr hfloor rfl

theorem disconnect (h : d.Sound L feed sent control) :
    Sound L feed sent control
      { d with scene.networkClient := d.scene.networkClient.onDisconnect } := by
  refine h.of_scene ?_ fun g hshown => hshown.congr rfl rfl
  cases h.stage with
  | fresh hs hm | invited hs hm | welcomed hs _ _ hm | missed hs hm => exact .missed rfl hm
  | ready hs hshown | left hs hshown => exact .left rfl (hshown.congr rfl rfl)

/-- A snapshot arrives : it is kept if the client is ready and has none as new. -/
theorem realtime (h : d.Sound L feed sent control) {p : SnapshotProto} (hp : p ∈ feed)
    (hfuel : (encodeSnapshotProto p).length ≤ fuel) (hlen : (encodeSnapshotProto p).length < 2 ^ 63) :
    ∃ d', d.onEvent fuel (.receive channelRealtime (encodeSnapshotProto p)) = some d' ∧
      d'.Sound L feed sent control := by
  have hchannel : channelRealtime ≠ channelControl := by decide
  by_cases hs : d.scene.networkClient.state = .ready
  · refine ⟨d.keep p, ?_, ?_⟩
    · rw [Drain.onEvent, if_neg hchannel, if_pos ⟨rfl, hs⟩, decode_encodeSnapshotProto p hfuel hlen]
      rfl
    · rw [Drain.keep]
      split_ifs
      · obtain ⟨g, hsent, hnil, hshown⟩ := h.stage.mirrors_of_ready hs
        refine ⟨h.stage, fun q hq => ?_⟩
        obtain rfl := Option.some.inj hq
        exact ⟨hp, rfl, hnil, g, hsent, hshown⟩
      · exact h
  · refine ⟨d, ?_, h⟩
    rw [Drain.onEvent, if_neg hchannel, if_neg fun hready => hs hready.2]

/-- A packet of the control channel takes the handshake on, unless the client has gone. -/
theorem handshake {packet : PackedByteArray} (h : d.Sound L feed sent (packet :: rest))
    (hfuel : packet.length ≤ fuel) (hfits : ∀ g, sent = some g → g.Fits) :
    ∃ d', d.onEvent fuel (.receive channelControl packet) = some d' ∧
      d'.Sound L feed sent rest := by
  -- nothing is kept before the client is ready
  have hscene : ∀ scene, d.scene.handleControlPacket fuel packet = some scene →
      Stage L feed sent rest scene →
      ∃ d', d.onEvent fuel (.receive channelControl packet) = some d' ∧
        d'.Sound L feed sent rest := by
    intro scene hscene hstage
    refine ⟨{ d with scene }, ?_, hstage, fun p hp => ?_⟩
    · rw [Drain.onEvent, if_pos rfl, hscene]
      rfl
    · obtain ⟨-, -, hnil, -⟩ := h.kept p hp
      cases hnil
  generalize hcontrol : packet :: rest = control at h
  have hgone : d.scene.networkClient.state = .disconnected →
      d.scene.handleControlPacket fuel packet = some d.scene := by
    intro hs
    rw [MatchScene.handleControlPacket]
    split
    · exact absurd (hs.symm.trans ‹_›) (by decide)
    · exact absurd (hs.symm.trans ‹_›) (by decide)
    · rfl
    · rfl
  cases h.stage with
  | fresh | ready => cases hcontrol
  | @invited _ g hs hm =>
    obtain ⟨rfl, rfl⟩ := List.cons.inj hcontrol
    have hlen := hfits g rfl _ List.mem_cons_self
    obtain ⟨t, ht, hstate, hwelcome, hfloor, hmatch⟩ :=
      MatchScene.handleControlPacket_of_connecting hs (decode_encodeServerWelcome _ hfuel hlen)
    obtain ⟨f, hf⟩ := Option.isSome_iff_exists.1 (t.networkClient.welcomed (.inl hstate)).1
    obtain rfl : f = ⟨g.welcome.targetTickFloor⟩ := by
      rw [NetworkClient.getTickFloor, hf] at hfloor
      exact congrArg TickFloor.mk hfloor
    exact hscene t ht (.welcomed hstate hwelcome hf (hmatch.trans hm))
  | @welcomed _ g hs hwelcome hfloor hm =>
    obtain ⟨rfl, rfl⟩ := List.cons.inj hcontrol
    have hlen := hfits g rfl _ (List.mem_cons_of_mem _ List.mem_cons_self)
    obtain ⟨t, ht, hstate, hsame, hmatch⟩ :=
      MatchScene.handleControlPacket_of_awaitingBaseline hs hwelcome
        (decode_encodeJoinBaseline _ hfuel hlen)
    obtain ⟨f, hf⟩ := NetworkClient.exists_tickFloor hstate
    rw [NetworkClient.getTickFloor, NetworkClient.getTickFloor, hf, hfloor] at hsame
    refine hscene t ht (.ready hstate ⟨?_, .inl ?_, f, hf, fun hg _ => ?_⟩)
    · rw [hmatch]
    · rw [hmatch]
      exact ⟨rfl, rfl⟩
    · have hfloor' : f.floor = g.welcome.targetTickFloor := hsame
      rw [hmatch, hfloor']
      exact hg
  | missed hs hm => exact hscene d.scene (hgone hs) (.missed hs hm)
  | left hs hshown => exact hscene d.scene (hgone hs) (.left hs hshown)

/-- What an arrival does to a drain. -/
theorem onEvent (h : d.Sound L feed sent control) (hfits : ∀ g, sent = some g → g.Fits)
    (hfeed : ∀ p ∈ feed, (encodeSnapshotProto p).length < 2 ^ 63) {arrival : Arrival}
    {e : ENetEvent} (he : arrival.event (feed.map encodeSnapshotProto) control = some (e, rest))
    (hfuel : e.size ≤ fuel) :
    ∃ d', d.onEvent fuel e = some d' ∧ d'.Sound L feed sent rest := by
  cases arrival with
  | connect =>
    obtain ⟨rfl, rfl⟩ := Prod.mk.inj (Option.some.inj he)
    exact ⟨_, rfl, h.connect⟩
  | control =>
    rcases control with _ | ⟨packet, control⟩
    · cases he
    · obtain ⟨rfl, rfl⟩ := Prod.mk.inj (Option.some.inj he)
      exact h.handshake hfuel hfits
  | realtime k =>
    obtain ⟨packet, hk, hpair⟩ := Option.map_eq_some_iff.1 he
    obtain ⟨rfl, rfl⟩ := Prod.mk.inj hpair
    obtain ⟨p, hp, rfl⟩ := List.mem_map.1 (List.mem_of_getElem? hk)
    exact h.realtime hp hfuel (hfeed p hp)
  | disconnect =>
    obtain ⟨rfl, rfl⟩ := Prod.mk.inj (Option.some.inj he)
    exact ⟨_, rfl, h.disconnect⟩
  | error =>
    obtain ⟨rfl, rfl⟩ := Prod.mk.inj (Option.some.inj he)
    exact ⟨d, rfl, h⟩

/-- What the arrivals of a frame do to a drain. -/
theorem foldlM (hfits : ∀ g, sent = some g → g.Fits)
    (hfeed : ∀ p ∈ feed, (encodeSnapshotProto p).length < 2 ^ 63) :
    ∀ {arrivals : List Arrival} {control rest : List PackedByteArray} {events : List ENetEvent}
      {d : Drain}, d.Sound L feed sent control →
      deliver (feed.map encodeSnapshotProto) control arrivals = some (events, rest) →
      (∀ e ∈ events, e.size ≤ fuel) →
      ∃ d', events.foldlM (Drain.onEvent fuel) d = some d' ∧ d'.Sound L feed sent rest
  | [], control, rest, events, d, h, hdeliver, _ => by
    obtain ⟨rfl, rfl⟩ := Prod.mk.inj (Option.some.inj hdeliver)
    exact ⟨d, rfl, h⟩
  | arrival :: arrivals, control, rest, events, d, h, hdeliver, hfuel => by
    obtain ⟨⟨e, next⟩, he, hdeliver⟩ := Option.bind_eq_some_iff.1 hdeliver
    obtain ⟨⟨more, rest'⟩, hmore, hdeliver⟩ := Option.bind_eq_some_iff.1 hdeliver
    obtain ⟨rfl, rfl⟩ := Prod.mk.inj (Option.some.inj hdeliver)
    have ⟨hsize, hsizes⟩ := List.forall_mem_cons.1 hfuel
    obtain ⟨d₁, hd₁, h₁⟩ := h.onEvent hfits hfeed he hsize
    obtain ⟨d₂, hd₂, h₂⟩ := foldlM hfits hfeed h₁ hmore hsizes
    refine ⟨d₂, ?_, h₂⟩
    rw [List.foldlM_cons, hd₁]
    exact hd₂

/-- The end of a drain reports the snapshot kept. -/
theorem finish (h : d.Sound L feed sent control) :
    ∃ t, d.finish = some t ∧ Stage L feed sent control t := by
  obtain ⟨scene, latest, floor⟩ := d
  rcases latest with - | p
  · exact ⟨scene, rfl, h.stage⟩
  · obtain ⟨hp, hfloor, rfl, g, rfl, hshown⟩ := h.kept p rfl
    obtain rfl : floor = p.targetTickFloor := hfloor
    obtain ⟨t, ht, hshown', hstate⟩ := hshown.settle hp
    refine ⟨t, ht, ?_⟩
    cases h.stage with
    | ready hs => exact .ready (hstate.trans hs) hshown'
    | missed hs | left hs => exact .left (hstate.trans hs) hshown'

end Drain.Sound

/-- A frame of a client goes through, whatever arrives in it. -/
theorem Stage.frame {sent : Option Greeting} {control rest : List PackedByteArray}
    (h : Stage L feed sent control s) (hfits : ∀ g, sent = some g → g.Fits)
    (hfeed : ∀ p ∈ feed, (encodeSnapshotProto p).length < 2 ^ 63) {arrivals : List Arrival}
    {events : List ENetEvent}
    (hdeliver : deliver (feed.map encodeSnapshotProto) control arrivals = some (events, rest)) :
    ∃ t, process (frameFuel events) s events = some t ∧ Stage L feed sent rest t := by
  by_cases hs : s.networkClient.state = .disconnected
  · refine ⟨s, if_pos hs, ?_⟩
    cases h with
    | missed hs hm => exact .missed hs hm
    | left hs hshown => exact .left hs hshown
    | fresh hs' | invited hs' | welcomed hs' | ready hs' =>
      exact absurd (hs.symm.trans hs') (by decide)
  · have hstart : Drain.Sound L feed sent control ⟨s, none, 0⟩ := ⟨h, fun p hp => by cases hp⟩
    obtain ⟨d, hd, hsound⟩ := hstart.foldlM hfits hfeed hdeliver fun e => size_le_frameFuel
    obtain ⟨t, ht, hstage⟩ := hsound.finish
    refine ⟨t, ?_, hstage⟩
    rw [process, if_neg hs, hd]
    exact ht

end Flowstate.Godot
