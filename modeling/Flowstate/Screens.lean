import Flowstate.Views

/-!
# What the players see

The system of `System.lean` with the screen of every client. The views of a client are drawn
in its own frames, from the packets that arrive in them (`Client.paint`). Whatever the server,
the players and the transport do, a run of the screens is the run of the system, errors
included, with a picture of what every client shows (`runScreens_eq`). So the screen of a
ready client has one view for every character of a world that the server has held, at its
place, and exactly one of them is the player's own (`painted_of_run`).
-/

set_option linter.unusedSectionVars false

open Rust

namespace Flowstate

variable {F : Type} [F64 F] {R : Type}

/-- The system, and the views of its clients in their order. -/
structure Screens (F R : Type) where
  system : System F
  views : List (Godot.Views R)

/-- The views of a client after a frame in which `arrivals` arrive. -/
def Client.paint (real : UInt64 → R) (feed : List Protobuf.Bytes) (arrivals : List Godot.Arrival)
    (c : Client F) (views : Godot.Views R) : Except SystemError (Godot.Views R) :=
  match Godot.deliver feed c.control arrivals with
  | none => .error .impossible
  | some (events, _) =>
    match Godot.Screen.process real (Godot.frameFuel events) ⟨c.scene, views⟩ events with
    | none => .error .script
    | some screen => .ok screen.views

namespace Screens

def new (config : ServerConfig) : Except Panic (Screens F R) := do
  let system ← System.new config
  return ⟨system, []⟩

/-- The views after an operation. A new client has none. -/
def draw (real : UInt64 → R) (s : Screens F R) :
    SystemOp → Except SystemError (List (Godot.Views R))
  | .serve (.event (.connect _)) => .ok (s.views ++ [[]])
  | .serve _ => .ok s.views
  | .frame i arrivals =>
    match s.system.clients[i]?, s.views[i]? with
    | some c, some views => do
      let views ← c.paint real s.system.broadcasts arrivals views
      return s.views.set i views
    | _, _ => .error .impossible
  | .move _ _ => .ok s.views

def exec (d : Decoder F) (real : UInt64 → R) (s : Screens F R) (op : SystemOp) :
    Except SystemError (Screens F R × Option (LoopOut F)) := do
  let (system, o) ← s.system.exec d op
  let views ← s.draw real op
  return (⟨system, views⟩, o)

end Screens

/-- The screens as a machine. -/
def screensMachine (d : Decoder F) (real : UInt64 → R) :
    Machine (Screens F R) SystemOp (Option (LoopOut F)) SystemError := ⟨Screens.exec d real⟩

/-- Run a new system with its screens through `ops`. -/
def runScreens (d : Decoder F) (real : UInt64 → R) (config : ServerConfig) (ops : List SystemOp) :
    Except SystemError (Screens F R × List (Option (LoopOut F))) := do
  let s ← liftSystem (liftLoop (Screens.new config))
  (screensMachine d real).run s ops

/-! ## Messages grow -/

/-- What a world lists can be drawn. -/
theorem drawable_of_ordered {w : World F} (h : Ordered w) :
    Godot.Drawable ((w.sortedEntitySnapshots.map EntitySnapshot.toProto).map
      EntitySnapshotProto.toGodot) := by
  constructor
  · have hids : Godot.entityIds ((w.sortedEntitySnapshots.map EntitySnapshot.toProto).map
        EntitySnapshotProto.toGodot) =
          (w.characters.map Character.entityId).map UInt64.toInt64 := by
      simp only [Godot.entityIds, World.sortedEntitySnapshots, List.map_map]
      rfl
    exact hids ▸ h.nodup.map toInt64_injective
  · intro e he
    obtain ⟨proto, hproto, rfl⟩ := List.mem_map.1 he
    obtain ⟨snapshot, -, rfl⟩ := List.mem_map.1 hproto
    exact le_rfl

theorem prefix_of_ids {w w' : World F} (h : w.ids <+: w'.ids) :
    Godot.entityIds ((w.sortedEntitySnapshots.map EntitySnapshot.toProto).map
      EntitySnapshotProto.toGodot) <+:
    Godot.entityIds ((w'.sortedEntitySnapshots.map EntitySnapshot.toProto).map
      EntitySnapshotProto.toGodot) := by
  have hids : ∀ w : World F, Godot.entityIds ((w.sortedEntitySnapshots.map
      EntitySnapshot.toProto).map EntitySnapshotProto.toGodot) =
        w.ids.map fun x => x.1.toInt64 := by
    intro w
    simp only [Godot.entityIds, World.sortedEntitySnapshots, World.ids, List.map_map]
    rfl
  rw [hids, hids]
  exact h.map _

/-- What the clients of a match are sent lists ever more entities. -/
theorem Synced.grows {d : Decoder F} {config : ServerConfig} {ops : List SystemOp} {s : System F}
    {outs : List (Option (LoopOut F))} (hrun : runSystem d config ops = .ok (s, outs))
    (hfits : config.matchDurationTicks.toNat < 2 ^ 63) {messages : List (SnapshotProto F)}
    (h : Synced config ((ops.zip outs).flatMap (systemCalls d)) messages s) {c : Client F}
    (hc : c ∈ s.clients) {g : Godot.Greeting} (hg : c.accepted.map greeting = some g) :
    g.Grows (messages.map SnapshotProto.toGodot) := by
  obtain ⟨a, ha, rfl⟩ := Option.map_eq_some_iff.1 hg
  obtain ⟨-, u, hu, hwelcomes⟩ := h.welcomed c hc a ha
  have hbaseline : (greeting a).baseline = u.baselineProto.toGodot :=
    congrArg JoinBaseline.toGodot hwelcomes.baseline
  -- Ticks fit an `int`, so that they compare as they do at the server.
  have hlt : ∀ {v v' : Server F}, Visited config ((ops.zip outs).flatMap (systemCalls d)) v →
      Visited config ((ops.zip outs).flatMap (systemCalls d)) v' →
      v.world.tick.toInt64 < v'.world.tick.toInt64 →
      v.world.tick.toNat < v'.world.tick.toNat := by
    intro v v' hv hv' hlt
    have hle := tick_le_of_visited hrun hv
    have hle' := tick_le_of_visited hrun hv'
    rw [Int64.lt_iff_toInt_lt, toInt_toInt64 (by omega), toInt_toInt64 (by omega)] at hlt
    exact_mod_cast hlt
  have hreported : ∀ p ∈ messages.map SnapshotProto.toGodot, ∃ v : Server F,
      Visited config ((ops.zip outs).flatMap (systemCalls d)) v ∧
      p.tick = v.world.tick.toInt64 ∧
      p.entities = (v.world.sortedEntitySnapshots.map EntitySnapshot.toProto).map
        EntitySnapshotProto.toGodot := by
    intro p hp
    obtain ⟨m, hm, rfl⟩ := List.mem_map.1 hp
    obtain ⟨v, hv, floor, -, rfl⟩ := h.reported m hm
    exact ⟨v, hv, rfl, rfl⟩
  rw [show (greeting a) = ⟨(greeting a).welcome, (greeting a).baseline⟩ from rfl, hbaseline]
  refine ⟨drawable_of_ordered hu.ordered, fun p hp => ?_, fun p hp hnewer => ?_,
    fun p hp q hq hnewer => ?_⟩
  · obtain ⟨v, hv, -, hentities⟩ := hreported p hp
    exact hentities ▸ drawable_of_ordered hv.ordered
  · obtain ⟨v, hv, htick, hentities⟩ := hreported p hp
    rw [htick] at hnewer
    rw [hentities]
    exact prefix_of_ids (hu.ids_of_tick_lt hv (hlt hu hv hnewer))
  · obtain ⟨v, hv, htick, hentities⟩ := hreported p hp
    obtain ⟨v', hv', htick', hentities'⟩ := hreported q hq
    rw [htick, htick'] at hnewer
    rw [hentities, hentities']
    exact prefix_of_ids (hv.ids_of_tick_lt hv' (hlt hv hv' hnewer))

/-! ## A run of the screens -/

/-- A picture of what the clients show. -/
def System.pictured (real : UInt64 → R) (s : System F) : Screens F R :=
  ⟨s, s.clients.map fun c => c.scene.matchState.picture real⟩

theorem map_matchState_set {real : UInt64 → R} {clients : List (Client F)} {i : ℕ} {c c' : Client F}
    (hi : clients[i]? = some c) (hsame : c'.scene.matchState = c.scene.matchState) :
    (clients.set i c').map (fun c => c.scene.matchState.picture real) =
      clients.map fun c => c.scene.matchState.picture real := by
  rw [List.map_set, hsame]
  obtain ⟨hlt, rfl⟩ := List.getElem?_eq_some_iff.1 hi
  have hlt' : i < (clients.map fun c => c.scene.matchState.picture real).length := by
    rwa [List.length_map]
  have hget : clients[i].scene.matchState.picture real =
      (clients.map fun c => c.scene.matchState.picture real)[i] := by
    rw [List.getElem_map]
  rw [hget, List.set_getElem_self hlt']

theorem Screens.draw_serve {real : UInt64 → R} (s : Screens F R) {x : Service}
    (hx : ∀ peer, x ≠ .event (.connect peer)) : s.draw real (.serve x) = .ok s.views := by
  rcases x with e | late | late
  · cases e with
    | connect peer => exact absurd rfl (hx peer)
    | receive | disconnect => rfl
  · rfl
  · rfl

/-- A move does not change what is shown. -/
theorem matchState_onMoveDirChanged {s t : Godot.MatchScene} {moveDir : PackedFloat64Array}
    (h : s.onMoveDirChanged moveDir = some t) : t.matchState = s.matchState := by
  rw [Godot.MatchScene.onMoveDirChanged] at h
  split_ifs at h
  · obtain ⟨networkClient, -, h⟩ := Option.bind_eq_some_iff.1 h
    obtain rfl := Option.some.inj h
    rfl
  · obtain rfl := Option.some.inj h
    rfl

/-- A frame on a picture of the client leaves a picture of it. -/
theorem Synced.paint {config : ServerConfig} {calls : List (Op F)}
    {messages : List (SnapshotProto F)} {s : System F} (h : Synced config calls messages s)
    (real : UInt64 → R) {c : Client F} (hc : c ∈ s.clients)
    (hgrows : ∀ g, c.accepted.map greeting = some g →
      g.Grows (messages.map SnapshotProto.toGodot))
    {arrivals : List Godot.Arrival} {events : List Godot.ENetEvent} {control : List Protobuf.Bytes}
    (hdeliver : Godot.deliver s.broadcasts c.control arrivals = some (events, control))
    {scene : Godot.MatchScene}
    (hprocess : Godot.process (Godot.frameFuel events) c.scene events = some scene) :
    c.paint real s.broadcasts arrivals (c.scene.matchState.picture real) =
      .ok (scene.matchState.picture real) := by
  rw [Client.paint, hdeliver]
  rw [h.feed] at hdeliver
  obtain ⟨scene', hscene', hpaint⟩ := (h.stage c hc).paint real
    (fun g hg => by
      obtain ⟨a, ha, rfl⟩ := Option.map_eq_some_iff.1 hg
      exact (h.welcomed c hc a ha).1)
    (fun p hp => by
      obtain ⟨m, hm, rfl⟩ := List.mem_map.1 hp
      rw [m.encode_toGodot]
      exact h.fits m hm) hgrows hdeliver
  obtain rfl := Option.some.inj (hprocess.symm.trans hscene')
  dsimp only
  rw [hpaint]

/-- On a picture, an operation of the screens is the one of the system. -/
theorem Screens.exec_pictured {d : Decoder F} {real : UInt64 → R} {config : ServerConfig}
    (hfits : config.matchDurationTicks.toNat < 2 ^ 63) {ops : List SystemOp} {s : System F}
    {outs : List (Option (LoopOut F))} (hrun : runSystem d config ops = .ok (s, outs))
    (op : SystemOp) : Screens.exec d real (s.pictured real) op =
      (s.exec d op).map fun x => (x.1.pictured real, x.2) := by
  have hsystem : (s.pictured real).system.exec d op = s.exec d op := rfl
  rw [Screens.exec, hsystem]
  rcases hexec : s.exec d op with e | ⟨s', o⟩
  · rfl
  suffices hdraw : (s.pictured real).draw real op = .ok (s'.pictured real).views by
    simp only [bind, Except.bind, hdraw]
    rfl
  -- Where no frame is taken, the views stay and so do the scenes.
  have hserve : ∀ {x : Service}, (∀ peer, x ≠ .event (.connect peer)) →
      (s'.pictured real).views = (s.pictured real).views →
      (s.pictured real).draw real (.serve x) = .ok (s'.pictured real).views := fun hx hviews =>
    hviews ▸ draw_serve _ hx
  cases System.steps_of_exec hexec with
  | connect h =>
    change Except.ok (_ ++ _) = Except.ok (List.map _ (_ ++ _))
    rw [List.map_append]
    rfl
  | disconnect h =>
    refine hserve (fun peer => by simp) ?_
    change List.map _ (List.map _ _) = _
    rw [List.map_map]
    refine List.map_congr_left fun c _ => ?_
    rw [Function.comp_apply, Client.part]
    split_ifs <;> rfl
  | @opened x edge peer sid welcome baseline h hwelcome hbaseline =>
    refine hserve ?_ ?_
    · rintro peer' rfl
      cases Edge.steps_of_exec h with
      | quiet hx => exact absurd rfl (hx _)
    · change List.map _ (List.map _ _) = _
      rw [List.map_map]
      refine List.map_congr_left fun c _ => ?_
      rcases c.accept_cases peer (sid, welcome, baseline) [welcome.encode, baseline.encode] with
        ⟨-, -, heq⟩ | heq <;> rw [Function.comp_apply, heq]
  | broadcast h hbytes =>
    refine hserve ?_ rfl
    rintro peer rfl
    cases Edge.steps_of_exec h with
    | quiet hx | tick hx => exact absurd rfl (hx _)
  | other h hx ho => exact hserve (fun peer => (hx peer).1) rfl
  | @frame i arrivals c events control scene hi hdeliver hprocess =>
    obtain ⟨messages, hsynced⟩ := Synced.of_run hrun
    have hc := List.mem_of_getElem? hi
    have hviews : (s.pictured real).views[i]? = some (c.scene.matchState.picture real) := by
      change (s.clients.map fun c => c.scene.matchState.picture real)[i]? = _
      rw [List.getElem?_map, hi]
      rfl
    have hclient : (s.pictured real).system.clients[i]? = some c := hi
    have hpaint := hsynced.paint real hc
      (fun g hg => hsynced.grows hrun hfits hc hg) hdeliver hprocess
    simp only [draw, hclient, hviews]
    change (c.paint real s.broadcasts arrivals _ >>= fun views =>
      Except.ok ((s.pictured real).views.set i views)) = _
    rw [hpaint]
    change Except.ok (List.set (List.map _ _) _ _) = Except.ok (List.map _ (List.set _ _ _))
    rw [List.map_set]
  | @move i moveDir c scene hi hmove =>
    change Except.ok (List.map _ _) = Except.ok (List.map _ (List.set _ _ _))
    rw [map_matchState_set hi (matchState_onMoveDirChanged hmove)]

/-- A run of the screens is the run of the system with pictures of it. -/
theorem runScreens_eq (d : Decoder F) (real : UInt64 → R) {config : ServerConfig}
    (hfits : config.matchDurationTicks.toNat < 2 ^ 63) (ops : List SystemOp) :
    runScreens d real config ops =
      (runSystem d config ops).map fun x => (x.1.pictured real, x.2) := by
  have hnew : Screens.new (F := F) (R := R) config =
      (System.new config).map fun s => s.pictured real := by
    rw [Screens.new, System.new]
    rcases Edge.new (F := F) config with e | edge <;> rfl
  rw [runScreens, hnew]
  rcases hsystem : System.new (F := F) config with e | s₀
  · rw [runSystem, hsystem]
    rfl
  · have hrun : ∀ ops, runSystem d config ops = (systemMachine d).run s₀ ops := by
      intro ops
      rw [runSystem, hsystem]
      rfl
    rw [hrun]
    refine Machine.run_map (f := System.pictured real) fun before op after t outs _ hbefore => ?_
    exact Screens.exec_pictured hfits ((hrun before).trans hbefore) op

/-! ## What the screens show -/

/-- The view of a character on the screen of the player whose entity is `own`. -/
def Character.view (real : UInt64 → R) (own : Int64) (c : Character F) :
    Int64 × Godot.CharacterView R :=
  (c.entityId.toInt64, ⟨c.entityId.toInt64, c.entityId.toInt64 = own,
    real (F64.toBits c.position.1), real Godot.fixedHeight, real (F64.toBits c.position.2)⟩)

/-- The screen of a client shows the world of `u`, and which character is the player's own. -/
structure Client.Paints (real : UInt64 → R) (c : Client F) (views : Godot.Views R) (u : Server F) :
    Prop where
  displays : c.Displays u
  drawn : views =
    u.world.characters.map (Character.view real c.scene.matchState.controlledEntityId)
  own : (views.countP fun x => x.2.isControlled) = 1

/-- The picture of a client that shows a world. -/
theorem Client.Displays.paints {real : UInt64 → R} {c : Client F} {u : Server F}
    (h : c.Displays u) (hordered : Ordered u.world) :
    c.Paints real (c.scene.matchState.picture real) u := by
  have hviews : c.scene.matchState.picture real =
      u.world.characters.map (Character.view real c.scene.matchState.controlledEntityId) := by
    rw [Godot.MatchState.picture, h.entities, World.entries, List.map_map]
    rfl
  refine ⟨h, hviews, ?_⟩
  obtain ⟨a, e, p, -, hcontrolled, -, hown⟩ := h.own
  obtain ⟨own, hmem, hpair⟩ := List.mem_map.1 hown
  obtain rfl : own.entityId = e := (Prod.mk.inj hpair).1
  have hcount := List.count_eq_one_of_mem hordered.nodup (List.mem_map_of_mem hmem)
  rw [List.count, List.countP_map] at hcount
  rw [hviews, hcontrolled, List.countP_map, ← hcount]
  refine List.countP_congr fun x _ => ?_
  simp [Character.view, toInt64_injective.eq_iff]

/-- The screens run as the system does, and on the screen of every client that is ready there is
one view for every character of a world of the match, at its place, exactly one of them being
the player's own. -/
theorem painted_of_run (d : Decoder F) (real : UInt64 → R) {config : ServerConfig}
    (hfits : config.matchDurationTicks.toNat + config.inputLeadTicks.toNat < 2 ^ 63)
    (ops : List SystemOp) :
    (runScreens d real config ops).map (fun x => (x.1.system, x.2)) = runSystem d config ops ∧
    ∀ s outs, runScreens d real config ops = .ok (s, outs) →
      s.views.length = s.system.clients.length ∧
      ∀ (i : ℕ) (c : Client F) (views : Godot.Views R), s.system.clients[i]? = some c →
        s.views[i]? = some views → c.scene.networkClient.state = .ready →
        ∃ u, Visited config ((ops.zip outs).flatMap (systemCalls d)) u ∧ c.Paints real views u := by
  have hticks : config.matchDurationTicks.toNat < 2 ^ 63 := by omega
  have heq := runScreens_eq d real hticks ops
  refine ⟨?_, fun s outs hrun => ?_⟩
  · rw [heq]
    rcases runSystem d config ops with e | x <;> rfl
  · rw [heq] at hrun
    obtain ⟨⟨system, outs'⟩, hsystem, hpair⟩ := map_eq_ok.1 hrun
    obtain ⟨rfl, rfl⟩ := Prod.mk.inj hpair
    refine ⟨List.length_map _, fun i c views hi hviews hready => ?_⟩
    have hi : system.clients[i]? = some c := hi
    obtain ⟨u, hu, hdisplays⟩ := exists_displays hsystem hfits (List.mem_of_getElem? hi) hready
    have hpicture : views = c.scene.matchState.picture real := by
      change (system.clients.map fun c => c.scene.matchState.picture real)[i]? = _ at hviews
      rw [List.getElem?_map, hi] at hviews
      exact (Option.some.inj hviews).symm
    exact ⟨u, hu, hpicture ▸ hdisplays.paints hu.ordered⟩

/-- A client that has drawn a snapshot over its baseline, and one that has drawn its baseline. -/
theorem painted_of_two : ∃ s outs, runScreens oneCommand id {} [.serve (.event (.connect 0)),
      .serve (.event (.receive 0 channelControl [])), .frame 0 [.connect, .control, .control],
      .serve (.idle false), .serve (.idle false), .serve (.event (.connect 1)),
      .serve (.event (.receive 1 channelControl [])), .serve (.idle true), .frame 0 [.realtime 1],
      .frame 1 [.connect, .control, .control]] = .ok (s, outs) ∧
    s.views.map (fun views => views.map fun x => x.2.isControlled) =
      [[true, false], [false, true]] ∧
    ∀ (i : ℕ) (c : Client ℚ) (views : Godot.Views UInt64), s.system.clients[i]? = some c →
      s.views[i]? = some views → c.scene.networkClient.state = .ready →
      ∃ calls u, Visited {} calls u ∧ c.Paints id views u := by
  have h : (runScreens oneCommand id {} [.serve (.event (.connect 0)),
      .serve (.event (.receive 0 channelControl [])), .frame 0 [.connect, .control, .control],
      .serve (.idle false), .serve (.idle false), .serve (.event (.connect 1)),
      .serve (.event (.receive 1 channelControl [])), .serve (.idle true), .frame 0 [.realtime 1],
      .frame 1 [.connect, .control, .control]]).map (fun x =>
        x.1.views.map fun views => views.map fun x => x.2.isControlled) =
      .ok [[true, false], [false, true]] := by
    decide +kernel
  obtain ⟨⟨s, outs⟩, hrun, hviews⟩ := map_eq_ok.1 h
  refine ⟨s, outs, hrun, hviews, fun i c views hi hv hready => ?_⟩
  exact ⟨_, ((painted_of_run oneCommand id (by decide) _).2 s outs hrun).2 i c views hi hv hready⟩

end Flowstate
