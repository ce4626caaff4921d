import Flowstate.Mirror

/-!
# The views of the Godot client

What a player sees of the match : one `CharacterView` for every entity (`client/view`),
spawned the first time a message lists it and moved whenever a message is applied
(`_spawn_or_update_view` of `client/scenes/match_scene.gd`). A view is placed by the engine,
whose vectors hold a component as `real` makes it of a double. The events and the scene are
those of `NetworkClient.lean` : a `Screen` is a scene with its views.

A view is never removed, and whether it is the player's own is settled when it is spawned, so
that the views could fall behind the match they are of. They do not, as long as the entities
of a newer message begin with those of an older one (`Greeting.Grows`) : the views are at all
times a picture of what the scene shows (`Stage.paint`).
-/

namespace Flowstate.Godot

open WireCodec Channels

/-! ## Views -/

/-- `Vector3`. -/
abbrev Vector3 (R : Type) := R × R × R

/-- A character on the screen. -/
structure CharacterView (R : Type) where
  entityId : Int64
  isControlled : Bool
  globalPosition : Vector3 R
deriving DecidableEq

/-- The pattern of `1.0`. -/
def fixedHeight : UInt64 := 0x3ff0000000000000

variable {R : Type}

namespace CharacterView

/-- `CHARACTER_VIEW_SCENE.instantiate()`, at the origin. -/
def instantiate (real : UInt64 → R) : CharacterView R := ⟨-1, false, real 0, real 0, real 0⟩

def setControlled (view : CharacterView R) (value : Bool) : CharacterView R :=
  { view with isControlled := value }

/-- Move the view to the position. The velocity is not used. -/
def applyState (real : UInt64 → R) (view : CharacterView R) (position _velocity :
    PackedFloat64Array) : Option (CharacterView R) :=
  match position with
  | x :: y :: _ => some { view with globalPosition := (real x, real fixedHeight, real y) }
  | _ => none

end CharacterView

/-- The views of a scene, by their entities. -/
abbrev Views (R : Type) := Dictionary Int64 (CharacterView R)

/-- The view of the entity, a new one if there is none yet, is brought up to date. -/
def spawnOrUpdateView (real : UInt64 → R) (controlledEntityId : Int64) (views : Views R)
    (entityId : Int64) (entity : EntitySnapshotProto) : Option (Views R) := do
  let view := match views.get entityId with
    | some view => view
    | none =>
      let view := { CharacterView.instantiate real with entityId }
      view.setControlled (entityId = controlledEntityId)
  let view ← view.applyState real entity.position entity.velocity
  return views.set entityId view

/-- The loop over the entities of the match. -/
def draw (real : UInt64 → R) (m : MatchState) (views : Views R) : Option (Views R) :=
  m.entities.foldlM (fun views x => spawnOrUpdateView real m.controlledEntityId views x.1 x.2)
    views

/-! ## A frame -/

/-- The scene with its views. -/
structure Screen (R : Type) where
  scene : MatchScene
  views : Views R

/-- A drain under way, with the views. -/
structure Painting (R : Type) where
  drain : Drain
  views : Views R

/-- The event is the packet that the client takes for its baseline. -/
def Drain.isBaseline (d : Drain) : ENetEvent → Bool
  | .receive channel _ =>
    channel = Channels.channelControl ∧ d.scene.networkClient.state = .awaitingBaseline
  | _ => false

namespace Painting

/-- One event of the drain. The handler of the baseline draws it. -/
def onEvent (real : UInt64 → R) (fuel : ℕ) (d : Painting R) (e : ENetEvent) :
    Option (Painting R) := do
  let drain ← d.drain.onEvent fuel e
  if d.drain.isBaseline e then do
    let views ← draw real drain.scene.matchState d.views
    return ⟨drain, views⟩
  else return ⟨drain, d.views⟩

/-- The end of the drain. The handler of the snapshot draws it if it is applied. -/
def finish (real : UInt64 → R) (d : Painting R) : Option (Screen R) := do
  let scene ← d.drain.finish
  match d.drain.latestSnapshot with
  | none => return ⟨scene, d.views⟩
  | some snapshot =>
    if (d.drain.scene.matchState.applySnapshot snapshot).2 then do
      let views ← draw real scene.matchState d.views
      return ⟨scene, views⟩
    else return ⟨scene, d.views⟩

end Painting

/-- `_process`, with the views. -/
def Screen.process (real : UInt64 → R) (fuel : ℕ) (s : Screen R) (events : List ENetEvent) :
    Option (Screen R) :=
  if s.scene.networkClient.state = .disconnected then some s
  else do
    let d ← events.foldlM (Painting.onEvent real fuel) ⟨⟨s.scene, none, 0⟩, s.views⟩
    d.finish real

/-! ## Drawing -/

/-- Where a view of the position is. -/
def place (real : UInt64 → R) : PackedFloat64Array → Vector3 R
  | x :: y :: _ => (real x, real fixedHeight, real y)
  | _ => (real 0, real 0, real 0)

/-- The view of an entity of the match. -/
def MatchState.view (real : UInt64 → R) (m : MatchState) (x : Int64 × EntitySnapshotProto) :
    Int64 × CharacterView R :=
  (x.1, ⟨x.1, x.1 = m.controlledEntityId, place real x.2.position⟩)

/-- A picture of the match : a view for every entity, in their order. -/
def MatchState.picture (real : UInt64 → R) (m : MatchState) : Views R :=
  m.entities.map (m.view real)

end Flowstate.Godot

namespace Dictionary

variable {K V : Type} [DecidableEq K] {key : K}

theorem get_append_of_notMem : ∀ {d d' : Dictionary K V}, key ∉ d.map Prod.fst →
    Dictionary.get key (d ++ d') = Dictionary.get key d'
  | [], _, _ => rfl
  | (k, v) :: d, d', h => by
    rw [List.map_cons, List.mem_cons, not_or] at h
    rw [List.cons_append, Dictionary.get, if_neg (Ne.symm h.1), get_append_of_notMem h.2]

theorem set_append_of_notMem (value : V) : ∀ {d d' : Dictionary K V}, key ∉ d.map Prod.fst →
    Dictionary.set key value (d ++ d') = d ++ Dictionary.set key value d'
  | [], _, _ => rfl
  | (k, v) :: d, d', h => by
    rw [List.map_cons, List.mem_cons, not_or] at h
    rw [List.cons_append, Dictionary.set, if_neg (Ne.symm h.1), set_append_of_notMem value h.2]
    rfl

end Dictionary

namespace Flowstate.Godot

open WireCodec Channels

variable {R : Type} {real : UInt64 → R}

/-- An entity is drawn over its last picture, or behind the others. -/
theorem spawnOrUpdateView_append (m : MatchState) {views : Views R}
    {x : Int64 × EntitySnapshotProto} (hnew : x.1 ∉ views.map Prod.fst)
    (hwide : 2 ≤ x.2.position.length) {old : List (Int64 × EntitySnapshotProto)}
    (hold : ∀ y ∈ old.head?, y.1 = x.1) :
    spawnOrUpdateView real m.controlledEntityId (views ++ old.map (m.view real)) x.1 x.2 =
      some (views ++ m.view real x :: (old.tail.map (m.view real))) := by
  obtain ⟨id, entity⟩ := x
  obtain ⟨a, b, rest, hposition⟩ : ∃ a b rest, entity.position = a :: b :: rest := by
    rcases hposition : entity.position with _ | ⟨a, _ | ⟨b, rest⟩⟩ <;>
      simp [hposition] at hwide ⊢
  rw [spawnOrUpdateView, Dictionary.get_append_of_notMem hnew]
  rcases old with _ | ⟨y, old⟩
  · simp only [List.map_nil, Dictionary.get, CharacterView.applyState, hposition,
      CharacterView.setControlled, Option.bind_eq_bind, Option.bind_some,
      Dictionary.set_append_of_notMem _ hnew, Dictionary.set, MatchState.view, place]
    rfl
  · obtain rfl : y.1 = id := hold y rfl
    simp only [List.map_cons, MatchState.view, Dictionary.get, if_true, CharacterView.applyState,
      hposition, Option.bind_eq_bind, Option.bind_some, Dictionary.set_append_of_notMem _ hnew,
      Dictionary.set, place]
    rfl

/-- Entities are drawn in their order, over the picture of the first ones of them. -/
theorem foldlM_spawnOrUpdateView (m : MatchState) :
    ∀ todo done old : List (Int64 × EntitySnapshotProto), ((done ++ todo).map Prod.fst).Nodup →
      (∀ x ∈ todo, 2 ≤ x.2.position.length) → old.map Prod.fst <+: todo.map Prod.fst →
      todo.foldlM (fun views x => spawnOrUpdateView real m.controlledEntityId views x.1 x.2)
        (done.map (m.view real) ++ old.map (m.view real)) =
          some ((done ++ todo).map (m.view real))
  | [], done, old, _, _, hold => by
    have hnil : old = [] := by simpa using hold
    rw [hnil, List.append_nil, List.map_nil, List.append_nil]
    rfl
  | x :: todo, done, old, hnodup, hwide, hold => by
    have hnew : x.1 ∉ (done.map (m.view real)).map Prod.fst := by
      rw [List.map_append, List.nodup_append] at hnodup
      intro hmem
      have hmem : x.1 ∈ done.map Prod.fst := by
        rw [List.map_map] at hmem
        exact hmem
      exact hnodup.2.2 _ hmem _ List.mem_cons_self rfl
    obtain ⟨hx, hwide⟩ := List.forall_mem_cons.1 hwide
    have hhead : ∀ y ∈ old.head?, y.1 = x.1 := by
      rcases old with _ | ⟨y, old⟩
      · exact fun y hy => by cases hy
      · rintro y' hy'
        obtain rfl := Option.some.inj hy'
        exact (List.cons_prefix_cons.1 hold).1
    have htail : old.tail.map Prod.fst <+: todo.map Prod.fst := by
      rcases old with _ | ⟨y, old⟩
      · exact List.nil_prefix
      · exact (List.cons_prefix_cons.1 hold).2
    have hrest := foldlM_spawnOrUpdateView m todo (done ++ [x]) old.tail
      (by rwa [List.append_assoc]) hwide htail
    rw [List.foldlM_cons, spawnOrUpdateView_append m hnew hx hhead]
    simpa [List.append_assoc] using hrest

/-- The match is drawn over a picture of an earlier one. -/
theorem draw_picture {m m' : MatchState} (hcontrolled : m'.controlledEntityId =
      m.controlledEntityId ∨ m.entities = []) (hnodup : (m'.entities.map Prod.fst).Nodup)
    (hwide : ∀ x ∈ m'.entities, 2 ≤ x.2.position.length)
    (hgrows : m.entities.map Prod.fst <+: m'.entities.map Prod.fst) :
    draw real m' (m.picture real) = some (m'.picture real) := by
  have hview : m.picture real = m.entities.map (m'.view real) := by
    rcases hcontrolled with hsame | hnil
    · have hsame : m'.view real = m.view real := by
        funext x
        rw [MatchState.view, MatchState.view, hsame]
      rw [MatchState.picture, hsame]
    · rw [MatchState.picture, hnil]
      rfl
  rw [hview]
  exact foldlM_spawnOrUpdateView m' m'.entities [] m.entities hnodup hwide hgrows

/-! ## What a newer message shows -/

/-- The ids that a message lists. -/
def entityIds (entities : List EntitySnapshotProto) : List Int64 :=
  entities.map EntitySnapshotProto.entityId

/-- The entities of a message can be drawn : their ids differ, their positions are complete. -/
structure Drawable (entities : List EntitySnapshotProto) : Prop where
  nodup : (entityIds entities).Nodup
  wide : ∀ e ∈ entities, 2 ≤ e.position.length

theorem Drawable.map_fst_entitiesOf {entities : List EntitySnapshotProto} (h : Drawable entities) :
    (MatchState.entitiesOf entities).map Prod.fst = entityIds entities := by
  rw [entitiesOf_of_nodup h.nodup, List.map_map]
  rfl

theorem Drawable.wide_entitiesOf {entities : List EntitySnapshotProto} (h : Drawable entities) :
    ∀ x ∈ MatchState.entitiesOf entities, 2 ≤ x.2.position.length := by
  rw [entitiesOf_of_nodup h.nodup]
  intro x hx
  obtain ⟨e, he, rfl⟩ := List.mem_map.1 hx
  exact h.wide e he

/-- Every message can be drawn, and a newer one begins with the entities of an older one. -/
structure Greeting.Grows (g : Greeting) (feed : List SnapshotProto) : Prop where
  baseline : Drawable g.baseline.entities
  drawable : ∀ p ∈ feed, Drawable p.entities
  fresh : ∀ p ∈ feed, g.baseline.tick < p.tick →
    entityIds g.baseline.entities <+: entityIds p.entities
  grows : ∀ p ∈ feed, ∀ q ∈ feed, p.tick < q.tick → entityIds p.entities <+: entityIds q.entities

variable {L : ℤ} {g : Greeting} {feed : List SnapshotProto} {s : MatchScene}
  {sent : Option Greeting} {control rest : List PackedByteArray}

namespace MatchScene.Mirrors

/-- What is shown can be drawn. -/
theorem drawable (h : s.Mirrors L g feed) (hgrows : g.Grows feed) :
    ∃ entities, Drawable entities ∧ s.matchState.entities = MatchState.entitiesOf entities := by
  rcases h.source with ⟨-, hentities⟩ | ⟨p, hp, -, -, hentities⟩
  · exact ⟨_, hgrows.baseline, hentities⟩
  · exact ⟨_, hgrows.drawable p hp, hentities⟩

/-- A newer snapshot begins with the entities shown. -/
theorem prefix_of_lt (h : s.Mirrors L g feed) (hgrows : g.Grows feed) {p : SnapshotProto}
    (hp : p ∈ feed) (hlt : s.matchState.latestTick < p.tick) :
    s.matchState.entities.map Prod.fst <+: entityIds p.entities := by
  rcases h.source with ⟨htick, hentities⟩ | ⟨q, hq, -, htick, hentities⟩
  · rw [hentities, hgrows.baseline.map_fst_entitiesOf]
    exact hgrows.fresh p hp (htick ▸ hlt)
  · rw [hentities, (hgrows.drawable q hq).map_fst_entitiesOf]
    exact hgrows.grows q hq p hp (htick ▸ hlt)

end MatchScene.Mirrors

/-- What a scene shows at any stage can be drawn on an empty screen. -/
theorem Stage.draw_nil (h : Stage L feed sent control s) (hgrows : ∀ g, sent = some g →
    g.Grows feed) : draw real s.matchState [] = some (s.matchState.picture real) := by
  have hempty : ∀ entities, Drawable entities →
      s.matchState.entities = MatchState.entitiesOf entities →
      draw real s.matchState [] = some (s.matchState.picture real) := by
    intro entities hdrawable hentities
    refine draw_picture (m := .new) (.inr rfl) ?_ ?_ List.nil_prefix
    · rw [hentities, hdrawable.map_fst_entitiesOf]
      exact hdrawable.nodup
    · rw [hentities]
      exact hdrawable.wide_entitiesOf
  cases h with
  | ready _ hshown | left _ hshown =>
    obtain ⟨entities, hdrawable, hentities⟩ := hshown.drawable (hgrows _ rfl)
    exact hempty entities hdrawable hentities
  | fresh _ hm | invited _ hm | welcomed _ _ _ hm | missed _ hm =>
    rw [hm]
    rfl

/-! ## A frame keeps the picture -/

/-- Only the baseline changes what is shown before the end of a drain. -/
theorem Drain.matchState_onEvent {fuel : ℕ} {d d' : Drain} {e : ENetEvent}
    (h : d.onEvent fuel e = some d') (he : d.isBaseline e = false) :
    d'.scene.matchState = d.scene.matchState := by
  cases e with
  | connect | disconnect | error =>
    obtain rfl := Option.some.inj h
    rfl
  | receive channel packet =>
    rw [Drain.onEvent] at h
    split_ifs at h with hcontrol hrealtime
    · obtain ⟨scene, hscene, h⟩ := Option.bind_eq_some_iff.1 h
      obtain rfl := Option.some.inj h
      have hstate : d.scene.networkClient.state ≠ .awaitingBaseline := by
        simpa [Drain.isBaseline, hcontrol] using he
      unfold MatchScene.handleControlPacket at hscene
      dsimp only at hscene
      split at hscene
      · obtain ⟨welcome, -, hscene⟩ := Option.bind_eq_some_iff.1 hscene
        obtain rfl := Option.some.inj hscene
        rfl
      · exact absurd ‹_› hstate
      · obtain rfl := Option.some.inj hscene
        rfl
      · obtain rfl := Option.some.inj hscene
        rfl
    · obtain ⟨p, -, h⟩ := Option.bind_eq_some_iff.1 h
      obtain rfl := Option.some.inj h
      rw [Drain.keep]
      split_ifs <;> rfl
    · obtain rfl := Option.some.inj h
      rfl

namespace Painting

variable {fuel : ℕ}

/-- An arrival that takes a drain on leaves a picture of what the scene shows then. -/
theorem onEvent_picture {d d' : Drain} {e : ENetEvent} (hd : d.Sound L feed sent control)
    (hd' : d'.Sound L feed sent rest) (hgrows : ∀ g, sent = some g → g.Grows feed)
    (h : d.onEvent fuel e = some d') :
    onEvent real fuel ⟨d, d.scene.matchState.picture real⟩ e =
      some ⟨d', d'.scene.matchState.picture real⟩ := by
  rw [onEvent, h, Option.bind_eq_bind, Option.bind_some]
  rcases he : d.isBaseline e with _ | _
  · rw [Drain.matchState_onEvent h he]
    rfl
  · -- Nothing has been shown before.
    have hstate : d.scene.networkClient.state = .awaitingBaseline := by
      rcases e with _ | ⟨channel, packet⟩ | _ | _
      · cases he
      · exact (of_decide_eq_true he).2
      · cases he
      · cases he
    have hnew : d.scene.matchState = .new := by
      cases hd.stage with
      | welcomed _ _ _ hm => exact hm
      | fresh hs | invited hs | ready hs | missed hs | left hs =>
        exact absurd (hstate.symm.trans hs) (by decide)
    have hnil : (MatchState.new).picture real = [] := rfl
    rw [if_pos rfl, hnew, hnil, hd'.stage.draw_nil hgrows]
    rfl

theorem foldlM_picture (real : UInt64 → R) (hfits : ∀ g, sent = some g → g.Fits)
    (hfeed : ∀ p ∈ feed, (encodeSnapshotProto p).length < 2 ^ 63)
    (hgrows : ∀ g, sent = some g → g.Grows feed) :
    ∀ {arrivals : List Arrival} {control rest : List PackedByteArray} {events : List ENetEvent}
      {d : Drain}, d.Sound L feed sent control →
      deliver (feed.map encodeSnapshotProto) control arrivals = some (events, rest) →
      (∀ e ∈ events, e.size ≤ fuel) →
      ∃ d', events.foldlM (Drain.onEvent fuel) d = some d' ∧ d'.Sound L feed sent rest ∧
        events.foldlM (onEvent real fuel) ⟨d, d.scene.matchState.picture real⟩ =
          some ⟨d', d'.scene.matchState.picture real⟩
  | [], control, rest, events, d, h, hdeliver, _ => by
    obtain ⟨rfl, rfl⟩ := Prod.mk.inj (Option.some.inj hdeliver)
    exact ⟨d, rfl, h, rfl⟩
  | arrival :: arrivals, control, rest, events, d, h, hdeliver, hfuel => by
    obtain ⟨⟨e, next⟩, he, hdeliver⟩ := Option.bind_eq_some_iff.1 hdeliver
    obtain ⟨⟨more, rest'⟩, hmore, hdeliver⟩ := Option.bind_eq_some_iff.1 hdeliver
    obtain ⟨rfl, rfl⟩ := Prod.mk.inj (Option.some.inj hdeliver)
    have ⟨hsize, hsizes⟩ := List.forall_mem_cons.1 hfuel
    obtain ⟨d₁, hd₁, h₁⟩ := h.onEvent hfits hfeed he hsize
    obtain ⟨d₂, hd₂, h₂, hpaint⟩ := foldlM_picture real hfits hfeed hgrows h₁ hmore hsizes
    refine ⟨d₂, ?_, h₂, ?_⟩
    · rw [List.foldlM_cons, hd₁]
      exact hd₂
    · rw [List.foldlM_cons, onEvent_picture h h₁ hgrows hd₁]
      exact hpaint

/-- The end of a drain draws what it reports. -/
theorem finish_picture {d : Drain} (h : d.Sound L feed sent control)
    (hgrows : ∀ g, sent = some g → g.Grows feed) {t : MatchScene} (ht : d.finish = some t) :
    finish real ⟨d, d.scene.matchState.picture real⟩ = some ⟨t, t.matchState.picture real⟩ := by
  rw [finish, ht, Option.bind_eq_bind, Option.bind_some]
  obtain ⟨scene, latest, floor⟩ := d
  rcases latest with - | p
  · obtain rfl := Option.some.inj ht
    rfl
  · obtain ⟨hp, -, -, g, hsent, hshown⟩ := h.kept p rfl
    have hg := hgrows g hsent
    obtain ⟨f, hf, -⟩ := hshown.floor
    rw [Drain.finish, NetworkClient.observe_of_some hf] at ht
    have hmatch : t.matchState = (scene.matchState.applySnapshot p).1 := by
      obtain rfl := Option.some.inj ht
      rfl
    rcases Int64.lt_or_le scene.matchState.latestTick p.tick with hlt | hle
    · have happly : scene.matchState.applySnapshot p = (scene.matchState.shown p, true) :=
        if_neg (Int64.not_le.2 hlt)
      have hdrawable := hg.drawable p hp
      rw [happly] at hmatch
      have hdraw : draw real t.matchState (scene.matchState.picture real) =
          some (t.matchState.picture real) := by
        rw [hmatch]
        refine draw_picture (.inl rfl) ?_ hdrawable.wide_entitiesOf ?_
        · exact hdrawable.map_fst_entitiesOf ▸ hdrawable.nodup
        · exact hdrawable.map_fst_entitiesOf ▸ hshown.prefix_of_lt hg hp hlt
      dsimp only
      rw [happly, if_pos rfl, hdraw]
      rfl
    · have happly : scene.matchState.applySnapshot p = (scene.matchState, false) := if_pos hle
      rw [happly] at hmatch
      dsimp only
      rw [happly, hmatch]
      rfl

end Painting

/-- A frame goes through on a screen as it does in its scene, and leaves a picture of what the
scene shows. -/
theorem Stage.paint (h : Stage L feed sent control s) (real : UInt64 → R)
    (hfits : ∀ g, sent = some g → g.Fits)
    (hfeed : ∀ p ∈ feed, (encodeSnapshotProto p).length < 2 ^ 63)
    (hgrows : ∀ g, sent = some g → g.Grows feed) {arrivals : List Arrival}
    {events : List ENetEvent}
    (hdeliver : deliver (feed.map encodeSnapshotProto) control arrivals = some (events, rest)) :
    ∃ t, process (frameFuel events) s events = some t ∧
      Screen.process real (frameFuel events) ⟨s, s.matchState.picture real⟩ events =
        some ⟨t, t.matchState.picture real⟩ := by
  by_cases hs : s.networkClient.state = .disconnected
  · exact ⟨s, if_pos hs, if_pos hs⟩
  · have hstart : Drain.Sound L feed sent control ⟨s, none, 0⟩ := ⟨h, fun p hp => by cases hp⟩
    obtain ⟨d, hd, hsound, hpaint⟩ := Painting.foldlM_picture real hfits hfeed hgrows
      hstart hdeliver fun e => size_le_frameFuel
    obtain ⟨t, ht, -⟩ := hsound.finish
    refine ⟨t, ?_, ?_⟩
    · rw [process, if_neg hs, hd]
      exact ht
    · rw [Screen.process, if_neg hs]
      change (events.foldlM (Painting.onEvent real (frameFuel events))
        ⟨⟨s, none, 0⟩, s.matchState.picture real⟩ >>= Painting.finish real) = _
      rw [hpaint]
      exact Painting.finish_picture hsound hgrows ht

end Flowstate.Godot
