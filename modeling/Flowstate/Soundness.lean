import Flowstate.Operations
import Flowstate.Verification

/-!
# What an accepted artifact says

An artifact that `verifyReplay` accepts should say what it seems to say (`Sound`) : its
baseline is where the replay starts, its roster is the one that was spawned, every
character is driven by one recorded input on every tick and no input is idle, and the
digests are of the algorithm it names. The checks leave gaps : the tick range may run
backwards, ids are truncated to `u8` in the world only, a spawned player need not be mapped
nor a mapped one spawned, the last of several rows of a player wins, and nobody reads the
algorithm id. An accepted artifact is sound exactly if it falls into none of them
(`sound_iff`).
-/

set_option linter.unusedSectionVars false

open Rust

namespace Flowstate

variable {F : Type} [F64 F]

/-- The entity an input of the player moves : that of the player's first character. -/
def World.moved (w : World F) (playerId : PlayerId) : Option EntityId :=
  (w.characters.find? fun c => c.playerId == playerId).map Character.entityId

/-- One step input of the world's tick drives the character, and it comes from one recorded
input. -/
def DrivenOnce (a : ReplayArtifact F) (w : World F) (c : Character F) : Prop :=
  (a.inputs.countP fun input =>
    input.tick = w.tick ∧ w.moved input.playerId.toUInt8 = some c.entityId) = 1 ∧
  ∀ inputs, convertInputs a.inputs = .ok inputs →
    ((stepInputsAt (inputsByTick inputs) w.tick).countP fun input =>
      w.moved input.playerId = some c.entityId) = 1

/-- What an artifact should guarantee once it is accepted. -/
structure Sound (a : ReplayArtifact F) : Prop where
  anchored : ∃ baseline start, a.initialBaseline = some baseline ∧ reconstruct a = .ok start ∧
    start.tick = 0 ∧ baseline.tick = start.tick ∧ baseline.tick ≤ a.checkpointTick
  narrow : ∀ id ∈ a.entitySpawnOrder, id.toNat < 2 ^ 8
  distinct : a.entitySpawnOrder.Nodup
  roster : ∀ id, id ∈ a.entitySpawnOrder ↔ ∃ row ∈ a.playerEntityMapping, row.playerId = id
  respawned : ∀ start, reconstruct a = .ok start → ∀ row ∈ a.playerEntityMapping,
    ∃ c ∈ start.characters, c.playerId = row.playerId.toUInt8 ∧ c.entityId = row.entityId
  driven : ∀ k < replayLength a, ∀ w, verifyWorld a k = .ok w → ∀ c ∈ w.characters,
    DrivenOnce a w c
  applied : ∀ input ∈ a.inputs, ∃ k w, k < replayLength a ∧ verifyWorld a k = .ok w ∧
    w.tick = input.tick ∧ (w.moved input.playerId.toUInt8).isSome
  algorithm : a.stateDigestAlgoId = stateDigestAlgoId

/-- The artifact falls into none of the verifier's gaps. -/
structure NoGap (a : ReplayArtifact F) : Prop where
  forward : ∀ baseline, a.initialBaseline = some baseline → baseline.tick ≤ a.checkpointTick
  narrow : ∀ id ∈ a.entitySpawnOrder, id.toNat < 2 ^ 8
  mapped : ∀ id ∈ a.entitySpawnOrder, ∃ row ∈ a.playerEntityMapping, row.playerId = id
  spawned : ∀ row ∈ a.playerEntityMapping, row.playerId ∈ a.entitySpawnOrder
  functional : ∀ row ∈ a.playerEntityMapping, ∀ row' ∈ a.playerEntityMapping,
    row.playerId = row'.playerId → row.entityId = row'.entityId
  algorithm : a.stateDigestAlgoId = stateDigestAlgoId

/-! ## The rebuilt world -/

/-- The characters are in the order of their entity ids, all below the next one. -/
structure Ordered (w : World F) : Prop where
  pairwise : w.characters.Pairwise fun c d => c.entityId.toNat < d.entityId.toNat
  lt_next : ∀ c ∈ w.characters, c.entityId.toNat < w.nextEntityId.toNat

theorem Ordered.nodup {w : World F} (h : Ordered w) :
    (w.characters.map Character.entityId).Nodup := by
  rw [List.Nodup, List.pairwise_map]
  exact h.pairwise.imp fun hlt heq => by simp [heq] at hlt

/-- Spawning appends a character. -/
theorem Ordered.spawn {w w' : World F} {p : PlayerId} {e : EntityId} (h : Ordered w)
    (hspawn : w.spawnCharacter p = .ok (w', e)) :
    Ordered w' ∧ w'.tick = w.tick ∧ w'.characters = w.characters ++ [Character.new e p] := by
  obtain ⟨rfl, next, hnext, rfl⟩ := World.spawnCharacter_eq_ok.1 hspawn
  have happend : (w.characters ++ [Character.new w.nextEntityId p]).Pairwise
      fun c d : Character F => c.entityId.toNat < d.entityId.toNat := by
    refine List.pairwise_append.2 ⟨h.pairwise, List.pairwise_singleton _ _, fun c hc d hd => ?_⟩
    rw [List.mem_singleton.1 hd]
    exact h.lt_next c hc
  have hsort : sortByKey (fun c => c.entityId.toNat)
      (w.characters ++ [Character.new w.nextEntityId p]) =
        w.characters ++ [Character.new w.nextEntityId p] :=
    sortByKey_of_pairwise (happend.imp fun hlt => hlt.le)
  rw [hsort]
  refine ⟨⟨happend, fun c hc => ?_⟩, rfl, rfl⟩
  change c.entityId.toNat < next.toNat
  rcases List.mem_append.1 hc with hc | hc
  · have := h.lt_next c hc
    omega
  · rw [List.mem_singleton.1 hc, hnext]
    exact Nat.lt_succ_self _

/-- The character is the one an id spawns, with the entity the mapping names, if it names one. -/
def SpawnedAs (entities : HashMap UInt32 EntityId) (id : UInt32) (c : Character F) : Prop :=
  c.playerId = id.toUInt8 ∧ ∀ e, entities.lookup id = some e → c.entityId = e

/-- Respawning appends one character per id. -/
theorem respawn_spec {entities : HashMap UInt32 EntityId} : ∀ {ids : List UInt32}
    {w w' : World F}, Ordered w → respawn entities ids w = .ok w' →
      Ordered w' ∧ w'.tick = w.tick ∧ ∃ characters, w'.characters = w.characters ++ characters ∧
        List.Forall₂ (SpawnedAs entities) ids characters
  | [], w, w', hw, h => by
    obtain rfl := Except.ok.inj h
    exact ⟨hw, rfl, [], (List.append_nil _).symm, .nil⟩
  | id :: ids, w, w', hw, h => by
    obtain ⟨⟨w₁, e⟩, hspawn, h⟩ := bind_eq_ok.1 h
    obtain ⟨hw₁, htick, hchars⟩ := hw.spawn (liftPanic_eq_ok.1 hspawn)
    have hrest : respawn entities ids w₁ = .ok w' ∧
        ∀ e', entities.lookup id = some e' → e = e' := by
      rcases hlookup : entities.lookup id with _ | e'
      · simp only [hlookup] at h
        exact ⟨h, nofun⟩
      · simp only [hlookup, ite_error_eq_ok, not_not] at h
        exact ⟨h.2, fun e'' heq => h.1.trans (Option.some.inj heq)⟩
    obtain ⟨hw', htick', characters, hchars', hall⟩ := respawn_spec hw₁ hrest.1
    refine ⟨hw', htick'.trans htick, Character.new e id.toUInt8 :: characters, ?_,
      .cons ⟨rfl, hrest.2⟩ hall⟩
    rw [hchars', hchars, List.append_assoc]
    rfl

theorem reconstruct_spec {a : ReplayArtifact F} {start : World F}
    (h : reconstruct a = .ok start) : Ordered start ∧ start.tick = 0 ∧
      List.Forall₂ (SpawnedAs (playerEntityMap a)) a.entitySpawnOrder start.characters := by
  obtain ⟨w, hnew, h⟩ := bind_eq_ok.1 h
  rw [liftPanic_eq_ok, World.new] at hnew
  split_ifs at hnew
  obtain rfl := Except.ok.inj hnew
  obtain ⟨hordered, htick, characters, hchars, hall⟩ := respawn_spec
    ⟨List.Pairwise.nil, fun c hc => absurd hc List.not_mem_nil⟩ h
  rw [List.nil_append] at hchars
  exact ⟨hordered, htick, hchars ▸ hall⟩

/-! ## The replay -/

/-- Who the characters are : what a replay does not change. -/
def World.ids (w : World F) : List (EntityId × PlayerId) :=
  w.characters.map fun c => (c.entityId, c.playerId)

theorem ids_foldl_applyMovement (inputs : List (StepInput F)) (w : World F) :
    (inputs.foldl World.applyMovement w).ids = w.ids := by
  induction inputs generalizing w with
  | nil => rfl
  | cons i inputs ih =>
    rw [List.foldl_cons, ih]
    have hmodify : ∀ l : List (Character F), (modifyFirst (fun c => c.playerId == i.playerId)
        (Character.move w.dtSeconds i.moveDir) l).map (fun c => (c.entityId, c.playerId)) =
          l.map fun c => (c.entityId, c.playerId) := by
      intro l
      induction l with
      | nil => rfl
      | cons c l ihl =>
        rw [modifyFirst]
        split_ifs
        · rfl
        · rw [List.map_cons, List.map_cons, ihl]
    exact hmodify w.characters

/-- A replay keeps the characters, and advances the tick by one per tick. -/
theorem replayTicks_spec {groups : HashMap Tick (List (AppliedInput F))} :
    ∀ {ticks : List Tick} {w w' : World F}, replayTicks groups ticks w = .ok w' →
      w'.ids = w.ids ∧ w'.tick.toNat = w.tick.toNat + ticks.length
  | [], w, w', h => by
    obtain rfl := Except.ok.inj h
    exact ⟨rfl, rfl⟩
  | tick :: ticks, w, w', h => by
    obtain ⟨⟨w₁, snapshot⟩, hadvance, h⟩ := bind_eq_ok.1 h
    obtain ⟨rfl, -, t, ht, rfl, -⟩ := World.advance_eq_ok.1 hadvance
    obtain ⟨hids, htick⟩ := replayTicks_spec h
    refine ⟨hids.trans (ids_foldl_applyMovement _ w), ?_⟩
    rw [htick, List.length_cons]
    change t.toNat + _ = _
    omega

/-- The verifier's world after `k` ticks has the characters of the rebuilt one. -/
theorem verifyWorld_spec {a : ReplayArtifact F} {k : ℕ} {w : World F}
    (h : verifyWorld a k = .ok w) (hk : k ≤ replayLength a) :
    ∃ start, reconstruct a = .ok start ∧ w.ids = start.ids ∧ w.tick.toNat = k := by
  obtain ⟨baseline, start, inputs, -, hbaseline, hstart, -, -, hreplay⟩ := verifyWorld_eq_ok.1 h
  obtain ⟨hids, htick⟩ := replayTicks_spec hreplay
  refine ⟨start, hstart, hids, ?_⟩
  rw [replayLength, hbaseline] at hk
  rw [htick, (reconstruct_spec hstart).2.1, List.length_take, length_rangeU64, Nat.min_eq_left hk]
  exact Nat.zero_add k

/-- The verifier has a world after every tick it replays. -/
theorem exists_verifyWorld {a : ReplayArtifact F} {n : ℕ} {w' : World F}
    (h : verifyWorld a n = .ok w') {k : ℕ} (hk : k ≤ n) : ∃ w, verifyWorld a k = .ok w := by
  obtain ⟨baseline, start, inputs, hvalid, hbaseline, hstart, hdigest, hinputs, hreplay⟩ :=
    verifyWorld_eq_ok.1 h
  rw [← Nat.add_sub_of_le hk, List.take_add, replayTicks_append] at hreplay
  obtain ⟨w, hreplay, -⟩ := bind_eq_ok.1 hreplay
  exact ⟨w, verifyWorld_eq_ok.2
    ⟨baseline, start, inputs, hvalid, hbaseline, hstart, hdigest, hinputs, hreplay⟩⟩

/-! ## The roster -/

theorem toUInt8_inj {a b : UInt32} (ha : a.toNat < 2 ^ 8) (hb : b.toNat < 2 ^ 8) :
    a.toUInt8 = b.toUInt8 ↔ a = b := by
  refine ⟨fun h => UInt32.toNat_inj.1 ?_, congrArg _⟩
  have h := congrArg UInt8.toNat h
  rwa [UInt32.toNat_toUInt8, UInt32.toNat_toUInt8, Nat.mod_eq_of_lt ha, Nat.mod_eq_of_lt hb] at h

theorem forall₂_imp_mem {α β : Type} {R S : α → β → Prop} : ∀ {l : List α} {l' : List β},
    List.Forall₂ R l l' → (∀ x ∈ l, ∀ y, R x y → S x y) → List.Forall₂ S l l'
  | _, _, .nil, _ => .nil
  | _, _, .cons h hs, himp =>
    .cons (himp _ List.mem_cons_self _ h)
      (forall₂_imp_mem hs fun x hx => himp x (List.mem_cons_of_mem _ hx))

theorem exists_of_forall₂ {α β : Type} {R : α → β → Prop} : ∀ {l : List α} {l' : List β},
    List.Forall₂ R l l' → ∀ {x : α}, x ∈ l → ∃ y ∈ l', R x y
  | _, _, .nil, _, hx => absurd hx List.not_mem_nil
  | _, _, .cons h hs, _, hx => by
    rcases List.mem_cons.1 hx with rfl | hx
    · exact ⟨_, List.mem_cons_self, h⟩
    · obtain ⟨y, hy, hR⟩ := exists_of_forall₂ hs hx
      exact ⟨y, List.mem_cons_of_mem _ hy, hR⟩

/-- The players of the rebuilt world, in order. -/
theorem players_eq {a : ReplayArtifact F} {start : World F} (h : reconstruct a = .ok start) :
    start.characters.map Character.playerId = a.entitySpawnOrder.map UInt32.toUInt8 := by
  obtain ⟨-, -, hall⟩ := reconstruct_spec h
  rw [← List.forall₂_eq_eq_eq, List.forall₂_map_left_iff, List.forall₂_map_right_iff]
  exact (hall.imp fun id c hc => hc.1).flip

/-- With every spawned id mapped, no id is spawned twice : its entity would be two. -/
theorem nodup_spawnOrder {a : ReplayArtifact F} {start : World F}
    (h : reconstruct a = .ok start)
    (hmapped : ∀ id ∈ a.entitySpawnOrder, ∃ row ∈ a.playerEntityMapping, row.playerId = id) :
    a.entitySpawnOrder.Nodup := by
  obtain ⟨hordered, -, hall⟩ := reconstruct_spec h
  have hlookup : a.entitySpawnOrder.map (fun id => (playerEntityMap a).lookup id) =
      (start.characters.map Character.entityId).map some := by
    rw [List.map_map, ← List.forall₂_eq_eq_eq, List.forall₂_map_left_iff,
      List.forall₂_map_right_iff]
    refine forall₂_imp_mem hall fun id hid c hc => ?_
    obtain ⟨row, hrow, rfl⟩ := hmapped id hid
    rcases lookup_playerEntityMap a row.playerId with ⟨row', -, -, hsome⟩ | ⟨hnone, -⟩
    · rw [hsome, Function.comp_apply, hc.2 _ hsome]
    · exact absurd rfl (hnone row hrow)
  refine List.Nodup.of_map (fun id => (playerEntityMap a).lookup id) ?_
  rw [hlookup]
  exact hordered.nodup.map (Option.some_injective _)

/-- Narrow distinct ids spawn characters of distinct players. -/
theorem nodup_players {a : ReplayArtifact F} {start : World F} (h : reconstruct a = .ok start)
    (hnarrow : ∀ id ∈ a.entitySpawnOrder, id.toNat < 2 ^ 8) (hnodup : a.entitySpawnOrder.Nodup) :
    (start.characters.map Character.playerId).Nodup := by
  rw [players_eq h]
  exact hnodup.map_on fun id hid id' hid' heq =>
    (toUInt8_inj (hnarrow id hid) (hnarrow id' hid')).1 heq

/-- A character is moved by the inputs of its player and no others. -/
theorem moved_eq_some_iff {w : World F} (hentities : (w.characters.map Character.entityId).Nodup)
    (hplayers : (w.characters.map Character.playerId).Nodup) {c : Character F}
    (hc : c ∈ w.characters) (p : PlayerId) : w.moved p = some c.entityId ↔ p = c.playerId := by
  constructor
  · intro h
    obtain ⟨d, hfind, heq⟩ := Option.map_eq_some_iff.1 h
    obtain rfl := List.inj_on_of_nodup_map hentities (List.mem_of_find?_eq_some hfind) hc heq
    have hp := List.find?_some hfind
    exact (beq_iff_eq.1 hp).symm
  · rintro rfl
    rw [World.moved, find?_key_eq hplayers hc]
    rfl

/-- What the rebuilt world says of its ids, every world of the replay says of its own. -/
theorem nodup_of_ids_eq {w start : World F} (h : w.ids = start.ids) :
    w.characters.map Character.entityId = start.characters.map Character.entityId ∧
      w.characters.map Character.playerId = start.characters.map Character.playerId := by
  have hfst := congrArg (List.map Prod.fst) h
  have hsnd := congrArg (List.map Prod.snd) h
  rw [World.ids, World.ids, List.map_map, List.map_map] at hfst hsnd
  exact ⟨hfst, hsnd⟩

/-! ## Soundness -/

section Accepted

variable {a : ReplayArtifact F} {options : VerifyOptions}

/-- An accepted artifact whose ticks run forward starts at tick zero. -/
theorem baseline_tick_eq_zero (h : verifyReplay a options = .ok ()) {baseline : JoinBaseline F}
    (hbaseline : a.initialBaseline = some baseline) (hle : baseline.tick ≤ a.checkpointTick) :
    baseline.tick = 0 := by
  obtain ⟨-, w, hw, htick, -⟩ := verifyReplay_eq_ok.1 h
  obtain ⟨start, -, -, hlen⟩ := verifyWorld_spec hw le_rfl
  rw [replayLength, hbaseline, htick] at hlen
  rw [UInt64.le_iff_toNat_le] at hle
  exact UInt64.toNat_inj.1 (by rw [UInt64.toNat_zero]; dsimp only at hlen; omega)

/-- Every character is driven once by what is recorded for its player. -/
theorem drivenOnce (hgap : NoGap a) (h : verifyReplay a options = .ok ()) {k : ℕ} {w : World F}
    (hk : k < replayLength a) (hw : verifyWorld a k = .ok w) {c : Character F}
    (hc : c ∈ w.characters) : DrivenOnce a w c := by
  obtain ⟨start, hstart, hids, htick⟩ := verifyWorld_spec hw hk.le
  obtain ⟨baseline, _, _, hvalid, hbaseline, -⟩ := verifyWorld_eq_ok.1 hw
  obtain ⟨baseline', hbaseline', hcounts, hinputs⟩ := validateInputStream_eq_ok.1 hvalid
  obtain rfl : baseline = baseline' := Option.some.inj (hbaseline.symm.trans hbaseline')
  have hentities := (reconstruct_spec hstart).1.nodup
  have hplayers := nodup_players hstart hgap.narrow (nodup_spawnOrder hstart hgap.mapped)
  obtain ⟨hsameEntities, hsamePlayers⟩ := nodup_of_ids_eq hids
  rw [← hsameEntities] at hentities
  rw [← hsamePlayers] at hplayers
  have hmoved := fun p => moved_eq_some_iff hentities hplayers hc p
  -- The character's player is that of a mapped id, which has one input for the tick.
  have hplayer : c.playerId ∈ a.entitySpawnOrder.map UInt32.toUInt8 := by
    rw [← players_eq hstart, ← hsamePlayers]
    exact List.mem_map_of_mem hc
  obtain ⟨id, hid, hidc⟩ := List.mem_map.1 hplayer
  obtain ⟨row, hrow, rfl⟩ := hgap.mapped id hid
  have hzero := baseline_tick_eq_zero h hbaseline (hgap.forward baseline hbaseline)
  have hrange : w.tick ∈ rangeU64 baseline.tick a.checkpointTick := by
    rw [mem_rangeU64, htick, hzero, UInt64.toNat_zero]
    rw [replayLength, hbaseline] at hk
    dsimp only at hk
    omega
  have hone := hcounts row hrow w.tick hrange
  have hcount : (a.inputs.countP fun input =>
      input.tick = w.tick ∧ w.moved input.playerId.toUInt8 = some c.entityId) = 1 := by
    rw [← hone]
    refine List.countP_congr fun input hinput => ?_
    obtain ⟨-, row', hrow', hplayer'⟩ := hinputs input hinput
    have hnarrow : input.playerId.toNat < 2 ^ 8 :=
      hplayer' ▸ hgap.narrow _ (hgap.spawned row' hrow')
    rw [decide_eq_true_iff, decide_eq_true_iff, hmoved, ← hidc,
      toUInt8_inj hnarrow (hgap.narrow _ hid), and_comm]
  refine ⟨hcount, fun inputs hconvert => ?_⟩
  have hperm := perm_sortByKey (fun i : StepInput F => i.playerId.toNat)
    ((inputs.filter fun input => input.tick = w.tick).map AppliedInput.toStepInput)
  rw [stepInputsAt_inputsByTick, hperm.countP_eq, List.countP_map, List.countP_filter, ← hcount]
  -- Converting keeps the tick and truncates the player.
  have hsame := congrArg (List.countP fun x : Tick × PlayerId =>
    x.1 = w.tick ∧ w.moved x.2 = some c.entityId) (convertInputs_eq_ok hconvert)
  rw [List.countP_map, List.countP_map] at hsame
  refine (List.countP_congr fun input _ => ?_).trans hsame
  simp only [Function.comp_apply, AppliedInput.toStepInput, Bool.and_eq_true, decide_eq_true_iff]
  exact and_comm.trans (and_congr_right fun _ => decide_eq_true_iff)

/-- No recorded input is idle. -/
theorem exists_moved (hgap : NoGap a) (h : verifyReplay a options = .ok ())
    {input : AppliedInputProto F} (hinput : input ∈ a.inputs) :
    ∃ k w, k < replayLength a ∧ verifyWorld a k = .ok w ∧ w.tick = input.tick ∧
      (w.moved input.playerId.toUInt8).isSome := by
  obtain ⟨-, w', hw', -⟩ := verifyReplay_eq_ok.1 h
  obtain ⟨baseline, _, _, hvalid, hbaseline, -⟩ := verifyWorld_eq_ok.1 hw'
  obtain ⟨baseline', hbaseline', -, hinputs⟩ := validateInputStream_eq_ok.1 hvalid
  obtain rfl : baseline = baseline' := Option.some.inj (hbaseline.symm.trans hbaseline')
  obtain ⟨hrange, row, hrow, hplayer⟩ := hinputs input hinput
  have hzero := baseline_tick_eq_zero h hbaseline (hgap.forward baseline hbaseline)
  have hk : input.tick.toNat < replayLength a := by
    rw [replayLength, hbaseline]
    dsimp only
    rw [hzero, UInt64.toNat_zero]
    exact (mem_rangeU64.1 hrange).2
  obtain ⟨w, hw⟩ := exists_verifyWorld hw' hk.le
  obtain ⟨start, hstart, hids, htick⟩ := verifyWorld_spec hw hk.le
  refine ⟨_, w, hk, hw, UInt64.toNat_inj.1 htick, ?_⟩
  have hmem : input.playerId.toUInt8 ∈ w.characters.map Character.playerId := by
    rw [(nodup_of_ids_eq hids).2, players_eq hstart, ← hplayer]
    exact List.mem_map_of_mem (hgap.spawned row hrow)
  obtain ⟨c, hc, hcp⟩ := List.mem_map.1 hmem
  rw [World.moved, Option.isSome_map, List.find?_isSome]
  exact ⟨c, hc, beq_iff_eq.2 hcp⟩

/-- A mapped player spawns as the entity its row names, if all its rows name the same. -/
theorem exists_respawned (hgap : NoGap a) {start : World F} (hstart : reconstruct a = .ok start)
    {row : PlayerEntityMapping} (hrow : row ∈ a.playerEntityMapping) :
    ∃ c ∈ start.characters, c.playerId = row.playerId.toUInt8 ∧ c.entityId = row.entityId := by
  obtain ⟨-, -, hall⟩ := reconstruct_spec hstart
  obtain ⟨c, hc, hplayer, hentity⟩ := exists_of_forall₂ hall (hgap.spawned row hrow)
  refine ⟨c, hc, hplayer, ?_⟩
  rcases lookup_playerEntityMap a row.playerId with ⟨row', hrow', hsame, hsome⟩ | ⟨hnone, -⟩
  · rw [hentity _ hsome, hgap.functional row' hrow' row hrow hsame]
  · exact absurd rfl (hnone row hrow)

theorem sound_of_noGap (h : verifyReplay a options = .ok ()) (hgap : NoGap a) : Sound a := by
  obtain ⟨-, w, hw, -⟩ := verifyReplay_eq_ok.1 h
  obtain ⟨baseline, start, _, -, hbaseline, hstart, -⟩ := verifyWorld_eq_ok.1 hw
  have hforward := hgap.forward baseline hbaseline
  have hzero := (reconstruct_spec hstart).2.1
  exact {
    anchored := ⟨baseline, start, hbaseline, hstart, hzero,
      (baseline_tick_eq_zero h hbaseline hforward).trans hzero.symm, hforward⟩
    narrow := hgap.narrow
    distinct := nodup_spawnOrder hstart hgap.mapped
    roster := fun id => ⟨hgap.mapped id, fun ⟨row, hrow, heq⟩ => heq ▸ hgap.spawned row hrow⟩
    respawned := fun start hstart row hrow => exists_respawned hgap hstart hrow
    driven := fun k hk w hw c hc => drivenOnce hgap h hk hw hc
    applied := fun input hinput => exists_moved hgap h hinput
    algorithm := hgap.algorithm }

/-- Rows of one player name one entity, as the player has one character. -/
theorem functional_of_sound (hsound : Sound a) {row row' : PlayerEntityMapping}
    (hrow : row ∈ a.playerEntityMapping) (hrow' : row' ∈ a.playerEntityMapping)
    (hsame : row.playerId = row'.playerId) : row.entityId = row'.entityId := by
  obtain ⟨-, start, -, hstart, -⟩ := hsound.anchored
  obtain ⟨c, hc, hplayer, hentity⟩ := hsound.respawned start hstart row hrow
  obtain ⟨c', hc', hplayer', hentity'⟩ := hsound.respawned start hstart row' hrow'
  have hnodup := nodup_players hstart hsound.narrow hsound.distinct
  have heq : c.playerId = c'.playerId := by rw [hplayer, hplayer', hsame]
  rw [← hentity, ← hentity', List.inj_on_of_nodup_map hnodup hc hc' heq]

theorem noGap_of_sound (hsound : Sound a) : NoGap a := by
  obtain ⟨baseline, start, hbaseline, -, -, -, hforward⟩ := hsound.anchored
  exact {
    forward := fun baseline' hbaseline' =>
      Option.some.inj (hbaseline.symm.trans hbaseline') ▸ hforward
    narrow := hsound.narrow
    mapped := fun id hid => (hsound.roster id).1 hid
    spawned := fun row hrow => (hsound.roster row.playerId).2 ⟨row, hrow, rfl⟩
    functional := fun row hrow row' hrow' => functional_of_sound hsound hrow hrow'
    algorithm := hsound.algorithm }

/-- An accepted artifact is sound exactly if it falls into none of the verifier's gaps. -/
theorem sound_iff (h : verifyReplay a options = .ok ()) : Sound a ↔ NoGap a :=
  ⟨noGap_of_sound, sound_of_noGap h⟩

end Accepted

/-- Two ids that are one player after truncation : `256` respawns as a second character of
player `0`, which no input ever moves. -/
def aliased : ReplayArtifact ℚ where
  replayFormatVersion := 1
  initialBaseline :=
    some ⟨0, [⟨1, [0, 0], [0, 0]⟩, ⟨2, [0, 0], [0, 0]⟩], 17290217074175116294⟩
  seed := 0
  rngAlgorithm := "none"
  tickRateHz := 30
  stateDigestAlgoId := stateDigestAlgoId
  entitySpawnOrder := [0, 256]
  playerEntityMapping := [⟨0, 1⟩]
  tuningParameters := [⟨"move_speed", moveSpeed⟩]
  inputs := [⟨0, 0, [0, 0], true⟩]
  buildFingerprint := none
  finalDigest := 16743875631366089511
  checkpointTick := 1
  endReason := "complete"
  testMode := false
  testPlayerIds := []

/-- The verifier accepts the aliased artifact, which is not sound. -/
theorem accepted_not_sound : verifyReplay aliased ⟨true, none⟩ = .ok () ∧ ¬Sound aliased := by
  refine ⟨by decide +kernel, fun hsound => ?_⟩
  exact absurd (hsound.narrow 256 (by decide)) (by decide)

/-- The aliased artifact without the second id. -/
def unaliased : ReplayArtifact ℚ :=
  { aliased with
    entitySpawnOrder := [0]
    initialBaseline := some ⟨0, [⟨1, [0, 0], [0, 0]⟩], 144550112201686084⟩
    finalDigest := 17744167728085989573 }

theorem unaliased_sound : Sound unaliased := by
  have h : verifyReplay unaliased ⟨true, none⟩ = .ok () := by decide +kernel
  refine (sound_iff h).2 ⟨?_, ?_, ?_, by decide, by decide, rfl⟩
  · rintro baseline ⟨⟩
    decide
  · intro id hid
    rw [List.mem_singleton.1 hid]
    decide
  · intro id hid
    exact ⟨⟨0, 1⟩, List.mem_singleton_self _, (List.mem_singleton.1 hid).symm⟩

end Flowstate
