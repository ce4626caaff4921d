import Flowstate.Stream
import Flowstate.Totality

/-!
# Tampered recordings

What a recording can lose or gain without the verifier noticing. The stream check fixes the
recorded inputs up to their order : two accepted artifacts of the same players and ticks
record the same pairs (`perm_pairs`). Whoever drops an input, adds one, or gives one to
another player or another tick is refused, and so is whoever claims a longer or a shorter
match, or other players. The respawn fixes the entity ids : the places of the spawn order
are counted from one (`inOrder_of_reconstruct`), so that the players can be neither
renumbered nor reordered. The digests fix themselves. No such edit of an accepted artifact is
accepted (`refused_of_edit`), under any options : the build is not needed for it.

What is not read can be anything. The seed of the world, what a baseline lists, which inputs
were fallbacks, the tuning parameters, the algorithms' names, the format version, the end
reason and what was under test : an artifact with all of them blanked gives the same answer,
down to the error and the panic (`verifyReplay_blank`).
-/

set_option linter.unusedSectionVars false

open Rust

namespace Flowstate

variable {F : Type} [F64 F]

/-! ## What the stream check fixes -/

/-- The accepted streams of the same players and ticks are the same up to order. -/
theorem perm_pairs {a b : ReplayArtifact F} {tick : Tick}
    (ha : Set.BijOn a.pairs.get Set.univ (a.expected tick))
    (hb : Set.BijOn b.pairs.get Set.univ (b.expected tick))
    (hexpected : a.expected tick = b.expected tick) : a.pairs.Perm b.pairs := by
  obtain ⟨honce, hmem⟩ := bijOn_get_iff.1 ha
  obtain ⟨honce', hmem'⟩ := bijOn_get_iff.1 hb
  refine List.perm_iff_count.2 fun x => ?_
  by_cases hx : x ∈ a.expected tick
  · rw [honce x hx, honce' x (hexpected ▸ hx)]
  · rw [List.count_eq_zero_of_not_mem fun h => hx (hmem x h),
      List.count_eq_zero_of_not_mem fun h => hx (hexpected ▸ hmem' x h)]

/-- Replacing an element by another one is not a reordering. -/
theorem eq_of_set_perm {α : Type} [DecidableEq α] {l : List α} {i : ℕ} (hi : i < l.length)
    {x : α} (h : (l.set i x).Perm l) : l[i] = x := by
  have hset := (List.set_perm_cons_eraseIdx hi x).symm.trans h
  have hcount := (hset.trans (List.getElem_cons_eraseIdx_perm hi).symm).count_eq x
  rw [List.count_cons_self, List.count_cons] at hcount
  by_contra hne
  rw [if_neg (by simpa using hne)] at hcount
  omega

/-! ## What the respawn fixes -/

theorem inOrder_of_respawn {entities : HashMap UInt32 EntityId} : ∀ {ids : List UInt32}
    {w w' : World F}, respawn entities ids w = .ok w' →
      InOrder entities w.nextEntityId.toNat ids
  | [], _, _, _ => fun i id hi => absurd hi (by simp)
  | id :: ids, w, w', h => by
    obtain ⟨⟨w₁, e⟩, hspawn, h⟩ := bind_eq_ok.1 h
    obtain ⟨rfl, next, hnext, hw₁⟩ := World.spawnCharacter_eq_ok.1 (liftPanic_eq_ok.1 hspawn)
    have hrest : respawn entities ids w₁ = .ok w' ∧
        ∀ e, entities.lookup id = some e → w.nextEntityId = e := by
      rcases hlookup : entities.lookup id with _ | e
      · simp only [hlookup] at h
        exact ⟨h, fun e he => absurd he (by simp)⟩
      · simp only [hlookup, ite_error_eq_ok, not_not] at h
        exact ⟨h.2, fun e' heq => h.1.trans (Option.some.inj heq)⟩
    have htail := inOrder_of_respawn hrest.1
    rw [hw₁, hnext] at htail
    exact inOrder_cons.2 ⟨fun e he => by rw [hrest.2 e he], htail⟩

/-- The mapped players of a rebuilt world are numbered by their places, from one. -/
theorem inOrder_of_reconstruct {a : ReplayArtifact F} {start : World F}
    (h : reconstruct a = .ok start) : InOrder (playerEntityMap a) 1 a.entitySpawnOrder := by
  obtain ⟨w, hnew, h⟩ := bind_eq_ok.1 h
  rw [liftPanic_eq_ok, World.new] at hnew
  split_ifs at hnew
  obtain rfl := Except.ok.inj hnew
  exact inOrder_of_respawn h

/-- A list of mapped ids is in order in one way only. -/
theorem inOrder_unique {entities : HashMap UInt32 EntityId} {n : ℕ} {ids ids' : List UInt32}
    (h : InOrder entities n ids) (h' : InOrder entities n ids') (hperm : ids'.Perm ids)
    (hmapped : ∀ id ∈ ids, (entities.lookup id).isSome) : ids' = ids := by
  refine List.ext_getElem hperm.length_eq fun i hi' hi => ?_
  -- The id at place `i` of the one list is at some place of the other, and its entity says
  -- at which.
  have hmem : ids'[i] ∈ ids := hperm.mem_iff.1 (List.getElem_mem hi')
  obtain ⟨j, hj, hji⟩ := List.getElem_of_mem hmem
  obtain ⟨e, he⟩ := Option.isSome_iff_exists.1 (hmapped _ hmem)
  have hplace := h j _ (List.getElem?_eq_getElem hj) e (hji ▸ he)
  have hplace' := h' i _ (List.getElem?_eq_getElem hi') e he
  obtain rfl : j = i := by omega
  exact hji.symm

/-! ## Edits -/

namespace ReplayArtifact

/-- Some row maps the player. -/
def Maps (a : ReplayArtifact F) (playerId : UInt32) : Prop :=
  ∃ row ∈ a.playerEntityMapping, row.playerId = playerId

/-- The artifact with another mapping. -/
def withMapping (a : ReplayArtifact F) (playerEntityMapping : List PlayerEntityMapping) :
    ReplayArtifact F :=
  { a with playerEntityMapping }

/-- An edit of an artifact that changes what happened : who played, for how long, what was
recorded for whom, or what came out of it. -/
inductive Edit (a : ReplayArtifact F) : ReplayArtifact F → Prop
  /-- An input is lost. -/
  | drop (i : ℕ) (hi : i < a.inputs.length) : Edit a (a.withInputs (a.inputs.eraseIdx i))
  /-- An input is made up. -/
  | add (i : ℕ) (hi : i ≤ a.inputs.length) (input : AppliedInputProto F) :
    Edit a (a.withInputs (a.inputs.insertIdx i input))
  /-- An input is replaced by one of another player or another tick. -/
  | redirect (i : ℕ) (hi : i < a.inputs.length) (input : AppliedInputProto F)
    (h : (input.playerId, input.tick) ≠ (a.inputs[i].playerId, a.inputs[i].tick)) :
    Edit a (a.withInputs (a.inputs.set i input))
  /-- An input is replaced by one whose direction is not two numbers. -/
  | malform (i : ℕ) (hi : i < a.inputs.length) (input : AppliedInputProto F)
    (h : input.moveDir.length ≠ 2) : Edit a (a.withInputs (a.inputs.set i input))
  /-- Another set of players is mapped. -/
  | players (rows : List PlayerEntityMapping) (playerId : UInt32)
    (h : ¬((a.withMapping rows).Maps playerId ↔ a.Maps playerId)) : Edit a (a.withMapping rows)
  /-- A spawned player is mapped to another entity. -/
  | renumber (rows : List PlayerEntityMapping) (playerId : UInt32) (e e' : EntityId)
    (hspawned : playerId ∈ a.entitySpawnOrder) (h : e ≠ e')
    (he : (playerEntityMap a).lookup playerId = some e)
    (he' : (playerEntityMap (a.withMapping rows)).lookup playerId = some e') :
    Edit a (a.withMapping rows)
  /-- Mapped players spawn in another order. -/
  | reorder (ids : List UInt32) (hperm : ids.Perm a.entitySpawnOrder)
    (h : ids ≠ a.entitySpawnOrder) (hmapped : ∀ id ∈ a.entitySpawnOrder, a.Maps id) :
    Edit a { a with entitySpawnOrder := ids }
  /-- The baseline is removed. -/
  | noBaseline : Edit a { a with initialBaseline := none }
  /-- The baseline is of another tick or another world. -/
  | baseline (old new : JoinBaseline F) (hold : a.initialBaseline = some old)
    (h : (new.tick, new.digest) ≠ (old.tick, old.digest)) :
    Edit a { a with initialBaseline := some new }
  /-- The match is longer or shorter. -/
  | checkpointTick (tick : Tick) (h : tick ≠ a.checkpointTick) :
    Edit a { a with checkpointTick := tick }
  /-- The match ends in another world. -/
  | finalDigest (digest : UInt64) (h : digest ≠ a.finalDigest) :
    Edit a { a with finalDigest := digest }

end ReplayArtifact

/-! ## Refusal -/

variable {a b : ReplayArtifact F} {options options' : VerifyOptions}

/-- What an accepted artifact is known to satisfy, of a recording with inputs. -/
structure Accepted (a : ReplayArtifact F) (baseline : JoinBaseline F) : Prop where
  present : a.initialBaseline = some baseline
  complete : Set.BijOn a.pairs.get Set.univ (a.expected baseline.tick)
  order : InOrder (playerEntityMap a) 1 a.entitySpawnOrder
  anchored : ∃ start, reconstruct a = .ok start ∧ start.stateDigest = baseline.digest
  directions : ∀ input ∈ a.inputs, input.moveDir.length = 2
  final : ∃ w, verifyWorld a (replayLength a) = .ok w ∧ w.stateDigest = a.finalDigest
  start : a.inputs ≠ [] → baseline.tick = 0

/-- A recorded input is of a mapped player and a tick of the range. -/
theorem Accepted.mem_expected {baseline : JoinBaseline F} (h : Accepted a baseline)
    {input : AppliedInputProto F} (hinput : input ∈ a.inputs) :
    (input.playerId, input.tick) ∈ a.expected baseline.tick :=
  (bijOn_get_iff.1 h.complete).2 _ (List.mem_map_of_mem hinput)

/-- Every mapped player has an input at every tick of the range. -/
theorem Accepted.mem_pairs {baseline : JoinBaseline F} (h : Accepted a baseline)
    {playerId : UInt32} {tick : Tick} (hmaps : a.Maps playerId)
    (hle : baseline.tick.toNat ≤ tick.toNat) (hlt : tick.toNat < a.checkpointTick.toNat) :
    (playerId, tick) ∈ a.pairs := by
  have honce := (bijOn_get_iff.1 h.complete).1 (playerId, tick) ⟨hmaps, hle, hlt⟩
  exact List.count_pos_iff.1 (honce ▸ Nat.one_pos)

theorem accepted (h : verifyReplay a options = .ok ()) : ∃ baseline, Accepted a baseline := by
  obtain ⟨-, w, hw, -, hdigest⟩ := verifyReplay_eq_ok.1 h
  obtain ⟨baseline, start, inputs, hvalid, hbaseline, hstart, hanchor, hinputs, -⟩ :=
    verifyWorld_eq_ok.1 hw
  obtain ⟨baseline', hbaseline', hcomplete⟩ := validateInputStream_iff_bijOn.1 hvalid
  obtain rfl : baseline = baseline' := Option.some.inj (hbaseline.symm.trans hbaseline')
  refine ⟨baseline, hbaseline, hcomplete, inOrder_of_reconstruct hstart,
    ⟨start, hstart, hanchor⟩, exists_convertInputs.1 ⟨inputs, hinputs⟩, ⟨w, hw, hdigest⟩,
    fun hne => ?_⟩
  -- An input lies between the baseline and the checkpoint.
  obtain ⟨input, hinput⟩ := List.exists_mem_of_ne_nil _ hne
  obtain ⟨-, hle, hlt⟩ := (bijOn_get_iff.1 hcomplete).2 _ (List.mem_map_of_mem hinput)
  exact baseline_tick_eq_zero h hbaseline (UInt64.le_iff_toNat_le.2 (hle.trans hlt.le))

/-- Two accepted artifacts of the same mapping and ticks record the same pairs. -/
theorem Accepted.perm {baseline : JoinBaseline F} {inputs : List (AppliedInputProto F)}
    (ha : Accepted a baseline) (hb : Accepted (a.withInputs inputs) baseline) :
    ((a.withInputs inputs).pairs).Perm a.pairs :=
  perm_pairs hb.complete ha.complete rfl

/-- No edit of an accepted artifact with inputs is accepted. -/
theorem refused_of_edit (h : verifyReplay a options = .ok ()) (hne : a.inputs ≠ [])
    (hedit : a.Edit b) : verifyReplay b options' ≠ .ok () := by
  intro hb
  obtain ⟨baseline, ha⟩ := accepted h
  obtain ⟨baseline', hb⟩ := accepted hb
  have hzero := ha.start hne
  cases hedit with
  | drop i hi =>
    obtain rfl : baseline = baseline' := Option.some.inj (ha.present.symm.trans hb.present)
    have hlen := (ha.perm hb).length_eq
    simp only [ReplayArtifact.pairs, ReplayArtifact.withInputs, List.length_map,
      List.length_eraseIdx_of_lt hi] at hlen
    omega
  | add i hi input =>
    obtain rfl : baseline = baseline' := Option.some.inj (ha.present.symm.trans hb.present)
    have hlen := (ha.perm hb).length_eq
    simp only [ReplayArtifact.pairs, ReplayArtifact.withInputs, List.length_map,
      List.length_insertIdx_of_le_length hi] at hlen
    omega
  | redirect i hi input hkey =>
    obtain rfl : baseline = baseline' := Option.some.inj (ha.present.symm.trans hb.present)
    have hperm := ha.perm hb
    simp only [ReplayArtifact.pairs, ReplayArtifact.withInputs, List.map_set] at hperm
    have hlt : i < (a.inputs.map fun input => (input.playerId, input.tick)).length := by
      rwa [List.length_map]
    refine hkey ((eq_of_set_perm hlt hperm).symm.trans ?_)
    rw [List.getElem_map]
  | malform i hi input hdir =>
    exact hdir (hb.directions input (List.mem_set hi input))
  | players rows playerId hmaps =>
    obtain rfl : baseline = baseline' := Option.some.inj (ha.present.symm.trans hb.present)
    obtain ⟨input, hinput⟩ := List.exists_mem_of_ne_nil _ hne
    obtain ⟨-, hle, hlt⟩ := ha.mem_expected hinput
    refine hmaps ⟨fun hnew => ?_, fun hold => ?_⟩
    · obtain ⟨x, hx, hkey⟩ := List.mem_map.1 (hb.mem_pairs hnew hle hlt)
      obtain rfl : x.playerId = playerId := (Prod.mk.inj hkey).1
      exact (ha.mem_expected hx).1
    · obtain ⟨x, hx, hkey⟩ := List.mem_map.1 (ha.mem_pairs hold hle hlt)
      obtain rfl : x.playerId = playerId := (Prod.mk.inj hkey).1
      exact (hb.mem_expected hx).1
  | renumber rows playerId e e' hspawned hne he he' =>
    obtain ⟨i, hi, rfl⟩ := List.getElem_of_mem hspawned
    have hplace := ha.order i _ (List.getElem?_eq_getElem hi) e he
    have hplace' := hb.order i _ (List.getElem?_eq_getElem hi) e' he'
    exact hne (UInt64.toNat_inj.1 (hplace.trans hplace'.symm))
  | reorder ids hperm hids hmapped =>
    refine hids (inOrder_unique ha.order hb.order hperm fun id hid => ?_)
    rcases lookup_playerEntityMap a id with ⟨row, -, -, hrow⟩ | ⟨hunmapped, -⟩
    · exact Option.isSome_iff_exists.2 ⟨_, hrow⟩
    · obtain ⟨row, hrow, hrowId⟩ := hmapped id hid
      exact absurd hrowId (hunmapped row hrow)
  | noBaseline => cases hb.present
  | baseline old new hold hchanged =>
    obtain rfl : baseline = old := Option.some.inj (ha.present.symm.trans hold)
    obtain rfl : new = baseline' := Option.some.inj hb.present
    obtain ⟨start, hstart, hdigest⟩ := ha.anchored
    obtain ⟨start', hstart', hdigest'⟩ := hb.anchored
    obtain rfl : start = start' := Except.ok.inj (hstart.symm.trans hstart')
    exact hchanged (Prod.ext ((hb.start hne).trans hzero.symm) (hdigest'.symm.trans hdigest))
  | checkpointTick tick htick =>
    obtain rfl : baseline = baseline' := Option.some.inj (ha.present.symm.trans hb.present)
    obtain ⟨input, hinput⟩ := List.exists_mem_of_ne_nil _ hne
    obtain ⟨hmaps, hle, hlt⟩ := ha.mem_expected hinput
    obtain ⟨-, -, hlt'⟩ := hb.mem_expected hinput
    -- The player has an input at the earlier of the two checkpoints, in the longer match.
    rcases lt_or_gt_of_ne fun heq => htick (UInt64.toNat_inj.1 heq) with hearly | hlate
    · obtain ⟨x, hx, hkey⟩ := List.mem_map.1 (ha.mem_pairs hmaps (hle.trans hlt'.le) hearly)
      obtain ⟨-, -, hxlt⟩ := hb.mem_expected hx
      rw [(Prod.mk.inj hkey).2] at hxlt
      exact lt_irrefl _ hxlt
    · obtain ⟨x, hx, hkey⟩ := List.mem_map.1 (hb.mem_pairs hmaps (hle.trans hlt.le) hlate)
      obtain ⟨-, -, hxlt⟩ := ha.mem_expected hx
      rw [(Prod.mk.inj hkey).2] at hxlt
      exact lt_irrefl _ hxlt
  | finalDigest digest hdigest =>
    obtain ⟨w, hw, hfinal⟩ := ha.final
    obtain ⟨w', hw', hfinal'⟩ := hb.final
    obtain rfl : w = w' := Except.ok.inj (hw.symm.trans hw')
    exact hdigest (hfinal'.symm.trans hfinal)

/-- The verifier refuses a recording of one player that lost its only input. -/
theorem refused_of_drop :
    verifyReplay unaliased ⟨true, none⟩ = .ok () ∧ unaliased.inputs ≠ [] ∧
      unaliased.Edit (unaliased.withInputs (unaliased.inputs.eraseIdx 0)) ∧
      verifyReplay (unaliased.withInputs (unaliased.inputs.eraseIdx 0)) ⟨true, none⟩ ≠
        .ok () := by
  have hok : verifyReplay unaliased ⟨true, none⟩ = .ok () := by decide +kernel
  have hne : unaliased.inputs ≠ [] := by decide
  have hedit := ReplayArtifact.Edit.drop (a := unaliased) 0 (by decide)
  exact ⟨hok, hne, hedit, refused_of_edit hok hne hedit⟩

/-! ## What is not read -/

/-- The world under another seed. -/
def World.reseed (w : World F) (seed : UInt64) : World F := { w with seed }

namespace World

theorem reseed_spawnCharacter (w : World F) (seed : UInt64) (p : PlayerId) :
    (w.reseed seed).spawnCharacter p =
      (w.spawnCharacter p).map fun x => (x.1.reseed seed, x.2) := by
  simp only [spawnCharacter, reseed]
  rcases addU64 w.nextEntityId 1 with e | next <;> rfl

theorem reseed_foldl_applyMovement (seed : UInt64) :
    ∀ (inputs : List (StepInput F)) (w : World F),
      inputs.foldl applyMovement (w.reseed seed) = (inputs.foldl applyMovement w).reseed seed
  | [], _ => rfl
  | i :: inputs, w => reseed_foldl_applyMovement seed inputs (w.applyMovement i)

theorem reseed_advance (w : World F) (seed : UInt64) (tick : Tick) (inputs : List (StepInput F)) :
    (w.reseed seed).advance tick inputs =
      (w.advance tick inputs).map fun x => (x.1.reseed seed, x.2) := by
  by_cases htick : tick = w.tick
  · subst htick
    by_cases hsorted : inputs.IsChain fun a b => a.playerId ≤ b.playerId
    · rw [advance_eq_advanceUnsorted _ _ hsorted, advance_eq_advanceUnsorted _ _ hsorted,
        advanceUnsorted_self]
      change (w.reseed seed).advanceUnsorted (w.reseed seed).tick inputs = _
      rw [advanceUnsorted_self, reseed_foldl_applyMovement]
      change addU64 w.tick 1 >>= _ = _
      rcases addU64 w.tick 1 with e | t <;> rfl
    · change (w.reseed seed).advance (w.reseed seed).tick inputs = _
      simp only [advance, ne_eq, not_true_eq_false, if_false, hsorted, not_false_eq_true, if_true]
      rfl
  · have htick' : tick ≠ (w.reseed seed).tick := htick
    rw [advance, advance, if_pos htick, if_pos htick']
    rfl

end World

theorem reseed_respawn (entities : HashMap UInt32 EntityId) (seed : UInt64) :
    ∀ (ids : List UInt32) (w : World F), respawn entities ids (w.reseed seed) =
      (respawn entities ids w).map fun w => w.reseed seed
  | [], _ => rfl
  | id :: ids, w => by
    rw [respawn, respawn, World.reseed_spawnCharacter]
    rcases w.spawnCharacter id.toUInt8 with p | ⟨w₁, e⟩
    · rfl
    · simp only [Except.map, liftPanic, bind, Except.bind]
      rcases entities.lookup id with _ | e'
      · exact reseed_respawn entities seed ids w₁
      · dsimp only
        split_ifs
        · rfl
        · exact reseed_respawn entities seed ids w₁

theorem reseed_replayTicks (groups : HashMap Tick (List (AppliedInput F))) (seed : UInt64) :
    ∀ (ticks : List Tick) (w : World F), replayTicks groups ticks (w.reseed seed) =
      (replayTicks groups ticks w).map fun w => w.reseed seed
  | [], _ => rfl
  | tick :: ticks, w => by
    rw [replayTicks, replayTicks, World.reseed_advance]
    rcases w.advance tick (stepInputsAt groups tick) with p | ⟨w₁, snapshot⟩
    · rfl
    · exact reseed_replayTicks groups seed ticks w₁

omit [F64 F] in
/-- The input, not a fallback. -/
def AppliedInputProto.unmarked (input : AppliedInputProto F) : AppliedInputProto F :=
  { input with isFallback := false }

namespace ReplayArtifact

/-- The artifact with everything that verification does not read at its default. -/
def blank (a : ReplayArtifact F) : ReplayArtifact F where
  replayFormatVersion := 0
  initialBaseline := a.initialBaseline.map fun baseline => { baseline with entities := [] }
  seed := 0
  rngAlgorithm := ""
  tickRateHz := a.tickRateHz
  stateDigestAlgoId := ""
  entitySpawnOrder := a.entitySpawnOrder
  playerEntityMapping := a.playerEntityMapping
  tuningParameters := []
  inputs := a.inputs.map AppliedInputProto.unmarked
  buildFingerprint := a.buildFingerprint.map fun f => { f with gitCommit := "" }
  finalDigest := a.finalDigest
  checkpointTick := a.checkpointTick
  endReason := ""
  testMode := false
  testPlayerIds := []

variable (a : ReplayArtifact F)

theorem verifyBuild_blank (options : VerifyOptions) :
    verifyBuild a.blank options = verifyBuild a options := by
  rw [verifyBuild, verifyBuild, blank]
  rcases a.buildFingerprint with _ | f <;> rcases options.currentBuild with _ | current <;> rfl

theorem validateInputStream_blank : validateInputStream a.blank = validateInputStream a := by
  rw [validateInputStream, validateInputStream, blank]
  rcases a.initialBaseline with _ | baseline
  · rfl
  · simp only [Option.map_some, List.foldl_map, List.forM_eq_forM, List.forM_map]
    rfl

theorem reconstruct_blank :
    reconstruct a.blank = (reconstruct a).map fun w => w.reseed 0 := by
  have hnew : World.new 0 a.tickRateHz =
      (World.new (F := F) a.seed a.tickRateHz).map fun w => w.reseed 0 := by
    rw [World.new, World.new]
    split_ifs <;> rfl
  have hentities : playerEntityMap a.blank = playerEntityMap a := rfl
  rw [reconstruct, reconstruct, hentities]
  change liftPanic (World.new 0 a.tickRateHz) >>= respawn _ a.entitySpawnOrder = _
  rw [hnew]
  rcases World.new (F := F) a.seed a.tickRateHz with p | w
  · rfl
  · exact reseed_respawn (playerEntityMap a) 0 a.entitySpawnOrder w

/-- The inputs convert alike, but for the mark. -/
theorem convertInputs_unmarked : ∀ protos : List (AppliedInputProto F),
    convertInputs (protos.map AppliedInputProto.unmarked) =
      (convertInputs protos).map fun inputs =>
        inputs.map fun input => { input with isFallback := false }
  | [] => rfl
  | proto :: protos => by
    have htry : AppliedInput.tryFrom proto.unmarked =
        (AppliedInput.tryFrom proto).map fun input => { input with isFallback := false } := by
      obtain ⟨tick, playerId, moveDir, isFallback⟩ := proto
      rcases moveDir with _ | ⟨x, _ | ⟨y, _ | ⟨z, rest⟩⟩⟩ <;> rfl
    rw [List.map_cons, convertInputs, convertInputs, htry, convertInputs_unmarked protos]
    rcases AppliedInput.tryFrom proto with e | input
    · rfl
    · rcases convertInputs protos with e | inputs <;> rfl

/-- The steps of a tick are the same without the marks. -/
theorem stepInputsAt_unmarked (inputs : List (AppliedInput F)) (tick : Tick) :
    stepInputsAt (inputsByTick (inputs.map fun input => { input with isFallback := false })) tick =
      stepInputsAt (inputsByTick inputs) tick := by
  rw [stepInputsAt_inputsByTick, stepInputsAt_inputsByTick, List.filter_map, List.map_map]
  rfl

/-- The replayed worlds differ in the seed only. -/
theorem verifyWorld_blank (k : ℕ) :
    verifyWorld a.blank k = (verifyWorld a k).map fun w => w.reseed 0 := by
  rw [verifyWorld, verifyWorld, validateInputStream_blank, reconstruct_blank]
  have hbaseline : a.blank.initialBaseline =
      a.initialBaseline.map fun baseline => { baseline with entities := [] } := rfl
  have hinputs : a.blank.inputs = a.inputs.map AppliedInputProto.unmarked := rfl
  rw [hbaseline, hinputs, convertInputs_unmarked]
  rcases validateInputStream a with e | ⟨⟩
  · rfl
  rcases a.initialBaseline with _ | baseline
  · rfl
  rcases reconstruct a with e | start
  · rfl
  simp only [Except.mapError, Except.map, bind, Except.bind, Option.map_some]
  have hdigest : (start.reseed 0).baseline.digest = start.baseline.digest := rfl
  rw [hdigest]
  split_ifs
  · rfl
  rcases convertInputs a.inputs with e | inputs
  · rfl
  dsimp only
  rw [replayTicks_congr (stepInputsAt_unmarked inputs), reseed_replayTicks]
  have htick : a.blank.checkpointTick = a.checkpointTick := rfl
  rw [htick]
  rcases replayTicks (inputsByTick inputs)
    ((rangeU64 baseline.tick a.checkpointTick).take k) start with p | w <;> rfl

/-- The verifier's answer, its errors and panics included, is the one on the blanked
artifact. -/
theorem verifyReplay_blank (options : VerifyOptions) :
    verifyReplay a.blank options = verifyReplay a options := by
  have hlength : replayLength a.blank = replayLength a := by
    rw [replayLength, replayLength, blank]
    rcases a.initialBaseline with _ | baseline <;> rfl
  have htick : a.blank.checkpointTick = a.checkpointTick := rfl
  have hdigest : a.blank.finalDigest = a.finalDigest := rfl
  rw [verifyReplay, verifyReplay, verifyBuild_blank, hlength, verifyWorld_blank, htick, hdigest]
  rcases verifyBuild a options with e | ⟨⟩
  · rfl
  · rcases verifyWorld a (replayLength a) with e | w <;> rfl

end ReplayArtifact

end Flowstate
