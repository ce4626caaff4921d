import Flowstate.Match
import Flowstate.Soundness

/-!
# Where a verification panics

`verifyReplay` runs the world on data it has not checked : `World.new` asserts a positive
tick rate, `spawnCharacter` and `advance` count in `u64`, and `advance` asserts that it is
asked for the world's own tick. The spawns of a list count from one and the replayed ticks
are below the checkpoint, so no counter overflows, and the step inputs are sorted just
before. What is left is a tick rate of zero, and a baseline that claims a tick other than
the zero every rebuilt world is at, its digest being right. An artifact that gets past the
checks before them makes the verifier panic there, and no other does
(`verifyReplay_ne_panic_iff`).
-/

set_option linter.unusedSectionVars false

open Rust

namespace Flowstate

variable {F : Type} [F64 F]

/-! ## Panics of a sequence -/

theorem bind_eq_error {α β ε : Type} {x : Except ε α} {f : α → Except ε β} {e : ε} :
    (x >>= f) = .error e ↔ x = .error e ∨ ∃ a, x = .ok a ∧ f a = .error e := by
  rcases x with e' | a <;> simp [bind, Except.bind]

theorem mapError_ne_panic {α : Type} {x : Except VerifyError α} {p : Panic} :
    x.mapError Fault.err ≠ (.error (.panic p) : Except Fault α) := by
  rcases x with e | a <;> simp [Except.mapError]

theorem liftPanic_eq_panic {α : Type} {x : Except Panic α} {p : Panic} :
    liftPanic x = .error (.panic p) ↔ x = .error p := by
  rcases x with e | a <;> simp [liftPanic]

/-! ## Respawning -/

/-- Every id of the list that is mapped is mapped to its place, counted from `n`. -/
def InOrder (entities : HashMap UInt32 EntityId) (n : ℕ) (ids : List UInt32) : Prop :=
  ∀ i id, ids[i]? = some id → ∀ e, entities.lookup id = some e → e.toNat = n + i

theorem inOrder_cons {entities : HashMap UInt32 EntityId} {n : ℕ} {id : UInt32}
    {ids : List UInt32} : InOrder entities n (id :: ids) ↔
      (∀ e, entities.lookup id = some e → e.toNat = n) ∧ InOrder entities (n + 1) ids := by
  constructor
  · refine fun h => ⟨fun e he => h 0 id rfl e he, fun i id' hi e he => ?_⟩
    have := h (i + 1) id' (by rwa [List.getElem?_cons_succ]) e he
    omega
  · rintro ⟨hhead, htail⟩ (_ | i) id' hi e he
    · obtain rfl : id = id' := by simpa using hi
      exact hhead e he
    · have := htail i id' (by rwa [List.getElem?_cons_succ] at hi) e he
      omega

/-- What a snapshot shows of characters that have just been spawned. -/
def spawnedEntities (n count : ℕ) : List (EntitySnapshot F) :=
  (List.range' n count).map fun i =>
    ⟨UInt64.ofNat i, (F64.lit 0, F64.lit 0), (F64.lit 0, F64.lit 0)⟩

/-- With entity ids left for the list, respawning it completes if the mapped ids are in
order, and is refused otherwise. -/
theorem respawn_cases (entities : HashMap UInt32 EntityId) : ∀ {ids : List UInt32} {w : World F},
    Ordered w → w.nextEntityId.toNat + ids.length < 2 ^ 64 →
      (InOrder entities w.nextEntityId.toNat ids ∧ ∃ w', respawn entities ids w = .ok w' ∧
        w'.tick = w.tick ∧ w'.sortedEntitySnapshots =
          w.sortedEntitySnapshots ++ spawnedEntities w.nextEntityId.toNat ids.length) ∨
      ¬InOrder entities w.nextEntityId.toNat ids ∧
        ∃ e, respawn entities ids w = .error (.err e)
  | [], w, _, _ =>
    .inl ⟨fun i id hi => absurd hi (by simp), w, rfl, rfl, (List.append_nil _).symm⟩
  | id :: ids, w, hw, hroom => by
    have hone : (1 : UInt64).toNat = 1 := rfl
    rw [List.length_cons] at hroom
    obtain ⟨next, -, hnext⟩ := addU64_of_lt (a := w.nextEntityId) (b := 1) (by omega)
    obtain ⟨w₁, hspawn, hnext₁⟩ : ∃ w₁ : World F,
        w.spawnCharacter id.toUInt8 = .ok (w₁, w.nextEntityId) ∧ w₁.nextEntityId = next :=
      ⟨_, World.spawnCharacter_eq_ok.2 ⟨rfl, next, hnext, rfl⟩, rfl⟩
    rw [hone, ← hnext₁] at hnext
    obtain ⟨hw₁, htick₁, hchars₁⟩ := hw.spawn hspawn
    have hentities₁ : w₁.sortedEntitySnapshots = w.sortedEntitySnapshots ++
        spawnedEntities w.nextEntityId.toNat 1 := by
      rw [World.sortedEntitySnapshots, hchars₁, List.map_append]
      simp [World.sortedEntitySnapshots, spawnedEntities, Character.new, Character.toSnapshot]
    have hstep : (∀ e, entities.lookup id = some e → e.toNat = w.nextEntityId.toNat) ∧
        respawn entities (id :: ids) w = respawn entities ids w₁ ∨
        ¬(∀ e, entities.lookup id = some e → e.toNat = w.nextEntityId.toNat) ∧
          ∃ e, respawn entities (id :: ids) w = .error (.err e) := by
      simp only [respawn, hspawn, liftPanic, bind, Except.bind]
      rcases entities.lookup id with _ | e
      · exact .inl ⟨fun e he => absurd he (by simp), rfl⟩
      · by_cases heq : w.nextEntityId = e
        · exact .inl ⟨fun e' he' => by rw [← Option.some.inj he', heq], by simp [heq]⟩
        · refine .inr ⟨fun h => heq (UInt64.toNat_inj.1 (h e rfl).symm),
            .spawnReconstructionMismatch id.toUInt8 e w.nextEntityId, ?_⟩
          simp [heq]
    rw [inOrder_cons, ← hnext]
    rcases hstep with ⟨hhead, heq⟩ | ⟨hhead, herr⟩
    · have hroom₁ : w₁.nextEntityId.toNat + ids.length < 2 ^ 64 := by omega
      rw [heq]
      rcases respawn_cases entities hw₁ hroom₁ with ⟨htail, w', hw', htick, hentities⟩ | ⟨htail, herr⟩
      · refine .inl ⟨⟨hhead, htail⟩, w', hw', htick.trans htick₁, ?_⟩
        rw [hentities, hentities₁, List.append_assoc, hnext, List.length_cons]
        simp [spawnedEntities, List.range'_succ]
      · exact .inr ⟨fun h => htail h.2, herr⟩
    · exact .inr ⟨fun h => hhead h.1, herr⟩

/-- The rebuilt world : none without a tick rate, none if a mapped id is out of order, and
otherwise the players' characters as spawned, at tick zero. -/
theorem reconstruct_cases {a : ReplayArtifact F} (hlen : a.entitySpawnOrder.length < 2 ^ 61) :
    (a.tickRateHz = 0 ∧ ∃ p, reconstruct a = .error (.panic p)) ∨
    a.tickRateHz ≠ 0 ∧
      (InOrder (playerEntityMap a) 1 a.entitySpawnOrder ∧
        (∃ start, reconstruct a = .ok start ∧ start.tick = 0 ∧
          start.stateDigest = digestOf 0 (spawnedEntities (F := F) 1 a.entitySpawnOrder.length)) ∨
      ¬InOrder (playerEntityMap a) 1 a.entitySpawnOrder ∧
        ∃ e, reconstruct a = .error (.err e)) := by
  by_cases hrate : a.tickRateHz = 0
  · exact .inl ⟨hrate, ⟨"tick_rate_hz must be positive"⟩, by
      simp [reconstruct, World.new, hrate, liftPanic, bind, Except.bind]⟩
  · let blank : World F :=
      ⟨0, a.tickRateHz, F64.lit 1 / F64.lit a.tickRateHz.toNat, [], 1, a.seed⟩
    have hblank : reconstruct a = respawn (playerEntityMap a) a.entitySpawnOrder blank := by
      simp [reconstruct, World.new, hrate, liftPanic, bind, Except.bind, blank]
    have hordered : Ordered blank := ⟨List.Pairwise.nil, fun c hc => absurd hc List.not_mem_nil⟩
    have hone : blank.nextEntityId.toNat = 1 := rfl
    have hroom : blank.nextEntityId.toNat + a.entitySpawnOrder.length < 2 ^ 64 := by omega
    have hcases := respawn_cases (playerEntityMap a) hordered hroom
    rw [hone] at hcases
    rw [hblank]
    refine .inr ⟨hrate, hcases.imp_left ?_⟩
    rintro ⟨horder, start, hstart, htick, hentities⟩
    refine ⟨horder, start, hstart, htick, ?_⟩
    rw [World.stateDigest_eq, htick, hentities]
    rfl

/-! ## Replaying -/

/-- A stream converts if every direction has two components. -/
theorem exists_convertInputs : ∀ {protos : List (AppliedInputProto F)},
    (∃ inputs, convertInputs protos = .ok inputs) ↔ ∀ proto ∈ protos, proto.moveDir.length = 2
  | [] => by simp [convertInputs]
  | proto :: protos => by
    have hproto : (∃ input, AppliedInput.tryFrom proto = .ok input) ↔ proto.moveDir.length = 2 := by
      unfold AppliedInput.tryFrom
      split
      · rename_i hdir
        simp [hdir]
      · rename_i hdir
        constructor
        · rintro ⟨input, hinput⟩
          cases hinput
        · intro h
          obtain ⟨x, y, hxy⟩ := List.length_eq_two.1 h
          exact absurd hxy (hdir x y)
    rw [List.forall_mem_cons, ← exists_convertInputs, ← hproto]
    constructor
    · rintro ⟨inputs, h⟩
      rw [convertInputs] at h
      rcases htry : AppliedInput.tryFrom proto with e | input <;> rw [htry] at h
      · cases h
      · obtain ⟨rest, hrest, -⟩ := bind_eq_ok.1 h
        exact ⟨⟨input, rfl⟩, rest, hrest⟩
    · rintro ⟨⟨input, htry⟩, rest, hrest⟩
      exact ⟨input :: rest, by simp [convertInputs, htry, hrest, bind, Except.bind, pure,
        Except.pure]⟩

/-- Asked for its own ticks, one after the other, the world advances through them. -/
theorem exists_replayTicks (groups : HashMap Tick (List (AppliedInput F))) :
    ∀ (n : ℕ) (w : World F), w.tick.toNat + n < 2 ^ 64 →
      ∃ w', replayTicks groups ((List.range' w.tick.toNat n).map UInt64.ofNat) w = .ok w'
  | 0, w, _ => ⟨w, rfl⟩
  | n + 1, w, h => by
    have hone : (1 : UInt64).toNat = 1 := rfl
    obtain ⟨t, -, ht⟩ := addU64_of_lt (a := w.tick) (b := 1) (by omega)
    have hsorted := (pairwise_sortByKey (fun i : StepInput F => i.playerId.toNat)
      (((groups.lookup w.tick).getD []).map AppliedInput.toStepInput)).imp UInt8.le_iff_toNat_le.2
    have hadvance := World.advance_eq_ok.2 ⟨rfl, hsorted.isChain, t, ht, rfl, rfl⟩
    obtain ⟨w', hw'⟩ := exists_replayTicks groups n
      { w with
        tick := t
        characters :=
          ((stepInputsAt groups w.tick).foldl World.applyMovement w).characters }
      (by change t.toNat + n < 2 ^ 64; omega)
    refine ⟨w', ?_⟩
    rw [List.range'_succ, List.map_cons, UInt64.ofNat_toNat, replayTicks, stepInputsAt, hadvance]
    change replayTicks groups ((List.range' (w.tick.toNat + 1) n).map UInt64.ofNat) _ = _
    rw [hone] at ht
    rw [← ht]
    exact hw'

/-- From a world at tick zero, a range of ticks replays exactly if it starts at zero or is
empty. -/
theorem replayTicks_ne_error_iff {w : World F} (hw : w.tick = 0)
    (groups : HashMap Tick (List (AppliedInput F))) {a b : Tick} :
    (∀ p, replayTicks groups (rangeU64 a b) w ≠ .error p) ↔ a = 0 ∨ b ≤ a := by
  have hb := b.toNat_lt
  rw [UInt64.le_iff_toNat_le]
  constructor
  · intro h
    by_contra hor
    obtain ⟨ha, hlt⟩ := not_or.1 hor
    -- The first tick asked for is not the world's own.
    have hrange : rangeU64 a b =
        a :: (List.range' (a.toNat + 1) (b.toNat - a.toNat - 1)).map UInt64.ofNat := by
      have hlen : b.toNat - a.toNat = (b.toNat - a.toNat - 1) + 1 := by omega
      rw [rangeU64, hlen, List.range'_succ, List.map_cons, UInt64.ofNat_toNat, Nat.add_sub_cancel]
    have hne : a ≠ w.tick := hw ▸ ha
    refine h ⟨s!"advance() tick mismatch: expected {w.tick}, got {a}"⟩ ?_
    rw [hrange, replayTicks, World.advance, if_pos hne]
    rfl
  · rintro (rfl | hle) p herror
    · obtain ⟨w', hw'⟩ := exists_replayTicks groups b.toNat w (by rw [hw]; simpa using hb)
      rw [hw] at hw'
      have hrange : rangeU64 0 b = (List.range' (0 : Tick).toNat b.toNat).map UInt64.ofNat := rfl
      rw [hrange, hw'] at herror
      cases herror
    · rw [rangeU64, Nat.sub_eq_zero_of_le hle] at herror
      cases herror

/-! ## Verifying -/

/-- An artifact that gets past the build and the stream check has a tick rate, and if it also
gets past the spawns, the anchor and the conversion, its ticks start at zero or there are
none. -/
def PanicFree (a : ReplayArtifact F) (options : VerifyOptions) : Prop :=
  verifyBuild a options = .ok () → validateInputStream a = .ok () →
    a.tickRateHz ≠ 0 ∧ ∀ baseline, a.initialBaseline = some baseline →
      InOrder (playerEntityMap a) 1 a.entitySpawnOrder →
      baseline.digest = digestOf 0 (spawnedEntities (F := F) 1 a.entitySpawnOrder.length) →
      (∀ input ∈ a.inputs, input.moveDir.length = 2) →
      baseline.tick = 0 ∨ a.checkpointTick ≤ baseline.tick

theorem ite_error_eq_error {α ε : Type} {c : Prop} [Decidable c] {e e' : ε} {x : Except ε α} :
    (if c then .error e else x) = .error e' ↔ c ∧ e = e' ∨ ¬c ∧ x = .error e' := by
  split_ifs with h <;> simp [h]

/-- A replayed world panics in the spawns or in the replay, after the checks before them. -/
theorem verifyWorld_eq_panic {a : ReplayArtifact F} {k : ℕ} {p : Panic} :
    verifyWorld a k = .error (.panic p) ↔ validateInputStream a = .ok () ∧
      ∃ baseline, a.initialBaseline = some baseline ∧
        (reconstruct a = .error (.panic p) ∨
          ∃ start inputs, reconstruct a = .ok start ∧ start.stateDigest = baseline.digest ∧
            convertInputs a.inputs = .ok inputs ∧
            replayTicks (inputsByTick inputs)
              ((rangeU64 baseline.tick a.checkpointTick).take k) start = .error p) := by
  simp only [verifyWorld, bind_eq_error, mapError_ne_panic, false_or, mapError_eq_ok,
    Unique.exists_iff]
  rcases a.initialBaseline with _ | baseline
  · simp
  · simp only [bind_eq_error, ite_error_eq_error, reduceCtorEq, and_false, false_or, not_not,
      mapError_ne_panic, mapError_eq_ok, liftPanic_eq_panic, Option.some.injEq, exists_eq_left']
    refine and_congr_right fun _ => or_congr_right ?_
    constructor
    · rintro ⟨start, hstart, hdigest, inputs, hinputs, hreplay⟩
      exact ⟨start, inputs, hstart, hdigest, hinputs, hreplay⟩
    · rintro ⟨start, inputs, hstart, hdigest, hinputs, hreplay⟩
      exact ⟨start, hstart, hdigest, inputs, hinputs, hreplay⟩

theorem verifyReplay_eq_panic {a : ReplayArtifact F} {options : VerifyOptions} {p : Panic} :
    verifyReplay a options = .error (.panic p) ↔ verifyBuild a options = .ok () ∧
      verifyWorld a (replayLength a) = .error (.panic p) := by
  simp only [verifyReplay, bind_eq_error, mapError_ne_panic, false_or, mapError_eq_ok,
    Unique.exists_iff, ite_error_eq_error, reduceCtorEq, and_false, exists_false, or_false]

/-- The verifier returns on exactly the artifacts that do not bring it to a world without a
tick rate, or to a tick its world is not at. A list has fewer than `2 ^ 61` ids, as a vector
of them fills less than half of the address space. -/
theorem verifyReplay_ne_panic_iff {a : ReplayArtifact F} {options : VerifyOptions}
    (hlen : a.entitySpawnOrder.length < 2 ^ 61) :
    (∀ p, verifyReplay a options ≠ .error (.panic p)) ↔ PanicFree a options := by
  simp only [ne_eq, verifyReplay_eq_panic, verifyWorld_eq_panic, not_and, PanicFree]
  rw [forall_comm]
  refine forall_congr' fun _ => ?_
  rw [forall_comm]
  refine forall_congr' fun hvalid => ?_
  obtain ⟨baseline, hbaseline, -⟩ := validateInputStream_eq_ok.1 hvalid
  have htake : (rangeU64 baseline.tick a.checkpointTick).take (replayLength a) =
      rangeU64 baseline.tick a.checkpointTick := by
    refine List.take_of_length_le ?_
    rw [length_rangeU64, replayLength, hbaseline]
  simp only [hbaseline, Option.some.injEq, exists_eq_left', forall_eq']
  rw [htake]
  rcases reconstruct_cases hlen with ⟨hrate, p, hpanic⟩ |
    ⟨hrate, ⟨horder, start, hstart, htick, hdigest⟩ | ⟨horder, e, herror⟩⟩
  · exact iff_of_false (fun h => h p (.inl hpanic)) fun h => h.1 hrate
  · simp only [hstart, Except.ok.injEq, reduceCtorEq, false_or, hrate, not_false_eq_true, true_and,
      horder, true_implies]
    constructor
    · intro h hanchor hdirs
      obtain ⟨inputs, hinputs⟩ := exists_convertInputs.2 hdirs
      refine (replayTicks_ne_error_iff htick (inputsByTick inputs)).1 fun p hreplay => ?_
      exact h p ⟨start, inputs, rfl, hdigest.trans hanchor.symm, hinputs, hreplay⟩
    · rintro h p ⟨_, inputs, rfl, hanchor, hinputs, hreplay⟩
      have hstart := h (hanchor.symm.trans hdigest) (exists_convertInputs.1 ⟨inputs, hinputs⟩)
      exact (replayTicks_ne_error_iff htick _).2 hstart p hreplay
  · refine iff_of_true (fun p h => ?_) ⟨hrate, fun h => absurd h horder⟩
    rcases h with hpanic | ⟨start, inputs, hstart, -⟩
    · rw [herror] at hpanic
      cases hpanic
    · rw [herror] at hstart
      cases hstart

/-- The artifact whose fields are all left at their defaults, but for a baseline. -/
def defaulted : ReplayArtifact ℚ where
  replayFormatVersion := 0
  initialBaseline := some ⟨0, [], 0⟩
  seed := 0
  rngAlgorithm := ""
  tickRateHz := 0
  stateDigestAlgoId := ""
  entitySpawnOrder := []
  playerEntityMapping := []
  tuningParameters := []
  inputs := []
  buildFingerprint := none
  finalDigest := 0
  checkpointTick := 0
  endReason := ""
  testMode := false
  testPlayerIds := []

/-- An empty world that claims to be recorded from tick one on. -/
def belated : ReplayArtifact ℚ :=
  { defaulted with
    tickRateHz := 60
    initialBaseline := some ⟨1, [], 12161962213042174405⟩
    checkpointTick := 2 }

/-- Both gaps are reachable. -/
theorem verifyReplay_panics :
    verifyReplay defaulted ⟨true, none⟩ =
      .error (.panic ⟨"tick_rate_hz must be positive"⟩) ∧
    verifyReplay belated ⟨true, none⟩ =
      .error (.panic ⟨"advance() tick mismatch: expected 0, got 1"⟩) := by
  constructor <;> decide +kernel

/-- An artifact of one player whose ticks start at zero does not panic. -/
theorem unaliased_panicFree : PanicFree unaliased ⟨true, none⟩ ∧
    ¬∃ p, verifyReplay unaliased ⟨true, none⟩ = .error (.panic p) := by
  have hfree : PanicFree unaliased ⟨true, none⟩ := by
    refine fun _ _ => ⟨by decide, ?_⟩
    rintro baseline ⟨⟩ _ _ _
    exact .inl rfl
  have hlen : unaliased.entitySpawnOrder.length < 2 ^ 61 := by decide
  exact ⟨hfree, fun ⟨p, hpanic⟩ => (verifyReplay_ne_panic_iff hlen).2 hfree p hpanic⟩

end Flowstate
