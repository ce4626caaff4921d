import Flowstate.Replay

/-!
# What a verification checks

`verifyReplay_eq_ok` and `verifyWorld_eq_ok` list the checks an accepted artifact has passed.
The stream check counts inputs in a hash map keyed by player and tick
(`validateInputStream_eq_ok`), the replay groups them in one keyed by tick
(`stepInputsAt_inputsByTick`). Both are a `filter` of the recorded stream.
-/

set_option linter.unusedSectionVars false

open Rust

namespace Flowstate

theorem mapError_eq_ok {α ε ε' : Type} {f : ε → ε'} {x : Except ε α} {a : α} :
    x.mapError f = .ok a ↔ x = .ok a := by
  rcases x with e | b <;> simp [Except.mapError]

theorem ite_error_eq_ok {α ε : Type} {p : Prop} [Decidable p] {e : ε} {x : Except ε α} {a : α} :
    (if p then .error e else x) = .ok a ↔ ¬p ∧ x = .ok a := by
  split_ifs with h <;> simp [h]

theorem liftPanic_eq_ok {α : Type} {x : Except Panic α} {a : α} :
    liftPanic x = .ok a ↔ x = .ok a := by
  rcases x with e | b <;> simp [liftPanic]

variable {F : Type} [F64 F]

/-! ## The input stream -/

/-- Counting by key, from a table of earlier counts. -/
theorem lookup_foldl_countInput {α K : Type} [DecidableEq K] (key : α → K) (k : K) :
    ∀ (l : List α) (m : HashMap K ℕ),
      (l.foldl (fun m x => countInput m (key x)) m).lookup k =
        if l.countP (fun x => key x = k) = 0 then m.lookup k
        else some ((m.lookup k).getD 0 + l.countP fun x => key x = k)
  | [], m => by simp
  | x :: l, m => by
    rw [List.foldl_cons, lookup_foldl_countInput key k l, List.countP_cons, countInput,
      HashMap.lookup_insert]
    by_cases hk : key x = k
    · subst hk
      simp only [decide_true, if_true, Option.getD_some]
      split_ifs <;> simp_all
      omega
    · have hk' : ¬k = key x := fun h => hk h.symm
      simp only [hk, hk', decide_false, if_false, Bool.false_eq_true, Nat.add_zero]

/-- How many recorded inputs a player has for a tick. -/
def ReplayArtifact.inputCount (a : ReplayArtifact F) (playerId : UInt32) (tick : Tick) : ℕ :=
  a.inputs.countP fun input => input.playerId = playerId ∧ input.tick = tick

/-- The stream is valid if every mapped player has one input for every tick of the range, and
every input is in the range and of a mapped player. -/
theorem validateInputStream_eq_ok {a : ReplayArtifact F} :
    validateInputStream a = .ok () ↔ ∃ baseline, a.initialBaseline = some baseline ∧
      (∀ row ∈ a.playerEntityMapping, ∀ tick ∈ rangeU64 baseline.tick a.checkpointTick,
        a.inputCount row.playerId tick = 1) ∧
      ∀ input ∈ a.inputs, input.tick ∈ rangeU64 baseline.tick a.checkpointTick ∧
        ∃ row ∈ a.playerEntityMapping, row.playerId = input.playerId := by
  rcases hbaseline : a.initialBaseline with _ | baseline
  · simp [validateInputStream, hbaseline]
  · have hlookup : ∀ (playerId : UInt32) (tick : Tick), (a.inputs.foldl
        (fun m input => countInput m (input.playerId, input.tick)) (∅ : HashMap _ ℕ)).lookup
          (playerId, tick) = if a.inputCount playerId tick = 0 then none
            else some (a.inputCount playerId tick) := by
      intro playerId tick
      have hcount : (a.inputs.countP fun input => (input.playerId, input.tick) = (playerId, tick)) =
          a.inputCount playerId tick :=
        List.countP_congr fun input _ => by simp
      have h := lookup_foldl_countInput (fun input : AppliedInputProto F =>
        (input.playerId, input.tick)) (playerId, tick) a.inputs ∅
      rw [h, AList.lookup_empty, Option.getD_none, Nat.zero_add, hcount]
    simp only [validateInputStream, hbaseline, bind_eq_ok, Option.some.injEq, exists_eq_left',
      Unique.exists_iff, hlookup]
    refine and_congr (forM_eq_ok.trans ?_) (forM_eq_ok.trans (forall₂_congr fun input _ => ?_))
    · rw [List.forall_mem_map]
      refine forall₂_congr fun row _ => forM_eq_ok.trans (forall₂_congr fun tick _ => ?_)
      by_cases hzero : a.inputCount row.playerId tick = 0
      · simp [hzero]
      · simp only [hzero, if_false, ite_error_eq_ok, and_true]
        omega
    · rw [ite_error_eq_ok, ite_error_eq_ok, not_or, not_not, UInt64.lt_iff_toNat_lt,
        UInt64.le_iff_toNat_le, mem_rangeU64, List.mem_map, Nat.not_lt, Nat.not_le]
      simp only [and_true]

/-- What is recorded is read back : the player id survives its detour over `u32`. -/
theorem tryFrom_toProto (input : AppliedInput F) :
    AppliedInput.tryFrom input.toProto = .ok input := by
  simp [AppliedInput.tryFrom, AppliedInput.toProto, toVec]

theorem convertInputs_toProto : ∀ inputs : List (AppliedInput F),
    convertInputs (inputs.map AppliedInput.toProto) = .ok inputs
  | [] => rfl
  | input :: inputs => by
    rw [List.map_cons, convertInputs, tryFrom_toProto]
    simp only [convertInputs_toProto inputs]
    rfl

theorem tryFrom_eq_ok {proto : AppliedInputProto F} {input : AppliedInput F}
    (h : AppliedInput.tryFrom proto = .ok input) :
    input.tick = proto.tick ∧ input.playerId = proto.playerId.toUInt8 := by
  unfold AppliedInput.tryFrom at h
  split at h
  · obtain rfl := Except.ok.inj h
    exact ⟨rfl, rfl⟩
  · cases h

/-- A stream that converts does so input by input, the player id truncated. -/
theorem convertInputs_eq_ok : ∀ {protos : List (AppliedInputProto F)}
    {inputs : List (AppliedInput F)}, convertInputs protos = .ok inputs →
      inputs.map (fun input => (input.tick, input.playerId)) =
        protos.map fun proto => (proto.tick, proto.playerId.toUInt8)
  | [], inputs, h => by
    obtain rfl := Except.ok.inj h
    rfl
  | proto :: protos, inputs, h => by
    rw [convertInputs] at h
    rcases htry : AppliedInput.tryFrom proto with e | input <;> rw [htry] at h
    · cases h
    · obtain ⟨inputs, hrest, h⟩ := bind_eq_ok.1 h
      obtain rfl := Except.ok.inj h
      obtain ⟨htick, hplayer⟩ := tryFrom_eq_ok htry
      rw [List.map_cons, List.map_cons, convertInputs_eq_ok hrest, htick, hplayer]

theorem lookup_inputsByTick_aux (tick : Tick) : ∀ (inputs : List (AppliedInput F))
    (m : HashMap Tick (List (AppliedInput F))),
    ((inputs.foldl (fun m input =>
      m.insert input.tick ((m.lookup input.tick).getD [] ++ [input])) m).lookup tick).getD [] =
      (m.lookup tick).getD [] ++ inputs.filter fun input => input.tick = tick
  | [], m => by simp
  | input :: inputs, m => by
    rw [List.foldl_cons, lookup_inputsByTick_aux tick inputs, HashMap.lookup_insert]
    by_cases htick : input.tick = tick
    · subst htick
      simp
    · have htick' : ¬tick = input.tick := fun h => htick h.symm
      simp [htick, htick']

/-- The step inputs of a tick are the inputs recorded for it, sorted by player. -/
theorem stepInputsAt_inputsByTick (inputs : List (AppliedInput F)) (tick : Tick) :
    stepInputsAt (inputsByTick inputs) tick = sortByKey (fun i => i.playerId.toNat)
      ((inputs.filter fun input => input.tick = tick).map AppliedInput.toStepInput) := by
  rw [stepInputsAt, inputsByTick, lookup_inputsByTick_aux]
  simp

/-- The mapping's entity of a player is that of one of the player's rows. -/
theorem lookup_playerEntityMap (a : ReplayArtifact F) (id : UInt32) :
    (∃ row ∈ a.playerEntityMapping, row.playerId = id ∧
      (playerEntityMap a).lookup id = some row.entityId) ∨
    (∀ row ∈ a.playerEntityMapping, row.playerId ≠ id) ∧ (playerEntityMap a).lookup id = none := by
  unfold playerEntityMap
  induction a.playerEntityMapping using List.reverseRecOn with
  | nil => exact .inr ⟨nofun, rfl⟩
  | append_singleton rows row ih =>
    rw [List.foldl_append, List.foldl_cons, List.foldl_nil, HashMap.lookup_insert]
    by_cases hid : id = row.playerId
    · exact .inl ⟨row, by simp, hid.symm, if_pos hid⟩
    · rw [if_neg hid]
      refine ih.imp ?_ ?_
      · rintro ⟨row', hmem, hrow'⟩
        exact ⟨row', List.mem_append_left _ hmem, hrow'⟩
      · rintro ⟨hnone, hlookup⟩
        refine ⟨fun row' hmem => ?_, hlookup⟩
        rcases List.mem_append.1 hmem with hmem | hmem
        · exact hnone row' hmem
        · rw [List.mem_singleton.1 hmem]
          exact Ne.symm hid

/-! ## The replayed world -/

/-- The panics of `advance` are the only ones of a replay. -/
theorem replayTicks_append (groups : HashMap Tick (List (AppliedInput F))) :
    ∀ (ticks ticks' : List Tick) (world : World F),
      replayTicks groups (ticks ++ ticks') world =
        replayTicks groups ticks world >>= replayTicks groups ticks'
  | [], ticks', world => rfl
  | tick :: ticks, ticks', world => by
    rw [List.cons_append, replayTicks, replayTicks]
    rcases world.advance tick (stepInputsAt groups tick) with e | ⟨world', snapshot⟩
    · rfl
    · exact replayTicks_append groups ticks ticks' world'

theorem respawn_append (entities : HashMap UInt32 EntityId) : ∀ (ids ids' : List UInt32)
    (world : World F), respawn entities (ids ++ ids') world =
      respawn entities ids world >>= respawn entities ids'
  | [], ids', world => rfl
  | id :: ids, ids', world => by
    rw [List.cons_append, respawn, respawn]
    rcases world.spawnCharacter id.toUInt8 with e | ⟨world', entityId⟩
    · rfl
    · simp only [liftPanic, bind, Except.bind]
      rcases entities.lookup id with _ | expected
      · exact respawn_append entities ids ids' world'
      · dsimp only
        split_ifs
        · rfl
        · exact respawn_append entities ids ids' world'

theorem verifyWorld_eq_ok {a : ReplayArtifact F} {k : ℕ} {world : World F} :
    verifyWorld a k = .ok world ↔ ∃ baseline start inputs,
      validateInputStream a = .ok () ∧ a.initialBaseline = some baseline ∧
      reconstruct a = .ok start ∧ start.stateDigest = baseline.digest ∧
      convertInputs a.inputs = .ok inputs ∧
      replayTicks (inputsByTick inputs) ((rangeU64 baseline.tick a.checkpointTick).take k) start =
        .ok world := by
  simp only [verifyWorld, bind_eq_ok, mapError_eq_ok, Unique.exists_iff]
  rcases a.initialBaseline with _ | baseline
  · simp
  · simp only [bind_eq_ok, ite_error_eq_ok, not_not, mapError_eq_ok, liftPanic_eq_ok,
      Option.some.injEq]
    constructor
    · rintro ⟨hvalid, start, hstart, hdigest, inputs, hinputs, hreplay⟩
      exact ⟨baseline, start, inputs, hvalid, rfl, hstart, hdigest, hinputs, hreplay⟩
    · rintro ⟨_, start, inputs, hvalid, rfl, hstart, hdigest, hinputs, hreplay⟩
      exact ⟨hvalid, start, hstart, hdigest, inputs, hinputs, hreplay⟩

theorem verifyReplay_eq_ok {a : ReplayArtifact F} {options : VerifyOptions} :
    verifyReplay a options = .ok () ↔ verifyBuild a options = .ok () ∧ ∃ world,
      verifyWorld a (replayLength a) = .ok world ∧ world.tick = a.checkpointTick ∧
        world.stateDigest = a.finalDigest := by
  simp only [verifyReplay, bind_eq_ok, mapError_eq_ok, Unique.exists_iff, ite_error_eq_ok, not_not,
    and_true]

/-- Without a current build, any build is right. -/
theorem verifyBuild_of_none {a : ReplayArtifact F} {options : VerifyOptions}
    (h : options.currentBuild = none) : verifyBuild a options = .ok () := by
  rw [verifyBuild, h]
  rcases a.buildFingerprint with _ | f <;> rfl

/-- Without a recorded build too. -/
theorem verifyBuild_of_unrecorded {a : ReplayArtifact F} {options : VerifyOptions}
    (h : a.buildFingerprint = none) : verifyBuild a options = .ok () := by
  rw [verifyBuild, h]

end Flowstate
