import Mathlib.Data.List.Perm.Basic
import Mathlib.Data.Set.Function
import Flowstate.Server
import Flowstate.Verification

/-!
# The recorded stream

The verifier reads the recorded inputs twice. The stream check counts them by player and
tick and then scans them, and accepts exactly if they are the pairs of a mapped player and a
tick of the replayed range, each once (`validateInputStream_iff_bijOn`). The replay groups
them by tick in storage order and sorts a group by player. No two inputs of a group that
passed the check are of one player, so the storage order is lost in the sort, and it does not
matter to what the verifier says (`outcome_perm`).
-/

set_option linter.unusedSectionVars false

open Rust

namespace Flowstate

variable {F : Type} [F64 F]

/-! ## Complete streams -/

namespace ReplayArtifact

/-- The recorded inputs as pairs of player and tick, in storage order. -/
def pairs (a : ReplayArtifact F) : List (UInt32 × Tick) :=
  a.inputs.map fun input => (input.playerId, input.tick)

/-- The pairs of a mapped player and a tick from `initialTick` to before the checkpoint. -/
def expected (a : ReplayArtifact F) (initialTick : Tick) : Set (UInt32 × Tick) :=
  {x | (∃ row ∈ a.playerEntityMapping, row.playerId = x.1) ∧
    initialTick.toNat ≤ x.2.toNat ∧ x.2.toNat < a.checkpointTick.toNat}

/-- The artifact with other recorded inputs. -/
def withInputs (a : ReplayArtifact F) (inputs : List (AppliedInputProto F)) : ReplayArtifact F :=
  { a with inputs }

theorem inputCount_eq (a : ReplayArtifact F) (playerId : UInt32) (tick : Tick) :
    a.inputCount playerId tick = a.pairs.count (playerId, tick) := by
  rw [inputCount, pairs, List.count, List.countP_map]
  exact List.countP_congr fun input _ => by simp

end ReplayArtifact

/-- The places of a list are in bijection with a set if it has each element of the set once and
no other. -/
theorem bijOn_get_iff {α : Type} [BEq α] [LawfulBEq α] {l : List α} {s : Set α} :
    Set.BijOn l.get Set.univ s ↔ (∀ x ∈ s, l.count x = 1) ∧ ∀ x ∈ l, x ∈ s := by
  constructor
  · rintro ⟨hmaps, hinj, hsurj⟩
    have hnodup : l.Nodup := List.nodup_iff_injective_get.2 (Set.injOn_univ.1 hinj)
    refine ⟨fun x hx => ?_, fun x hx => ?_⟩
    · obtain ⟨i, -, rfl⟩ := hsurj hx
      exact List.count_eq_one_of_mem hnodup (List.get_mem l i)
    · obtain ⟨i, rfl⟩ := List.get_of_mem hx
      exact hmaps (Set.mem_univ i)
  · rintro ⟨hcount, hmem⟩
    have hnodup : l.Nodup := List.nodup_iff_count_le_one.2 fun x => by
      by_cases hx : x ∈ l
      · exact (hcount x (hmem x hx)).le
      · exact (List.count_eq_zero_of_not_mem hx).trans_le (Nat.zero_le 1)
    refine ⟨fun i _ => hmem _ (List.get_mem l i), ?_, fun x hx => ?_⟩
    · exact Set.injOn_univ.2 (List.nodup_iff_injective_get.1 hnodup)
    · have hx : x ∈ l := List.count_pos_iff.1 (hcount x hx ▸ Nat.one_pos)
      obtain ⟨i, rfl⟩ := List.get_of_mem hx
      exact ⟨i, Set.mem_univ i, rfl⟩

/-- The stream check accepts exactly the streams that hold each pair of a mapped player and a
tick of the range once, and nothing else. -/
theorem validateInputStream_iff_bijOn {a : ReplayArtifact F} :
    validateInputStream a = .ok () ↔ ∃ baseline, a.initialBaseline = some baseline ∧
      Set.BijOn a.pairs.get Set.univ (a.expected baseline.tick) := by
  rw [validateInputStream_eq_ok]
  refine exists_congr fun baseline => and_congr_right fun _ => ?_
  rw [bijOn_get_iff]
  refine and_congr ?_ ?_
  · simp only [a.inputCount_eq, mem_rangeU64]
    constructor
    · rintro h ⟨playerId, tick⟩ ⟨⟨row, hrow, rfl⟩, hrange⟩
      exact h row hrow tick hrange
    · intro h row hrow tick hrange
      exact h (row.playerId, tick) ⟨⟨row, hrow, rfl⟩, hrange⟩
  · rw [ReplayArtifact.pairs, List.forall_mem_map]
    simp only [mem_rangeU64]
    exact forall₂_congr fun input _ => and_comm

/-! ## Storage order -/

/-- The error with the text of its reason left out. -/
def VerifyError.withoutReason : VerifyError → VerifyError
  | .inputStreamInvalid _ => .inputStreamInvalid ""
  | .invalidFormat _ => .invalidFormat ""
  | e => e

def Fault.withoutReason : Fault → Fault
  | .err e => .err e.withoutReason
  | .panic p => .panic p

/-- How a verification ends, reasons left out. -/
def outcome (a : ReplayArtifact F) (options : VerifyOptions) : Except Fault Unit :=
  (verifyReplay a options).mapError Fault.withoutReason

/-- Computations that end alike go on alike, if they do from what they return. -/
theorem mapError_bind {α β ε ε' : Type} {g : ε → ε'} {x y : Except ε α} {f f' : α → Except ε β}
    (h : x.mapError g = y.mapError g)
    (hf : ∀ r, y = .ok r → (f r).mapError g = (f' r).mapError g) :
    (x >>= f).mapError g = (y >>= f').mapError g := by
  rcases x with e | r <;> rcases y with e' | r' <;> simp only [Except.mapError] at h
  · exact congrArg Except.error (Except.error.inj h)
  · cases h
  · cases h
  · obtain rfl := Except.ok.inj h
    exact hf r rfl

theorem mapError_mapError {α ε ε' ε'' : Type} (f : ε → ε') (g : ε' → ε'') (x : Except ε α) :
    (x.mapError f).mapError g = x.mapError (g ∘ f) := by
  rcases x with e | r <;> rfl

theorem forM_error {α ε : Type} {P : ε → Prop} {f : α → Except ε PUnit}
    (hf : ∀ x e, f x = .error e → P e) : ∀ {l : List α} {e : ε}, l.forM f = .error e → P e
  | [], _, h => nomatch h
  | x :: l, e, h => by
    rw [List.forM] at h
    rcases hx : f x with e' | ⟨⟩ <;> rw [hx] at h
    · obtain rfl := Except.error.inj h
      exact hf x e' hx
    · exact forM_error hf h

/-- With a baseline, the stream check complains of the stream. -/
theorem validateInputStream_error {a : ReplayArtifact F} {baseline : JoinBaseline F}
    (hbaseline : a.initialBaseline = some baseline) {e : VerifyError}
    (h : validateInputStream a = .error e) : e.withoutReason = .inputStreamInvalid "" := by
  let P : VerifyError → Prop := fun e => e.withoutReason = .inputStreamInvalid ""
  rw [validateInputStream, hbaseline] at h
  dsimp only at h
  generalize hcheck : List.forM (m := Except VerifyError) (List.map _ a.playerEntityMapping) _ = x
    at h
  rcases x with e' | ⟨⟩
  · obtain rfl := Except.error.inj h
    refine forM_error (P := P) (fun playerId e he => ?_) hcheck
    refine forM_error (P := P) (fun tick e he => ?_) he
    split at he
    · obtain rfl := Except.error.inj he
      rfl
    · split_ifs at he
      obtain rfl := Except.error.inj he
      rfl
  · change a.inputs.forM _ = _ at h
    refine forM_error (P := P) (fun input e he => ?_) h
    split_ifs at he <;> obtain rfl := Except.error.inj he <;> rfl

section Perm

variable {a : ReplayArtifact F} {inputs : List (AppliedInputProto F)}

theorem validateInputStream_perm_ok (hperm : inputs.Perm a.inputs) :
    validateInputStream (a.withInputs inputs) = .ok () ↔ validateInputStream a = .ok () := by
  simp only [validateInputStream_eq_ok, ReplayArtifact.inputCount, ReplayArtifact.withInputs,
    hperm.countP_eq, hperm.mem_iff]

/-- The stream check says the same of any storage order. -/
theorem validateInputStream_perm (hperm : inputs.Perm a.inputs) :
    (validateInputStream (a.withInputs inputs)).mapError VerifyError.withoutReason =
      (validateInputStream a).mapError VerifyError.withoutReason := by
  rcases hbaseline : a.initialBaseline with _ | baseline
  · rw [validateInputStream, validateInputStream, ReplayArtifact.withInputs, hbaseline]
  · have hiff := validateInputStream_perm_ok hperm
    rcases hx : validateInputStream (a.withInputs inputs) with e | ⟨⟩
    · rcases hy : validateInputStream a with e' | ⟨⟩
      · have hbaseline' : (a.withInputs inputs).initialBaseline = some baseline := hbaseline
        exact congrArg Except.error ((validateInputStream_error hbaseline' hx).trans
          (validateInputStream_error hbaseline hy).symm)
      · rw [hx, hy] at hiff
        cases hiff.2 rfl
    · rw [hiff.1 hx]

theorem tryFrom_error {proto : AppliedInputProto F} {e : String}
    (h : AppliedInput.tryFrom proto = .error e) : e = "move_dir must have exactly 2 elements" := by
  unfold AppliedInput.tryFrom at h
  split at h
  · cases h
  · exact (Except.error.inj h).symm

theorem convertInputs_eq_ok_iff : ∀ {protos : List (AppliedInputProto F)}
    {inputs : List (AppliedInput F)}, convertInputs protos = .ok inputs ↔
      List.Forall₂ (fun proto input => AppliedInput.tryFrom proto = .ok input) protos inputs
  | [], inputs => by simp [convertInputs, eq_comm]
  | proto :: protos, inputs => by
    rw [convertInputs, List.forall₂_cons_left_iff]
    rcases htry : AppliedInput.tryFrom proto with e | input
    · simp
    · simp only [bind_eq_ok, pure, Except.pure, Except.ok.injEq, convertInputs_eq_ok_iff]
      constructor
      · rintro ⟨rest, hrest, rfl⟩
        exact ⟨input, rest, rfl, hrest, rfl⟩
      · rintro ⟨_, rest, rfl, hrest, rfl⟩
        exact ⟨rest, hrest, rfl⟩

theorem convertInputs_error : ∀ {protos : List (AppliedInputProto F)} {e : VerifyError},
    convertInputs protos = .error e → e = .invalidFormat "move_dir must have exactly 2 elements"
  | [], _, h => nomatch h
  | proto :: protos, e, h => by
    rw [convertInputs] at h
    rcases htry : AppliedInput.tryFrom proto with e' | input <;> rw [htry] at h
    · rw [← tryFrom_error htry]
      exact (Except.error.inj h).symm
    · rcases hrest : convertInputs protos with e' | rest <;> rw [hrest] at h
      · obtain rfl := Except.error.inj h
        exact convertInputs_error hrest
      · cases h

/-- A permuted stream converts to the permuted inputs, if it converts. -/
theorem convertInputs_perm {protos protos' : List (AppliedInputProto F)} (h : protos.Perm protos')
    {inputs : List (AppliedInput F)} (hinputs : convertInputs protos' = .ok inputs) :
    ∃ inputs', convertInputs protos = .ok inputs' ∧ inputs'.Perm inputs := by
  obtain ⟨inputs', hforall, hperm⟩ :=
    List.perm_comp_forall₂ h (convertInputs_eq_ok_iff.1 hinputs)
  exact ⟨inputs', convertInputs_eq_ok_iff.2 hforall, hperm⟩

theorem replayTicks_congr {groups groups' : HashMap Tick (List (AppliedInput F))}
    (h : ∀ tick, stepInputsAt groups tick = stepInputsAt groups' tick) :
    ∀ (ticks : List Tick) (world : World F),
      replayTicks groups ticks world = replayTicks groups' ticks world
  | [], world => rfl
  | tick :: ticks, world => by
    rw [replayTicks, replayTicks, h tick]
    refine congrArg _ (funext fun x => ?_)
    exact replayTicks_congr h ticks x.1

theorem nodup_pairs (hvalid : validateInputStream a = .ok ()) : a.pairs.Nodup := by
  obtain ⟨baseline, -, -, hinj, -⟩ := validateInputStream_iff_bijOn.1 hvalid
  exact List.nodup_iff_injective_get.2 (Set.injOn_univ.1 hinj)

/-- Among the inputs of one tick, none of a valid stream share a player, if the cut to `u8` loses
nothing of the player ids. -/
theorem nodup_applied (hvalid : validateInputStream a = .ok ())
    (hfits : ∀ input ∈ a.inputs, input.playerId.toNat < 2 ^ 8) {applied : List (AppliedInput F)}
    (happlied : convertInputs a.inputs = .ok applied) (tick : Tick) :
    ((applied.filter fun input => input.tick = tick).map
      fun input => input.playerId.toNat).Nodup := by
  have hprotos : (a.inputs.map fun proto => (proto.tick, proto.playerId.toUInt8)).Nodup := by
    have hpairs := List.pairwise_map.1 (nodup_pairs hvalid)
    refine List.pairwise_map.2 (hpairs.imp_of_mem ?_)
    intro x y hx hy hne heq
    obtain ⟨htick, hplayer⟩ := Prod.mk.inj heq
    refine hne (Prod.ext ?_ htick)
    rw [← UInt8.toNat_inj, UInt32.toNat_toUInt8, UInt32.toNat_toUInt8,
      Nat.mod_eq_of_lt (hfits x hx), Nat.mod_eq_of_lt (hfits y hy)] at hplayer
    exact UInt32.toNat_inj.1 hplayer
  rw [← convertInputs_eq_ok happlied] at hprotos
  have hgroup := (List.pairwise_map.1 hprotos).sublist
    (List.filter_sublist (p := fun input => input.tick = tick))
  refine List.pairwise_map.2 (hgroup.imp_of_mem ?_)
  intro x y hx hy hne heq
  have htick : x.tick = y.tick :=
    (of_decide_eq_true (List.mem_filter.1 hx).2).trans
      (of_decide_eq_true (List.mem_filter.1 hy).2).symm
  exact hne (Prod.ext htick (UInt8.toNat_inj.1 heq))

/-- The replay of a valid stream is fed the same inputs in any storage order. -/
theorem stepInputsAt_perm (hvalid : validateInputStream a = .ok ())
    (hfits : ∀ input ∈ a.inputs, input.playerId.toNat < 2 ^ 8)
    {applied applied' : List (AppliedInput F)} (happlied : convertInputs a.inputs = .ok applied)
    (hperm : applied'.Perm applied) (tick : Tick) :
    stepInputsAt (inputsByTick applied') tick = stepInputsAt (inputsByTick applied) tick := by
  rw [stepInputsAt_inputsByTick, stepInputsAt_inputsByTick]
  refine (sortByKey_eq_of_perm ((hperm.symm.filter _).map _) ?_).symm
  rw [List.map_map]
  exact nodup_applied hvalid hfits happlied tick

theorem verifyWorld_perm (hfits : ∀ input ∈ a.inputs, input.playerId.toNat < 2 ^ 8)
    (hperm : inputs.Perm a.inputs) (k : ℕ) :
    (verifyWorld (a.withInputs inputs) k).mapError Fault.withoutReason =
      (verifyWorld a k).mapError Fault.withoutReason := by
  refine mapError_bind ?_ fun _ hvalid => ?_
  · have h := congrArg (Except.mapError Fault.err) (validateInputStream_perm hperm)
    rw [mapError_mapError, mapError_mapError] at h ⊢
    exact h
  have hvalid : validateInputStream a = .ok () := mapError_eq_ok.1 hvalid
  have hbaseline : (a.withInputs inputs).initialBaseline = a.initialBaseline := rfl
  rw [hbaseline]
  rcases a.initialBaseline with _ | baseline
  · rfl
  refine mapError_bind rfl fun start _ => ?_
  dsimp only
  split_ifs
  · rfl
  · change Except.mapError _ ((convertInputs inputs).mapError Fault.err >>= _) =
      Except.mapError _ ((convertInputs a.inputs).mapError Fault.err >>= _)
    rcases happlied : convertInputs a.inputs with e | applied
    · -- A stream that fails to convert does so in any order, with one text.
      rcases happlied' : convertInputs inputs with e' | applied'
      · rw [convertInputs_error happlied, convertInputs_error happlied']
        rfl
      · obtain ⟨applied, happlied'', -⟩ := convertInputs_perm hperm.symm happlied'
        rw [happlied] at happlied''
        cases happlied''
    · obtain ⟨applied', happlied', hperm'⟩ := convertInputs_perm hperm happlied
      rw [happlied']
      have hgroups := stepInputsAt_perm hvalid hfits happlied hperm'
      exact congrArg (fun x => (liftPanic x).mapError Fault.withoutReason)
        (replayTicks_congr hgroups _ start)

/-- Whatever order the inputs are stored in, the verification ends alike. -/
theorem outcome_perm (hfits : ∀ input ∈ a.inputs, input.playerId.toNat < 2 ^ 8)
    (hperm : inputs.Perm a.inputs) (options : VerifyOptions) :
    outcome (a.withInputs inputs) options = outcome a options := by
  refine mapError_bind rfl fun _ _ => ?_
  exact mapError_bind (verifyWorld_perm hfits hperm _) fun world _ => rfl

end Perm

/-- The recorder's player ids fit : they come from `u8`. -/
theorem ReplayRecorder.fits_finalize (r : ReplayRecorder F) (finalDigest : UInt64)
    (checkpointTick : Tick) (endReason : String) :
    ∀ input ∈ (r.finalize finalDigest checkpointTick endReason).inputs,
      input.playerId.toNat < 2 ^ 8 := by
  intro input hinput
  obtain ⟨applied, -, rfl⟩ := List.mem_map.1 hinput
  exact applied.playerId.toNat_lt

/-- A recorded match, its inputs stored backwards. -/
theorem outcome_perm_reverse : ∃ t outs,
    runServer (F := ℚ) {} [.acceptSession, .acceptSession, .receiveInput 1 ⟨0, 1, [3, 4]⟩, .step,
      .step] = .ok (t, outs) ∧
    outcome ((t.finalize .complete).withInputs (t.finalize .complete).inputs.reverse)
      ⟨false, none⟩ = outcome (t.finalize .complete) ⟨false, none⟩ := by
  have h : (runServer (F := ℚ) {} [.acceptSession, .acceptSession,
      .receiveInput 1 ⟨0, 1, [3, 4]⟩, .step, .step]).map (fun x => x.1.entitySpawnOrder) =
        .ok [0, 1] := by
    decide +kernel
  obtain ⟨⟨t, outs⟩, ht, -⟩ := map_eq_ok.1 h
  exact ⟨t, outs, ht, outcome_perm (ReplayRecorder.fits_finalize _ _ _ _) (List.reverse_perm _) _⟩

end Flowstate
