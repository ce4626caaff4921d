import Flowstate.Sim

/-!
# A tick is a product

`World.advance` moves one character after the other in place. With one character per player and
one input per player each of them is a function of its own position, its own input and the
length of a tick (`Character.motion`), so the order of the inputs does not matter and nothing
else of the world changes but the tick (`advance_product`).
-/

open Rust

namespace Flowstate

variable {F : Type} [F64 F]

/-- The position and the velocity that an input gives a character. -/
def Character.motion (dtSeconds : F) (moveDir position : F × F) : (F × F) × (F × F) :=
  let velocity := velocityOf moveDir
  ((position.1 + velocity.1 * dtSeconds, position.2 + velocity.2 * dtSeconds), velocity)

/-- What a tick makes of a character, with the input of its player if there is one. -/
structure Character.Moved (dtSeconds : F) (inputs : List (StepInput F)) (c c' : Character F) :
    Prop where
  entityId : c'.entityId = c.entityId
  playerId : c'.playerId = c.playerId
  driven : ∀ i ∈ inputs, i.playerId = c.playerId →
    (c'.position, c'.velocity) = motion dtSeconds i.moveDir c.position
  idle : (∀ i ∈ inputs, i.playerId ≠ c.playerId) →
    c'.position = c.position ∧ c'.velocity = c.velocity

/-- What a tick makes of a world. -/
structure World.Ticked (w : World F) (inputs : List (StepInput F)) (w' : World F) : Prop where
  tick : w'.tick.toNat = w.tick.toNat + 1
  tickRateHz : w'.tickRateHz = w.tickRateHz
  dtSeconds : w'.dtSeconds = w.dtSeconds
  nextEntityId : w'.nextEntityId = w.nextEntityId
  seed : w'.seed = w.seed
  characters : List.Forall₂ (Character.Moved w.dtSeconds inputs) w.characters w'.characters

namespace World

variable {w : World F} {inputs inputs' : List (StepInput F)}

theorem moved_foldl_applyMovement (hplayers : (w.characters.map Character.playerId).Nodup)
    (hinputs : (inputs.map StepInput.playerId).Nodup) :
    List.Forall₂ (Character.Moved w.dtSeconds inputs) w.characters
      (inputs.foldl applyMovement w).characters := by
  rw [characters_foldl_applyMovement hinputs hplayers, List.forall₂_map_right_iff]
  refine List.forall₂_same.2 fun c _ => ?_
  rcases hfind : inputs.find? fun i => i.playerId == c.playerId with _ | i
  · simp only [hfind]
    rw [List.find?_eq_none] at hfind
    refine ⟨rfl, rfl, fun i hi heq => absurd (beq_iff_eq.2 heq) (hfind i hi), fun _ => ⟨rfl, rfl⟩⟩
  · have hplayer : i.playerId = c.playerId := by simpa using List.find?_some hfind
    have hmem := List.mem_of_find?_eq_some hfind
    simp only [hfind]
    refine ⟨rfl, rfl, fun j hj heq => ?_, fun hnone => absurd hplayer (hnone i hmem)⟩
    obtain rfl := List.inj_on_of_nodup_map hinputs hj hmem (heq.trans hplayer.symm)
    rfl

/-- The order of the inputs makes no difference to where the characters end up. -/
theorem foldl_applyMovement_perm (hplayers : (w.characters.map Character.playerId).Nodup)
    (hinputs : (inputs.map StepInput.playerId).Nodup) (hperm : inputs'.Perm inputs) :
    inputs'.foldl applyMovement w = inputs.foldl applyMovement w := by
  have hinputs' := (hperm.map StepInput.playerId).nodup_iff.2 hinputs
  have hfind : ∀ c : Character F, (inputs'.find? fun i => i.playerId == c.playerId) =
      inputs.find? fun i => i.playerId == c.playerId := fun c =>
    find?_key_perm hperm hinputs' c.playerId
  rw [foldl_applyMovement_frame w inputs', foldl_applyMovement_frame w inputs,
    characters_foldl_applyMovement hinputs' hplayers,
    characters_foldl_applyMovement hinputs hplayers]
  simp only [hfind]

end World

/-- With one character per player and one input per player, a tick gives the same result for the
inputs in any order, the sorted one included, it completes while the tick can grow, and it
moves every character on its own. -/
theorem advance_product {w : World F} (hplayers : (w.characters.map Character.playerId).Nodup)
    {inputs : List (StepInput F)} (hinputs : (inputs.map StepInput.playerId).Nodup) (tick : Tick) :
    (∀ inputs', inputs'.Perm inputs →
      w.advanceUnsorted tick inputs' = w.advanceUnsorted tick inputs) ∧
    (∀ inputs', inputs'.Perm inputs → (inputs'.IsChain fun a b => a.playerId ≤ b.playerId) →
      w.advance tick inputs' = w.advanceUnsorted tick inputs) ∧
    (tick = w.tick → w.tick.toNat + 1 < 2 ^ 64 → ∃ x, w.advanceUnsorted tick inputs = .ok x) ∧
    ∀ w' snapshot, w.advanceUnsorted tick inputs = .ok (w', snapshot) →
      w.Ticked inputs w' ∧ snapshot = ⟨w'.tick, w'.sortedEntitySnapshots, w'.stateDigest⟩ := by
  have hany : ∀ inputs', inputs'.Perm inputs →
      w.advanceUnsorted tick inputs' = w.advanceUnsorted tick inputs := by
    intro inputs' hperm
    rw [World.advanceUnsorted, World.advanceUnsorted,
      World.foldl_applyMovement_perm hplayers hinputs hperm]
  refine ⟨hany, fun inputs' hperm hsorted => ?_, fun hself hlt => ?_, fun w' snapshot h => ?_⟩
  · rw [World.advance_eq_advanceUnsorted w tick hsorted, hany inputs' hperm]
  · obtain ⟨t, ht, htick⟩ := addU64_of_lt (b := 1) hlt
    exact ⟨_, World.advanceUnsorted_eq_ok.2 ⟨hself, t, htick, rfl, rfl⟩⟩
  · obtain ⟨-, t, htick, rfl, hsnapshot⟩ := World.advanceUnsorted_eq_ok.1 h
    have hmoved := World.moved_foldl_applyMovement hplayers hinputs
    exact ⟨⟨htick, rfl, rfl, rfl, rfl, hmoved⟩, hsnapshot⟩

/-- Two characters, of which one is driven, and an input of nobody's, in both orders. -/
theorem advance_product_of_two :
    let w : World ℚ := ⟨3, 60, 1 / 60, [Character.new 1 17, Character.new 2 99], 3, 0⟩
    let one : StepInput ℚ := ⟨99, (3, 4)⟩
    let other : StepInput ℚ := ⟨5, (0, 1)⟩
    w.advanceUnsorted 3 [one, other] = w.advance 3 [other, one] ∧
      ∃ w' snapshot, w.advanceUnsorted 3 [one, other] = .ok (w', snapshot) ∧
        w.Ticked [one, other] w' := by
  intro w one other
  obtain ⟨-, hsorted, hcompletes, hticked⟩ :=
    @advance_product ℚ _ w (by decide) [one, other] (by decide) 3
  obtain ⟨⟨w', snapshot⟩, h⟩ := hcompletes rfl (by decide)
  exact ⟨(hsorted [other, one] (List.Perm.swap one other []) (by decide)).symm,
    w', snapshot, h, (hticked w' snapshot h).1⟩

end Flowstate
