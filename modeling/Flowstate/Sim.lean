import Flowstate.F64
import Flowstate.Rust

/-!
# The simulation core

`World` with its characters, `World.advance`, and the digest (`crates/sim/src/lib.rs`).
A tick applies the movement of each input to the first character of its player. With one
character per player and one input per player that is one independent update per
character (`characters_foldl_applyMovement`), whatever the order of the inputs.
-/

open Rust

namespace Flowstate

/-- A simulation timestep. -/
abbrev Tick := UInt64

/-- Per-match participant identifier, an ordering and association key only. -/
abbrev PlayerId := UInt8

/-- Identifier of an entity within a match. -/
abbrev EntityId := UInt64

/-- Simulation-plane input consumed by `advance`. -/
structure StepInput (F : Type) where
  playerId : PlayerId
  moveDir : F × F
deriving DecidableEq

/-- One entity's state in a baseline or a snapshot. -/
structure EntitySnapshot (F : Type) where
  entityId : EntityId
  position : F × F
  velocity : F × F
deriving DecidableEq

/-- World state before the inputs of `tick`. -/
structure Baseline (F : Type) where
  tick : Tick
  entities : List (EntitySnapshot F)
  digest : UInt64
deriving DecidableEq

/-- World state after a step, `tick` counting it. -/
structure Snapshot (F : Type) where
  tick : Tick
  entities : List (EntitySnapshot F)
  digest : UInt64
deriving DecidableEq

/-- A character entity. -/
structure Character (F : Type) where
  entityId : EntityId
  playerId : PlayerId
  position : F × F
  velocity : F × F
deriving DecidableEq

/-- The authoritative simulation state. -/
structure World (F : Type) where
  tick : Tick
  tickRateHz : UInt32
  dtSeconds : F
  characters : List (Character F)
  nextEntityId : EntityId
  seed : UInt64
deriving DecidableEq

/-- StateDigest algorithm identifier for v0. -/
def stateDigestAlgoId : String := "statedigest-v0-fnv1a64-le-f64canon-eidasc-posvel"

/-! ## The digest -/

/-- FNV-1a 64-bit hasher. -/
structure Fnv1a64 where
  state : UInt64

namespace Fnv1a64

def offsetBasis : UInt64 := 0xcbf29ce484222325

def prime : UInt64 := 0x100000001b3

def new : Fnv1a64 := ⟨offsetBasis⟩

def update (h : Fnv1a64) (bytes : List UInt8) : Fnv1a64 :=
  bytes.foldl (fun h byte => ⟨(h.state ^^^ byte.toUInt64) * prime⟩) h

def finish (h : Fnv1a64) : UInt64 := h.state

end Fnv1a64

variable {F : Type} [F64 F]

/-- The bits an `f64` is hashed by : both zeros as `+0.0`, every NaN as the quiet NaN. -/
def canonicalizeF64 (value : F) : UInt64 :=
  if F64.isNan value then 0x7ff8000000000000
  else if F64.eq value (F64.lit 0) then 0
  else F64.toBits value

/-- Movement speed in units per second. -/
def moveSpeed : F := F64.lit 5

/-- Clamp a 2D vector's magnitude to a maximum value. -/
def clampMagnitude (v : F × F) (maxMagnitude : F) : F × F :=
  let magnitudeSq := v.1 * v.1 + v.2 * v.2
  let maxSq := maxMagnitude * maxMagnitude
  if F64.le magnitudeSq maxSq then v
  else
    let scale := maxMagnitude / F64.sqrt magnitudeSq
    (v.1 * scale, v.2 * scale)

namespace Character

omit [F64 F] in
/-- What a snapshot shows of a character. -/
def toSnapshot (c : Character F) : EntitySnapshot F := ⟨c.entityId, c.position, c.velocity⟩

/-- A character at the origin, at rest. -/
def new (entityId : EntityId) (playerId : PlayerId) : Character F :=
  ⟨entityId, playerId, (F64.lit 0, F64.lit 0), (F64.lit 0, F64.lit 0)⟩

/-- The velocity a move direction gives. -/
def velocityOf (moveDir : F × F) : F × F :=
  let moveDir := clampMagnitude moveDir (F64.lit 1)
  (moveDir.1 * moveSpeed, moveDir.2 * moveSpeed)

/-- The v0 movement model : `velocity = moveDir * moveSpeed`, `position += velocity * dt`. -/
def move (dtSeconds : F) (moveDir : F × F) (c : Character F) : Character F :=
  let velocity := velocityOf moveDir
  { c with
    velocity
    position := (c.position.1 + velocity.1 * dtSeconds, c.position.2 + velocity.2 * dtSeconds) }

end Character

namespace World

/-- A world at tick 0 without characters. -/
def new (seed : UInt64) (tickRateHz : UInt32) : Except Panic (World F) :=
  if tickRateHz = 0 then .error ⟨"tick_rate_hz must be positive"⟩
  else .ok {
    tick := 0
    tickRateHz
    dtSeconds := F64.lit 1 / F64.lit tickRateHz.toNat
    characters := []
    nextEntityId := 1
    seed }

/-- Spawn a character for the player, under the next entity id. -/
def spawnCharacter (w : World F) (playerId : PlayerId) : Except Panic (World F × EntityId) := do
  let entityId := w.nextEntityId
  let nextEntityId ← addU64 w.nextEntityId 1
  let characters := w.characters ++ [Character.new entityId playerId]
  let characters := sortByKey (fun c => c.entityId.toNat) characters
  return ({ w with nextEntityId, characters }, entityId)

/-- The hasher after the tick and every character in order. -/
def stateDigest (w : World F) : UInt64 :=
  let hasher := Fnv1a64.new.update (toLeBytes w.tick)
  let hasher := w.characters.foldl (fun hasher c =>
    let hasher := hasher.update (toLeBytes c.entityId)
    let hasher := hasher.update (toLeBytes (canonicalizeF64 c.position.1))
    let hasher := hasher.update (toLeBytes (canonicalizeF64 c.position.2))
    let hasher := hasher.update (toLeBytes (canonicalizeF64 c.velocity.1))
    hasher.update (toLeBytes (canonicalizeF64 c.velocity.2))) hasher
  hasher.finish

omit [F64 F] in
def sortedEntitySnapshots (w : World F) : List (EntitySnapshot F) :=
  w.characters.map Character.toSnapshot

def baseline (w : World F) : Baseline F :=
  ⟨w.tick, w.sortedEntitySnapshots, w.stateDigest⟩

/-- Move the first character of the input's player. Without one the input is skipped. -/
def applyMovement (w : World F) (input : StepInput F) : World F :=
  { w with
    characters := modifyFirst (fun c => c.playerId == input.playerId)
      (Character.move w.dtSeconds input.moveDir) w.characters }

/-- Advance from `tick` to `tick + 1`. -/
def advance (w : World F) (tick : Tick) (stepInputs : List (StepInput F)) :
    Except Panic (World F × Snapshot F) := do
  if tick ≠ w.tick then
    throw ⟨s!"advance() tick mismatch: expected {w.tick}, got {tick}"⟩
  if ¬stepInputs.IsChain fun a b => a.playerId ≤ b.playerId then
    throw ⟨"step_inputs must be sorted by player_id ascending"⟩
  let w := stepInputs.foldl applyMovement w
  let tick ← addU64 w.tick 1
  let w := { w with tick }
  return (w, ⟨w.tick, w.sortedEntitySnapshots, w.stateDigest⟩)

/-- `advance` in a build without debug assertions, which takes the inputs in any order. -/
def advanceUnsorted (w : World F) (tick : Tick) (stepInputs : List (StepInput F)) :
    Except Panic (World F × Snapshot F) := do
  if tick ≠ w.tick then
    throw ⟨s!"advance() tick mismatch: expected {w.tick}, got {tick}"⟩
  let w := stepInputs.foldl applyMovement w
  let tick ← addU64 w.tick 1
  let w := { w with tick }
  return (w, ⟨w.tick, w.sortedEntitySnapshots, w.stateDigest⟩)

/-! ## What a step does -/

omit [F64 F] in
@[simp] theorem toSnapshot_entityId (c : Character F) : c.toSnapshot.entityId = c.entityId := rfl

@[simp] theorem move_playerId (dt : F) (d : F × F) (c : Character F) :
    (c.move dt d).playerId = c.playerId := rfl

@[simp] theorem move_entityId (dt : F) (d : F × F) (c : Character F) :
    (c.move dt d).entityId = c.entityId := rfl

/-- Movement changes the characters only. -/
theorem foldl_applyMovement_frame (w : World F) (inputs : List (StepInput F)) :
    inputs.foldl applyMovement w =
      { w with characters := (inputs.foldl applyMovement w).characters } := by
  induction inputs generalizing w with
  | nil => rfl
  | cons i inputs ih =>
    rw [List.foldl_cons, ih]
    rfl

/-- With one character per player and one input per player, each character moves by its own
player's input, and a character without an input stays as it is. -/
theorem characters_foldl_applyMovement {inputs : List (StepInput F)} {w : World F}
    (hin : (inputs.map StepInput.playerId).Nodup)
    (hch : (w.characters.map Character.playerId).Nodup) :
    (inputs.foldl applyMovement w).characters = w.characters.map fun c =>
      match inputs.find? fun i => i.playerId == c.playerId with
      | some i => c.move w.dtSeconds i.moveDir
      | none => c := by
  induction inputs generalizing w with
  | nil => simp
  | cons i inputs ih =>
    obtain ⟨hi, hin⟩ := List.nodup_cons.1 hin
    have hmod : (w.applyMovement i).characters = w.characters.map fun c =>
        if c.playerId == i.playerId then c.move w.dtSeconds i.moveDir else c := by
      refine modifyFirst_eq_map ((List.pairwise_map.1 hch).imp ?_)
      intro a b hab h
      exact hab ((beq_iff_eq.1 h.1).trans (beq_iff_eq.1 h.2).symm)
    have hplayers : (w.applyMovement i).characters.map Character.playerId =
        w.characters.map Character.playerId := by
      rw [hmod, List.map_map]
      refine List.map_congr_left fun c _ => ?_
      simp only [Function.comp_apply]
      split_ifs <;> rfl
    rw [List.foldl_cons, ih hin (hplayers ▸ hch), hmod, List.map_map]
    refine List.map_congr_left fun c _ => ?_
    by_cases hc : c.playerId = i.playerId
    · -- The later inputs are other players'.
      have hnone : inputs.find? (fun j => j.playerId == i.playerId) = none := by
        rw [List.find?_eq_none]
        intro j hj hji
        exact hi (List.mem_map.2 ⟨j, hj, beq_iff_eq.1 hji⟩)
      simp [hc, hnone]
    · have hc' : i.playerId ≠ c.playerId := fun h => hc h.symm
      simp only [Function.comp_apply, beq_eq_false_iff_ne.2 hc, Bool.false_eq_true, if_false,
        List.find?_cons, beq_eq_false_iff_ne.2 hc']
      rfl

theorem advance_eq_advanceUnsorted (w : World F) (tick : Tick) {inputs : List (StepInput F)}
    (h : inputs.IsChain fun a b => a.playerId ≤ b.playerId) :
    w.advance tick inputs = w.advanceUnsorted tick inputs := by
  simp only [advance, advanceUnsorted, h, not_true_eq_false, if_false]

/-- At the world's own tick the characters are moved and the state one tick later is reported. -/
theorem advanceUnsorted_self (w : World F) (inputs : List (StepInput F)) :
    w.advanceUnsorted w.tick inputs = addU64 w.tick 1 >>= fun t =>
      let w' := { w with
        tick := t
        characters := (inputs.foldl applyMovement w).characters }
      .ok (w', ⟨t, w'.sortedEntitySnapshots, w'.stateDigest⟩) := by
  have hframe := foldl_applyMovement_frame w inputs
  have htick : (inputs.foldl applyMovement w).tick = w.tick := by rw [hframe]
  simp only [advanceUnsorted, ne_eq, not_true_eq_false, if_false, htick]
  refine congrArg (addU64 w.tick 1 >>= ·) (funext fun t => ?_)
  rw [hframe]
  rfl

theorem advanceUnsorted_eq_ok {w w' : World F} {tick : Tick} {inputs : List (StepInput F)}
    {snapshot : Snapshot F} :
    w.advanceUnsorted tick inputs = .ok (w', snapshot) ↔
      tick = w.tick ∧ ∃ t : Tick, t.toNat = w.tick.toNat + 1 ∧
        w' = { w with tick := t, characters := (inputs.foldl applyMovement w).characters } ∧
        snapshot = ⟨w'.tick, w'.sortedEntitySnapshots, w'.stateDigest⟩ := by
  have hone : (1 : UInt64).toNat = 1 := rfl
  by_cases ht : tick = w.tick
  · rw [ht, advanceUnsorted_self]
    simp only [bind_eq_ok, addU64_eq_ok, hone, true_and, Except.ok.injEq, Prod.mk.injEq]
    constructor
    · rintro ⟨t, htt, rfl, rfl⟩
      exact ⟨t, htt, rfl, rfl⟩
    · rintro ⟨t, htt, rfl, rfl⟩
      exact ⟨t, htt, rfl, rfl⟩
  · simp [advanceUnsorted, ht, bind, Except.bind, throw, throwThe, MonadExceptOf.throw]

/-- At the world's own tick, with inputs sorted by player, `advance` moves the characters and
reports the state one tick later. -/
theorem advance_of_isChain (w : World F) {inputs : List (StepInput F)}
    (h : inputs.IsChain fun a b => a.playerId ≤ b.playerId) :
    w.advance w.tick inputs = addU64 w.tick 1 >>= fun t =>
      let w' := { w with
        tick := t
        characters := (inputs.foldl applyMovement w).characters }
      .ok (w', ⟨t, w'.sortedEntitySnapshots, w'.stateDigest⟩) := by
  rw [advance_eq_advanceUnsorted w w.tick h, advanceUnsorted_self]

/-- A completed `advance` was asked for the world's own tick, with inputs sorted by player,
and reports the state after the movement, one tick later. -/
theorem advance_eq_ok {w w' : World F} {tick : Tick} {inputs : List (StepInput F)}
    {snapshot : Snapshot F} :
    w.advance tick inputs = .ok (w', snapshot) ↔
      tick = w.tick ∧ (inputs.IsChain fun a b => a.playerId ≤ b.playerId) ∧
        ∃ t : Tick, t.toNat = w.tick.toNat + 1 ∧
          w' = { w with tick := t, characters := (inputs.foldl applyMovement w).characters } ∧
          snapshot = ⟨w'.tick, w'.sortedEntitySnapshots, w'.stateDigest⟩ := by
  by_cases hs : inputs.IsChain fun a b => a.playerId ≤ b.playerId
  · rw [advance_eq_advanceUnsorted w tick hs, advanceUnsorted_eq_ok]
    simp only [hs, true_and]
  · by_cases ht : tick = w.tick <;>
      simp [advance, ht, hs, bind, Except.bind, throw, throwThe, MonadExceptOf.throw]

end World

end Flowstate
