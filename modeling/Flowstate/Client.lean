import Flowstate.Wire

/-!
# The test client

What a client keeps of the server's guidance (`crates/client`) : its copy of the target tick
floor, which only ever rises, its sequence counter, and the snapshot it drained last. The
network is left to the caller : `pollSnapshot` takes the snapshots of one drain in the order
of their arrival, `sendInput` returns the command it sends.
-/

open Rust

namespace Flowstate

variable {F : Type}

/-- `TryFrom<EntitySnapshotProto>`. -/
def EntitySnapshot.tryFrom (proto : EntitySnapshotProto F) : Except String (EntitySnapshot F) :=
  match proto.position, proto.velocity with
  | [px, py], [vx, vy] => .ok ⟨proto.entityId, (px, py), (vx, vy)⟩
  | [_, _], _ => .error "velocity must have exactly 2 elements"
  | _, _ => .error "position must have exactly 2 elements"

/-- `TryFrom<SnapshotProto>`. -/
def Snapshot.tryFrom (proto : SnapshotProto F) : Except String (Snapshot F) := do
  let entities ← proto.entities.mapM EntitySnapshot.tryFrom
  return ⟨proto.tick, entities, proto.digest⟩

/-! ## Tick floor -/

/-- Client-side tracking of the target tick floor. -/
structure TickFloor where
  tick : Tick
deriving DecidableEq

namespace TickFloor

def fromWelcome (targetTickFloor : Tick) : TickFloor := ⟨targetTickFloor⟩

def get (floor : TickFloor) : Tick := floor.tick

/-- Fold in a newly observed floor. -/
def observe (floor : TickFloor) (received : Tick) : TickFloor := ⟨max floor.tick received⟩

end TickFloor

/-- Clamp `desiredTick` up to `floor`. -/
def targetTick (floor desiredTick : Tick) : Tick := max desiredTick floor

/-- Generator of strictly increasing sequence numbers, the first being one. -/
structure InputSeqGen where
  last : UInt64
deriving DecidableEq

namespace InputSeqGen

def new : InputSeqGen := ⟨0⟩

def advance (gen : InputSeqGen) : Except Panic (InputSeqGen × UInt64) := do
  let next ← addU64 gen.last 1
  return (⟨next⟩, next)

end InputSeqGen

/-! ## Snapshots -/

/-- Whether a snapshot of `candidateTick` replaces the one tracked. -/
def isNewer (existing : Option Tick) (candidateTick : Tick) : Bool :=
  match existing with
  | none => true
  | some t => t < candidateTick

/-- One received snapshot : the latest so far, with its floor. Malformed ones are skipped. -/
def drainSnapshot (latest : Option (Snapshot F × Tick)) (proto : SnapshotProto F) :
    Option (Snapshot F × Tick) :=
  match Snapshot.tryFrom proto with
  | .error _ => latest
  | .ok snapshot =>
    if isNewer (latest.map fun x => x.1.tick) snapshot.tick then
      some (snapshot, proto.targetTickFloor)
    else latest

/-- Drain the received snapshots, keeping the one of the highest tick. -/
def pollSnapshot (received : List (SnapshotProto F)) : Option (Snapshot F × Tick) :=
  received.foldl drainSnapshot none

/-! ## Client -/

/-- A connected client. -/
structure TestClient (F : Type) where
  welcome : ServerWelcome
  tickFloor : TickFloor
  snapshot : Option (Snapshot F)
  inputSeq : InputSeqGen

namespace TestClient

/-- The client once its welcome has arrived. -/
def connect (welcome : ServerWelcome) : TestClient F :=
  ⟨welcome, TickFloor.fromWelcome welcome.targetTickFloor, none, InputSeqGen.new⟩

def observeTickFloor (c : TestClient F) (received : Tick) : TestClient F :=
  { c with tickFloor := c.tickFloor.observe received }

/-- Drain the received snapshots, track the latest, and fold in its floor. -/
def pollSnapshot (c : TestClient F) (received : List (SnapshotProto F)) : TestClient F :=
  match Flowstate.pollSnapshot received with
  | none => c
  | some (snapshot, floor) => { c.observeTickFloor floor with snapshot := some snapshot }

/-- Build the command for `desiredTick`, using up the next sequence number. -/
def sendInput (c : TestClient F) (desiredTick : Tick) (moveDir : F × F) :
    Except Panic (TestClient F × InputCmdProto F) := do
  let (inputSeq, seq) ← c.inputSeq.advance
  return ({ c with inputSeq }, ⟨targetTick c.tickFloor.get desiredTick, seq, toVec moveDir⟩)

end TestClient

/-! ## What folding does -/

theorem toNat_max (a b : UInt64) : (max a b).toNat = max a.toNat b.toNat := by
  change (if a ≤ b then b else a).toNat = _
  split_ifs with h <;> rw [UInt64.le_iff_toNat_le] at h <;> omega

theorem TickFloor.toNat_observe (floor : TickFloor) (received : Tick) :
    (floor.observe received).get.toNat = max floor.get.toNat received.toNat :=
  toNat_max floor.tick received

theorem toNat_targetTick (floor desiredTick : Tick) :
    (targetTick floor desiredTick).toNat = max desiredTick.toNat floor.toNat :=
  toNat_max desiredTick floor

/-- The floor a drain folds in is that of one of the snapshots drained. -/
theorem mem_of_pollSnapshot {received : List (SnapshotProto F)} {snapshot : Snapshot F}
    {floor : Tick} (h : pollSnapshot received = some (snapshot, floor)) :
    ∃ proto ∈ received, proto.targetTickFloor = floor := by
  have hfold : ∀ (received : List (SnapshotProto F)) (latest : Option (Snapshot F × Tick)) x,
      received.foldl drainSnapshot latest = some x →
        latest = some x ∨ ∃ proto ∈ received, proto.targetTickFloor = x.2 := by
    intro received
    induction received with
    | nil => exact fun latest x h => .inl h
    | cons proto received ih =>
      intro latest x h
      rcases ih (drainSnapshot latest proto) x h with hx | ⟨proto', hmem, hfloor⟩
      · unfold drainSnapshot at hx
        split at hx
        · exact .inl hx
        · split_ifs at hx
          · exact .inr ⟨proto, List.mem_cons_self, by rw [← Option.some.inj hx]⟩
          · exact .inl hx
      · exact .inr ⟨proto', List.mem_cons_of_mem _ hmem, hfloor⟩
  exact (hfold received none (snapshot, floor) h).resolve_left nofun

end Flowstate
