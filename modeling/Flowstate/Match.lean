import Mathlib.Logic.Function.Basic
import Flowstate.Operations

/-!
# A match as independent lanes

What the server is for, without its ids and maps : a clock and one `Lane` per session. A
lane holds what belongs to one player : whether its session is live, the floor last told
to it, its buffered commands by tick, its intent, and its character's motion. A command, a
welcome or a leave touches the lane of its session only, and a tick advances every joined
lane by itself (`Lane.advance`). Lanes meet in the cap on live sessions and nowhere else.

`Match` has no player ids, only their count, which is a `u8` in the server. Sessions are
numbered from one in the order they join, and an entity has the number of its session.
`Flowstate.Refinement` proves that a server with distinct player ids runs as the match of its
configuration.
-/

set_option linter.unusedSectionVars false

open Rust

namespace Flowstate

variable {F : Type} [F64 F]

/-- The part of a match that belongs to one session. -/
structure Lane (F : Type) where
  live : Bool
  floor : Option Tick
  slots : Tick → Option (BufferEntry F)
  intent : F × F
  position : F × F
  velocity : F × F

/-- The part of the configuration a match obeys. -/
structure Rules (F : Type) where
  maxSessions : ℕ
  tickRateHz : UInt32
  maxFutureTicks : UInt64
  inputLeadTicks : UInt64
  perTickLimit : UInt32
  dtSeconds : F

namespace Lane

/-- A lane nobody has joined : nothing buffered, at the origin, at rest. -/
def fresh : Lane F :=
  ⟨false, none, fun _ => none, (F64.lit 0, F64.lit 0), (F64.lit 0, F64.lit 0),
    (F64.lit 0, F64.lit 0)⟩

def join (l : Lane F) : Lane F := { l with live := true }

def welcome (l : Lane F) (floor : Tick) : Lane F := { l with floor := some floor }

def leave (l : Lane F) : Lane F :=
  { l with live := false, floor := none, intent := (F64.lit 0, F64.lit 0) }

/-- The lane with a command admitted to the slot of its tick. -/
def buffer (perTickLimit : UInt32) (l : Lane F) (input : InputCmdProto F) : Lane F :=
  { l with
    slots := Function.update l.slots input.tick
      (BufferEntry.receive perTickLimit (l.slots input.tick) input).1 }

/-- Screen a command, then buffer it. -/
def receive (rules : Rules F) (tick : Tick) (l : Lane F) (input : InputCmdProto F) :
    Except Panic (Lane F × ValidationResult) :=
  match screen rules.maxFutureTicks tick (l.floor.getD 0) input with
  | .error e => .error e
  | .ok (some result) => .ok (l, result)
  | .ok none =>
    .ok (l.buffer rules.perTickLimit input,
      (BufferEntry.receive rules.perTickLimit (l.slots input.tick) input).2.verdict)

/-- The direction applied to the lane at a tick, and whether it is the fallback. -/
def choice (l : Lane F) (tick : Tick) : (F × F) × Bool := chooseInput (l.slots tick) l.intent

/-- Apply the choice of `tick`, keep the slots from `next` on, and tell a live session the
new floor. -/
def advance (dtSeconds : F) (tick next floor : Tick) (l : Lane F) : Lane F :=
  let moveDir := (l.choice tick).1
  let velocity := Character.velocityOf moveDir
  { l with
    floor := if l.live then some floor else l.floor
    slots := fun t => if next ≤ t then l.slots t else none
    intent := moveDir
    velocity
    position := (l.position.1 + velocity.1 * dtSeconds, l.position.2 + velocity.2 * dtSeconds) }

end Lane

/-- One applied input, by session. -/
structure Applied (F : Type) where
  tick : Tick
  session : SessionId
  moveDir : F × F
  isFallback : Bool

/-- A match : the clock, how many sessions have joined, their lanes, and what was applied. -/
structure Match (F : Type) where
  rules : Rules F
  tick : Tick
  joined : ℕ
  lane : SessionId → Lane F
  log : List (Applied F)

/-- The digest of a tick and entities, as `World.stateDigest` hashes them. -/
def digestOf (tick : Tick) (entities : List (EntitySnapshot F)) : UInt64 :=
  let hasher := Fnv1a64.new.update (toLeBytes tick)
  let hasher := entities.foldl (fun hasher e =>
    let hasher := hasher.update (toLeBytes e.entityId)
    let hasher := hasher.update (toLeBytes (canonicalizeF64 e.position.1))
    let hasher := hasher.update (toLeBytes (canonicalizeF64 e.position.2))
    let hasher := hasher.update (toLeBytes (canonicalizeF64 e.velocity.1))
    hasher.update (toLeBytes (canonicalizeF64 e.velocity.2))) hasher
  hasher.finish

/-- The digest of a world sees its tick and its entity snapshots only. -/
theorem World.stateDigest_eq (w : World F) :
    w.stateDigest = digestOf w.tick w.sortedEntitySnapshots := by
  rw [stateDigest, digestOf, sortedEntitySnapshots, List.foldl_map]
  rfl

namespace Match

/-- The session with a given place in the order of joining, counted from zero. -/
def sessionAt (i : ℕ) : SessionId := UInt64.ofNat (i + 1)

/-- The sessions that have joined, in order. -/
def order (m : Match F) : List SessionId := (List.range m.joined).map sessionAt

/-- A match nobody has joined. -/
def new (rules : Rules F) : Match F := ⟨rules, 0, 0, fun _ => Lane.fresh, []⟩

def liveCount (m : Match F) : ℕ := (m.order.filter fun sid => (m.lane sid).live).length

def setLane (m : Match F) (sid : SessionId) (l : Lane F) : Match F :=
  { m with lane := Function.update m.lane sid l }

def entities (m : Match F) : List (EntitySnapshot F) :=
  m.order.map fun sid => ⟨sid, (m.lane sid).position, (m.lane sid).velocity⟩

def snapshot (m : Match F) : Snapshot F := ⟨m.tick, m.entities, digestOf m.tick m.entities⟩

/-- What a tick applies, in the order of joining. -/
def applied (m : Match F) : List (Applied F) :=
  m.order.map fun sid =>
    ⟨m.tick, sid, ((m.lane sid).choice m.tick).1, ((m.lane sid).choice m.tick).2⟩

/-- Advance every joined lane to `next`. -/
def advance (m : Match F) (next floor : Tick) : Match F :=
  { m with
    tick := next
    lane := fun sid =>
      if sid ∈ m.order then (m.lane sid).advance m.rules.dtSeconds m.tick next floor
      else m.lane sid
    log := m.log ++ m.applied }

/-- Execute one operation of the server, player ids left out. -/
def exec (m : Match F) : Op F → Except Panic (Match F × Out F)
  | .acceptSession =>
    if m.rules.maxSessions ≤ m.liveCount then
      .error ⟨s!"max_sessions ({m.rules.maxSessions}) exceeded"⟩
    else if m.joined + 1 < 2 ^ 8 then
      let sid := sessionAt m.joined
      .ok ({ m.setLane sid (m.lane sid).join with joined := m.joined + 1 }, .accepted sid 0 sid)
    else .error addOverflow
  | .welcomeFor sid =>
    if (m.lane sid).live then do
      let floor ← addU64 m.tick m.rules.inputLeadTicks
      return (m.setLane sid ((m.lane sid).welcome floor),
        .welcomed ⟨floor, m.rules.tickRateHz, 0, sid⟩)
    else .error ⟨"welcome_for: unknown session_id"⟩
  | .receiveInput sid input =>
    if (m.lane sid).live then do
      let (l, result) ← (m.lane sid).receive m.rules m.tick input
      return (m.setLane sid l, .verdict result)
    else .ok (m, .verdict .droppedUnknownSession)
  | .disconnectSession sid =>
    .ok (if (m.lane sid).live then m.setLane sid (m.lane sid).leave else m, .disconnected)
  | .step => do
    let next ← addU64 m.tick 1
    let floor ← addU64 next m.rules.inputLeadTicks
    let m := m.advance next floor
    return (m, .stepped m.snapshot floor (Server.snapshotBytes m.snapshot floor))

/-! ## The order of joining -/

theorem sessionAt_toNat {i : ℕ} (h : i + 1 < 2 ^ 64) : (sessionAt i).toNat = i + 1 :=
  UInt64.toNat_ofNat_of_lt' h

theorem mem_order {m : Match F} (h : m.joined < 2 ^ 63) {sid : SessionId} :
    sid ∈ m.order ↔ 0 < sid.toNat ∧ sid.toNat ≤ m.joined := by
  simp only [order, List.mem_map, List.mem_range]
  constructor
  · rintro ⟨i, hi, rfl⟩
    rw [sessionAt_toNat (by omega)]
    omega
  · intro hsid
    refine ⟨sid.toNat - 1, by omega, ?_⟩
    rw [sessionAt, Nat.sub_add_cancel hsid.1, UInt64.ofNat_toNat]

theorem sessionAt_notMem_order {m : Match F} (h : m.joined < 2 ^ 63) :
    sessionAt m.joined ∉ m.order := by
  rw [mem_order h, sessionAt_toNat (by omega)]
  omega

theorem pairwise_order {m : Match F} (h : m.joined < 2 ^ 63) :
    m.order.Pairwise fun a b => a.toNat < b.toNat := by
  rw [order, List.pairwise_map]
  refine List.pairwise_lt_range.imp_of_mem ?_
  intro a b ha hb hab
  rw [List.mem_range] at ha hb
  rw [sessionAt_toNat (by omega), sessionAt_toNat (by omega)]
  omega

theorem nodup_order {m : Match F} (h : m.joined < 2 ^ 63) : m.order.Nodup :=
  (pairwise_order h).imp fun hab heq => by simp [heq] at hab

@[simp] theorem order_setLane (m : Match F) (sid : SessionId) (l : Lane F) :
    (m.setLane sid l).order = m.order := rfl

@[simp] theorem lane_setLane (m : Match F) (sid sid' : SessionId) (l : Lane F) :
    (m.setLane sid l).lane sid' = if sid' = sid then l else m.lane sid' :=
  Function.update_apply ..

/-- A table entry that shows `f` of a lane still does, if it changes where the lane does. -/
theorem eq_setLane {α : Type} (f : SessionId → Lane F → α) {m : Match F} {sid sid' : SessionId}
    {l : Lane F} {entry entry' : α} (hnew : entry' = if sid' = sid then f sid l else entry)
    (hold : entry = f sid' (m.lane sid')) : entry' = f sid' ((m.setLane sid l).lane sid') := by
  rw [hnew, lane_setLane]
  split_ifs with heq
  · rw [heq]
  · exact hold

/-- The match after the next session has joined. -/
theorem order_succ (m : Match F) (sid : SessionId) (l : Lane F) :
    ({ m.setLane sid l with joined := m.joined + 1 } : Match F).order =
      m.order ++ [sessionAt m.joined] := by
  simp [order, List.range_succ]

@[simp] theorem order_advance (m : Match F) (next floor : Tick) :
    (m.advance next floor).order = m.order := rfl

theorem lane_advance (m : Match F) (next floor : Tick) (sid : SessionId) :
    (m.advance next floor).lane sid =
      if sid ∈ m.order then (m.lane sid).advance m.rules.dtSeconds m.tick next floor
      else m.lane sid := rfl

@[simp] theorem live_advance (m : Match F) (next floor : Tick) (sid : SessionId) :
    ((m.advance next floor).lane sid).live = (m.lane sid).live := by
  rw [lane_advance]
  split_ifs <;> rfl

end Match

/-! ## What one operation does -/

/-- `Steps m op m' o` : the ways `op` can take `m` to `m'` with output `o`. -/
inductive Match.Steps (m : Match F) : Op F → Match F → Out F → Prop
  | join (hcap : m.liveCount < m.rules.maxSessions) (hjoined : m.joined + 1 < 2 ^ 8) :
    Steps m .acceptSession
      { m.setLane (sessionAt m.joined) (m.lane (sessionAt m.joined)).join with
        joined := m.joined + 1 }
      (.accepted (sessionAt m.joined) 0 (sessionAt m.joined))
  | welcome {sid : SessionId} {floor : Tick} (hlive : (m.lane sid).live)
      (hfloor : floor.toNat = m.tick.toNat + m.rules.inputLeadTicks.toNat) :
    Steps m (.welcomeFor sid) (m.setLane sid ((m.lane sid).welcome floor))
      (.welcomed ⟨floor, m.rules.tickRateHz, 0, sid⟩)
  | unknown {sid : SessionId} {input : InputCmdProto F} (hlive : ¬(m.lane sid).live) :
    Steps m (.receiveInput sid input) m (.verdict .droppedUnknownSession)
  | drop {sid : SessionId} {input : InputCmdProto F} {result : ValidationResult}
      (hlive : (m.lane sid).live) (hscreen : screen m.rules.maxFutureTicks m.tick
        ((m.lane sid).floor.getD 0) input = .ok (some result)) :
    Steps m (.receiveInput sid input) m (.verdict result)
  | buffer {sid : SessionId} {input : InputCmdProto F} (hlive : (m.lane sid).live)
      (hscreen : screen m.rules.maxFutureTicks m.tick
        ((m.lane sid).floor.getD 0) input = .ok none) :
    Steps m (.receiveInput sid input)
      (m.setLane sid ((m.lane sid).buffer m.rules.perTickLimit input))
      (.verdict (BufferEntry.receive m.rules.perTickLimit
        ((m.lane sid).slots input.tick) input).2.verdict)
  | leave {sid : SessionId} (hlive : (m.lane sid).live) :
    Steps m (.disconnectSession sid) (m.setLane sid (m.lane sid).leave) .disconnected
  | absent {sid : SessionId} (hlive : ¬(m.lane sid).live) :
    Steps m (.disconnectSession sid) m .disconnected
  | tick {next floor : Tick} (hnext : next.toNat = m.tick.toNat + 1)
      (hfloor : floor.toNat = next.toNat + m.rules.inputLeadTicks.toNat) :
    Steps m .step (m.advance next floor) (.stepped (m.advance next floor).snapshot floor
      (Server.snapshotBytes (m.advance next floor).snapshot floor))

theorem Match.steps_of_exec {m m' : Match F} {op : Op F} {o : Out F}
    (h : m.exec op = .ok (m', o)) : m.Steps op m' o := by
  cases op with
  | acceptSession =>
    by_cases hcap : m.rules.maxSessions ≤ m.liveCount
    · simp [exec, hcap] at h
    · by_cases hjoined : m.joined + 1 < 2 ^ 8
      · rw [exec, if_neg hcap, if_pos hjoined] at h
        obtain ⟨rfl, rfl⟩ := Prod.mk.inj (Except.ok.inj h)
        exact .join (Nat.not_le.1 hcap) hjoined
      · rw [exec, if_neg hcap, if_neg hjoined] at h
        cases h
  | welcomeFor sid =>
    by_cases hlive : (m.lane sid).live
    · simp only [exec, hlive, if_true, bind_eq_ok, addU64_eq_ok, pure, Except.pure,
        Except.ok.injEq, Prod.mk.injEq] at h
      obtain ⟨floor, hfloor, rfl, rfl⟩ := h
      exact .welcome hlive hfloor
    · simp [exec, hlive] at h
  | receiveInput sid input =>
    by_cases hlive : (m.lane sid).live
    · simp only [exec, if_pos hlive, Lane.receive, bind_eq_ok] at h
      rcases hscreen : screen m.rules.maxFutureTicks m.tick ((m.lane sid).floor.getD 0) input with
        e | _ | result
      · simp [hscreen] at h
      · simp only [hscreen, Except.ok.injEq, exists_eq_left', pure, Except.pure,
          Prod.mk.injEq] at h
        obtain ⟨rfl, rfl⟩ := h
        exact .buffer hlive hscreen
      · simp only [hscreen, Except.ok.injEq, exists_eq_left', pure, Except.pure,
          Prod.mk.injEq] at h
        obtain ⟨rfl, rfl⟩ := h
        rw [setLane, Function.update_eq_self]
        exact .drop hlive hscreen
    · rw [exec, if_neg hlive] at h
      obtain ⟨rfl, rfl⟩ := Prod.mk.inj (Except.ok.inj h)
      exact .unknown hlive
  | disconnectSession sid =>
    rw [exec] at h
    obtain ⟨rfl, rfl⟩ := Prod.mk.inj (Except.ok.inj h)
    by_cases hlive : (m.lane sid).live
    · rw [if_pos hlive]
      exact .leave hlive
    · rw [if_neg hlive]
      exact .absent hlive
  | step =>
    simp only [exec, bind_eq_ok, addU64_eq_ok, pure, Except.pure, Except.ok.injEq,
      Prod.mk.injEq] at h
    obtain ⟨next, hnext, floor, hfloor, rfl, rfl⟩ := h
    exact .tick hnext hfloor

/-- The match as a machine. -/
def matchMachine (F : Type) [F64 F] : Machine (Match F) (Op F) (Out F) Panic := ⟨Match.exec⟩

namespace Match

/-- Sessions that have joined stay joined. -/
theorem order_subset_of_exec {m m' : Match F} {op : Op F} {o : Out F}
    (h : m.exec op = .ok (m', o)) : m.order ⊆ m'.order := by
  cases steps_of_exec h with
  | join => exact order_succ m .. ▸ List.subset_append_left _ _
  | welcome | unknown | drop | buffer | leave | absent | tick => exact List.Subset.refl _

/-- Sessions and log only grow. -/
theorem grows_of_run {m m' : Match F} {ops : List (Op F)} {outs : List (Out F)}
    (hrun : (matchMachine F).run m ops = .ok (m', outs)) :
    m.order ⊆ m'.order ∧ m.log <+: m'.log := by
  refine Machine.run_invariant (P := fun u : Match F => m.order ⊆ u.order ∧ m.log <+: u.log)
    (fun u op u' o h hexec => ⟨List.Subset.trans h.1 (order_subset_of_exec hexec), h.2.trans ?_⟩)
    ⟨List.Subset.refl _, List.prefix_rfl⟩ hrun
  cases steps_of_exec hexec with
  | tick => exact List.prefix_append _ _
  | join | welcome | unknown | drop | buffer | leave | absent => exact List.prefix_rfl

/-- An accept returns its session's number as the entity, and the session has joined. -/
theorem accepted_of_run {m m' : Match F} {ops : List (Op F)} {outs : List (Out F)}
    (hrun : (matchMachine F).run m ops = .ok (m', outs)) {sid : SessionId} {p : PlayerId}
    {e : EntityId} (ho : .accepted sid p e ∈ outs) : e = sid ∧ sid ∈ m'.order := by
  let P : List (Op F × Out F) → Match F → Prop := fun h m =>
    ∀ x ∈ h, ∀ sid p e, x.2 = .accepted sid p e → e = sid ∧ sid ∈ m.order
  have hstep : ∀ h m op m' o, P h m → m.exec op = .ok (m', o) → P (h ++ [(op, o)]) m' := by
    intro h m op m' o hP hexec x hx sid p e heq
    rcases List.mem_append.1 hx with hx | hx
    · obtain ⟨he, hmem⟩ := hP x hx sid p e heq
      exact ⟨he, order_subset_of_exec hexec hmem⟩
    · obtain rfl := List.mem_singleton.1 hx
      cases steps_of_exec hexec with
      | join =>
        obtain ⟨rfl, -, rfl⟩ := Out.accepted.inj heq
        exact ⟨rfl, by simp [order_succ]⟩
      | welcome | unknown | drop | buffer | leave | absent | tick => cases heq
  obtain ⟨op, hmem⟩ := Machine.exists_mem_zip (Machine.length_of_run hrun) ho
  have hP : P ([] ++ ops.zip outs) m' :=
    Machine.run_history hstep (fun x hx => absurd hx List.not_mem_nil) hrun
  exact hP _ hmem sid p e rfl

end Match

end Flowstate
