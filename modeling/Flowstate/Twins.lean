import Flowstate.Connection
import Flowstate.Machine
import Flowstate.Polls

/-!
# One protocol, two clients

The test client in Rust and the Godot client follow one protocol : they fold the floor of the
newest snapshot of a drain, raise what they aim at to the floor, and number what they send.
`clientMachine` and `sceneMachine` execute the same polls and sends, a drained snapshot as
its message in Rust and as its bytes in Godot. After one greeting the two hand their peer the
same packets and hold the same floor (`twins`), as long as every number fits an `int`.
-/

set_option linter.unusedSectionVars false

open Rust

namespace Flowstate

variable {F : Type} [F64 F]

/-- What either client is made to do. -/
inductive ClientOp (F : Type)
  /-- Drain the realtime channel. -/
  | poll (snapshots : List (SnapshotProto F))
  | send (desiredTick : Tick) (moveDir : F × F)

/-- Why a run of a client ends. -/
inductive ClientError
  | panic (p : Panic)
  | script
deriving DecidableEq

namespace ClientOp

/-- The numbers fit an `int`, and a snapshot is one that both clients can read. -/
def Fits : ClientOp F → Prop
  | .poll snapshots => ∀ p ∈ snapshots, p.WellFormed ∧ p.tick.toNat < 2 ^ 63 ∧
      p.targetTickFloor.toNat < 2 ^ 63 ∧ p.encode.length < 2 ^ 63
  | .send desiredTick _ => desiredTick.toNat < 2 ^ 63

def isSend : ClientOp F → Bool
  | .poll _ => false
  | .send _ _ => true

end ClientOp

/-- One operation of the test client, and the packets it sends. -/
def TestClient.exec (c : TestClient F) :
    ClientOp F → Except ClientError (TestClient F × List Protobuf.Bytes)
  | .poll snapshots => .ok (c.pollSnapshot snapshots, [])
  | .send desiredTick moveDir =>
    match c.sendInput desiredTick moveDir with
    | .error p => .error (.panic p)
    | .ok (c, cmd) => .ok (c, [cmd.encode])

def clientMachine (F : Type) [F64 F] :
    Machine (TestClient F) (ClientOp F) (List Protobuf.Bytes) ClientError := ⟨TestClient.exec⟩

namespace Godot

open WireCodec

/-- The events of a drain of the realtime channel. -/
def drained (snapshots : List (Flowstate.SnapshotProto F)) : List ENetEvent :=
  snapshots.map fun p => .receive Channels.channelRealtime p.encode

/-- One operation of the Godot client, and what it hands its peer. -/
def MatchScene.exec (s : MatchScene) : ClientOp F → Except ClientError (MatchScene × List Sent)
  | .poll snapshots =>
    match process (frameFuel (drained snapshots)) s (drained snapshots) with
    | none => .error .script
    | some t => .ok (t, t.networkClient.sent.drop s.networkClient.sent.length)
  | .send desiredTick moveDir =>
    match s.networkClient.sendInput ((toVec moveDir).map F64.toBits) desiredTick.toInt64 with
    | none => .error .script
    | some c =>
      .ok ({ s with networkClient := c }, c.sent.drop s.networkClient.sent.length)

def sceneMachine (F : Type) [F64 F] :
    Machine MatchScene (ClientOp F) (List Sent) ClientError := ⟨MatchScene.exec⟩

end Godot

/-! ## Numbers -/

theorem toInt64_max {a b : UInt64} (ha : a.toNat < 2 ^ 63) (hb : b.toNat < 2 ^ 63) :
    (max a b).toInt64 = max a.toInt64 b.toInt64 := by
  have hmax : (max a b).toNat < 2 ^ 63 := by
    rw [toNat_max]
    omega
  apply Int64.toInt_inj.1
  rw [Godot.toInt_max, toInt_toInt64 ha, toInt_toInt64 hb, toInt_toInt64 hmax, toNat_max]
  omega

theorem toInt64_lt {a b : UInt64} (ha : a.toNat < 2 ^ 63) (hb : b.toNat < 2 ^ 63) :
    a.toInt64 < b.toInt64 ↔ a < b := by
  rw [Int64.lt_iff_toInt_lt, toInt_toInt64 ha, toInt_toInt64 hb, UInt64.lt_iff_toNat_lt]
  omega

/-- Raising to a floor is the same in either order. -/
theorem toInt64_targetTick {floor desiredTick : Tick} (hfloor : floor.toNat < 2 ^ 63)
    (hdesired : desiredTick.toNat < 2 ^ 63) :
    (targetTick floor desiredTick).toInt64 = max floor.toInt64 desiredTick.toInt64 := by
  have htarget : (targetTick floor desiredTick).toNat < 2 ^ 63 := by
    rw [toNat_targetTick]
    omega
  apply Int64.toInt_inj.1
  rw [Godot.toInt_max, toInt_toInt64 hfloor, toInt_toInt64 hdesired, toInt_toInt64 htarget,
    toNat_targetTick]
  omega

/-! ## A drain -/

open Godot (Drain MatchScene)
open Godot.WireCodec (encodeSnapshotProto)

/-- Both drains have kept a snapshot of one tick, and its floor, or neither has. -/
def SameKept (latest : Option (Snapshot F × Tick)) (d : Drain) : Prop :=
  match latest with
  | none => d.latestSnapshot = none
  | some (snapshot, floor) => snapshot.tick.toNat < 2 ^ 63 ∧ floor.toNat < 2 ^ 63 ∧
      ∃ q, d.latestSnapshot = some q ∧ d.latestSnapshotFloor = q.targetTickFloor ∧
        q.tick = snapshot.tick.toInt64 ∧ q.targetTickFloor = floor.toInt64

/-- Both drains keep a newer snapshot, and neither keeps an older one. -/
theorem SameKept.keep {latest : Option (Snapshot F × Tick)} {d : Drain}
    (h : SameKept latest d) {p : SnapshotProto F} (hwf : p.WellFormed)
    (htick : p.tick.toNat < 2 ^ 63) (hfloor : p.targetTickFloor.toNat < 2 ^ 63) :
    SameKept (drainSnapshot latest p) (d.keep p.toGodot) := by
  obtain ⟨snapshot, hsnapshot⟩ := hwf
  have htick' := Snapshot.tick_of_tryFrom hsnapshot
  have hkept : SameKept (some (snapshot, p.targetTickFloor))
      { d with
        latestSnapshot := some p.toGodot
        latestSnapshotFloor := p.toGodot.targetTickFloor } :=
    ⟨htick' ▸ htick, hfloor, p.toGodot, rfl, rfl, by rw [htick']; rfl, rfl⟩
  simp only [drainSnapshot, hsnapshot, Drain.keep]
  rcases latest with - | ⟨old, floor⟩
  · have hnone : d.latestSnapshot = none := h
    simp only [hnone, Option.map_none, isNewer, if_true, Option.all_none]
    exact hkept
  · obtain ⟨hold, -, q, hq, -, hqtick, -⟩ := id h
    have hlt : q.tick < p.toGodot.tick ↔ old.tick < snapshot.tick := by
      rw [hqtick, htick']
      exact toInt64_lt hold htick
    by_cases hnewer : old.tick < snapshot.tick
    · have hgodot := hlt.2 hnewer
      simp only [hq, Option.map_some, isNewer, Option.all_some, hnewer, hgodot, decide_true,
        if_true]
      exact hkept
    · have hgodot : ¬q.tick < p.toGodot.tick := fun h => hnewer (hlt.1 h)
      simp only [hq, Option.map_some, isNewer, Option.all_some, hnewer, hgodot, decide_false,
        Bool.false_eq_true, if_false]
      exact h

theorem SameKept.foldl : ∀ {snapshots : List (SnapshotProto F)}
    {latest : Option (Snapshot F × Tick)} {d : Drain}, SameKept latest d →
    (ClientOp.poll snapshots).Fits →
    SameKept (snapshots.foldl drainSnapshot latest)
        (snapshots.foldl (fun d p => d.keep p.toGodot) d) ∧
      (snapshots.foldl (fun d p => d.keep p.toGodot) d).scene = d.scene
  | [], _, _, h, _ => ⟨h, rfl⟩
  | p :: snapshots, latest, d, h, hfits => by
    have ⟨⟨hwf, htick, hfloor, _⟩, hrest⟩ := List.forall_mem_cons.1 hfits
    have hkeep : (d.keep p.toGodot).scene = d.scene := by
      rw [Drain.keep]
      split_ifs <;> rfl
    obtain ⟨hkept, hscene⟩ := foldl (h.keep hwf htick hfloor) hrest
    exact ⟨hkept, hscene.trans hkeep⟩

/-- A drain of a ready client decodes what it is sent, and only keeps. -/
theorem foldlM_drained {fuel : ℕ} : ∀ {snapshots : List (SnapshotProto F)} {d : Drain},
    d.scene.networkClient.state = .ready →
    (∀ p ∈ snapshots, p.encode.length ≤ fuel ∧ p.encode.length < 2 ^ 63) →
    (Godot.drained snapshots).foldlM (Drain.onEvent fuel) d =
      some (snapshots.foldl (fun d p => d.keep p.toGodot) d)
  | [], _, _, _ => rfl
  | p :: snapshots, d, hs, hfits => by
    have ⟨⟨hfuel, hlen⟩, hrest⟩ := List.forall_mem_cons.1 hfits
    rw [← SnapshotProto.encode_toGodot] at hfuel hlen
    have hevent : d.onEvent fuel (.receive Godot.Channels.channelRealtime p.encode) =
        some (d.keep p.toGodot) := by
      rw [Drain.onEvent, if_neg (by decide), if_pos ⟨rfl, hs⟩, ← SnapshotProto.encode_toGodot,
        Godot.WireCodec.decode_encodeSnapshotProto _ hfuel hlen]
      rfl
    have hkeep : (d.keep p.toGodot).scene = d.scene := by
      rw [Drain.keep]
      split_ifs <;> rfl
    rw [Godot.drained, List.map_cons, List.foldlM_cons, hevent]
    exact foldlM_drained (hkeep.symm ▸ hs) hrest

/-! ## Two clients -/

/-- Two clients that hold one floor and one sequence number. -/
structure Twin (c : TestClient F) (s : MatchScene) : Prop where
  ready : s.networkClient.state = .ready
  floor : s.networkClient.tickFloor = some ⟨c.tickFloor.get.toInt64⟩
  floorFits : c.tickFloor.get.toNat < 2 ^ 63
  seq : s.networkClient.inputSeq.seq = c.inputSeq.last.toInt64

namespace Twin

variable {c : TestClient F} {s : MatchScene}

theorem poll (h : Twin c s) {snapshots : List (SnapshotProto F)}
    (hfits : (ClientOp.poll snapshots).Fits) :
    ∃ t, s.exec (.poll snapshots) = .ok (t, []) ∧ Twin (c.pollSnapshot snapshots) t := by
  set fuel := Godot.frameFuel (Godot.drained snapshots) with hfuel
  have hsizes : ∀ p ∈ snapshots, p.encode.length ≤ fuel ∧ p.encode.length < 2 ^ 63 := by
    intro p hp
    have hmem : Godot.ENetEvent.receive Godot.Channels.channelRealtime p.encode ∈
        Godot.drained snapshots := List.mem_map_of_mem hp
    exact ⟨Godot.size_le_frameFuel hmem, (hfits p hp).2.2.2⟩
  have hstart : SameKept (F := F) none ⟨s, none, 0⟩ := rfl
  obtain ⟨hkept, hscene⟩ := hstart.foldl hfits
  have hprocess : Godot.process fuel s (Godot.drained snapshots) =
      (snapshots.foldl (fun (d : Drain) p => d.keep p.toGodot) ⟨s, none, 0⟩).finish := by
    rw [Godot.process_of_ready h.ready, foldlM_drained h.ready hsizes]
    rfl
  rw [MatchScene.exec, ← hfuel, hprocess, TestClient.pollSnapshot, pollSnapshot]
  generalize snapshots.foldl (fun (d : Drain) p => d.keep p.toGodot) ⟨s, none, 0⟩ = d
    at hkept hscene
  generalize snapshots.foldl drainSnapshot none = latest at hkept
  obtain ⟨scene, latestSnapshot, latestFloor⟩ := d
  obtain rfl : scene = s := hscene
  rcases latest with - | ⟨snapshot, floor⟩
  · obtain rfl : latestSnapshot = none := hkept
    refine ⟨scene, ?_, h⟩
    simp [Drain.finish]
  · obtain ⟨-, hfloor, q, hq, hlatest, -, hqfloor⟩ := hkept
    obtain rfl : latestSnapshot = some q := hq
    obtain rfl : latestFloor = q.targetTickFloor := hlatest
    have hsettle := MatchScene.settle_of_some h.floor q
    have hmax : (c.tickFloor.observe floor).get.toInt64 =
        max c.tickFloor.get.toInt64 floor.toInt64 := toInt64_max h.floorFits hfloor
    have hfits : (c.tickFloor.observe floor).get.toNat < 2 ^ 63 := by
      have hold := h.floorFits
      rw [TickFloor.toNat_observe]
      omega
    rw [MatchScene.settle] at hsettle
    rw [hsettle]
    set t : MatchScene := ⟨scene.networkClient.setTickFloor
      ((⟨c.tickFloor.get.toInt64⟩ : Godot.TickFloor).observe q.targetTickFloor),
      (scene.matchState.applySnapshot q).1⟩
    have hfloor : t.networkClient.tickFloor =
        some ⟨(c.tickFloor.observe floor).get.toInt64⟩ := by
      rw [hmax, ← hqfloor]
      rfl
    refine ⟨t, ?_, ⟨h.ready, hfloor, hfits, h.seq⟩⟩
    have hsent : t.networkClient.sent = scene.networkClient.sent := rfl
    simp only [hsent, List.drop_length]

theorem send (h : Twin c s) {desiredTick : Tick} (moveDir : F × F)
    (hdesired : desiredTick.toNat < 2 ^ 63) (hseq : c.inputSeq.last.toNat + 1 < 2 ^ 64) :
    ∃ c' t bytes, c.exec (.send desiredTick moveDir) = .ok (c', [bytes]) ∧
      s.exec (.send desiredTick moveDir) =
        .ok (t, [⟨Godot.Channels.channelRealtime, bytes, 0⟩]) ∧
      c'.inputSeq.last.toNat = c.inputSeq.last.toNat + 1 ∧ Twin c' t := by
  obtain ⟨next, hnext, hlast⟩ := addU64_of_lt (a := c.inputSeq.last) (b := 1) hseq
  have hadvance : next.toInt64 = c.inputSeq.last.toInt64 + 1 := by
    have hone : (1 : UInt64).toNat = 1 := rfl
    rw [addU64, hone, if_pos hseq] at hnext
    rw [← Except.ok.inj hnext]
    rfl
  set cmd : InputCmdProto F := ⟨targetTick c.tickFloor.get desiredTick, next, toVec moveDir⟩
  have hcmd : cmd.toGodot = ⟨max c.tickFloor.get.toInt64 desiredTick.toInt64,
      s.networkClient.inputSeq.seq + 1, (toVec moveDir).map F64.toBits⟩ := by
    rw [InputCmdProto.toGodot, h.seq, ← hadvance, ← toInt64_targetTick h.floorFits hdesired]
  have hsend : s.networkClient.sendInput ((toVec moveDir).map F64.toBits) desiredTick.toInt64 =
      some ({ s.networkClient with inputSeq := ⟨s.networkClient.inputSeq.seq + 1⟩ }.send
        Godot.Channels.channelRealtime cmd.encode 0) := by
    rw [← InputCmdProto.encode_toGodot, hcmd]
    simp [Godot.NetworkClient.sendInput, h.ready, h.floor, Godot.InputSeqGen.advance,
      Godot.TickFloor.getFloor]
  refine ⟨{ c with inputSeq := ⟨next⟩ }, ⟨{ s.networkClient with
      inputSeq := ⟨s.networkClient.inputSeq.seq + 1⟩ }.send Godot.Channels.channelRealtime
        cmd.encode 0, s.matchState⟩, cmd.encode, ?_, ?_, hlast, h.ready, h.floor, h.floorFits, ?_⟩
  · simp [TestClient.exec, TestClient.sendInput, InputSeqGen.advance, hnext, bind, Except.bind,
      pure, Except.pure, cmd]
  · rw [MatchScene.exec, hsend]
    simp [Godot.NetworkClient.send]
  · change s.networkClient.inputSeq.seq + 1 = next.toInt64
    rw [hadvance, h.seq]

/-- Twins do whatever they are made to do, and send the same. -/
theorem run : ∀ {ops : List (ClientOp F)} {c : TestClient F} {s : MatchScene}, Twin c s →
    (∀ op ∈ ops, op.Fits) → c.inputSeq.last.toNat + ops.countP ClientOp.isSend < 2 ^ 64 →
    ∃ c' t outs, (clientMachine F).run c ops = .ok (c', outs) ∧
      (Godot.sceneMachine F).run s ops = .ok (t, outs.map (List.map fun bytes =>
        ⟨Godot.Channels.channelRealtime, bytes, 0⟩)) ∧ Twin c' t
  | [], c, s, h, _, _ => ⟨c, s, [], rfl, rfl, h⟩
  | op :: ops, c, s, h, hfits, hcount => by
    have ⟨hop, hops⟩ := List.forall_mem_cons.1 hfits
    rw [List.countP_cons] at hcount
    cases op with
    | poll snapshots =>
      obtain ⟨t, ht, htwin⟩ := h.poll hop
      have hseq : (c.pollSnapshot snapshots).inputSeq = c.inputSeq := by
        rw [TestClient.pollSnapshot]
        split <;> rfl
      obtain ⟨c', u, outs, hc, hu, hrest⟩ := run htwin hops (hseq ▸ hcount)
      exact ⟨c', u, [] :: outs, Machine.run_cons_eq_ok.2 ⟨_, _, _, rfl, hc, rfl⟩,
        Machine.run_cons_eq_ok.2 ⟨_, _, _, ht, hu, rfl⟩, hrest⟩
    | send desiredTick moveDir =>
      have hone : ClientOp.isSend (ClientOp.send desiredTick moveDir) = true := rfl
      rw [hone, if_pos rfl] at hcount
      obtain ⟨c₁, t, bytes, hc₁, ht, hseq, htwin⟩ := h.send moveDir hop (by omega)
      obtain ⟨c', u, outs, hc, hu, hrest⟩ := run htwin hops (by omega)
      exact ⟨c', u, [bytes] :: outs, Machine.run_cons_eq_ok.2 ⟨_, _, _, hc₁, hc, rfl⟩,
        Machine.run_cons_eq_ok.2 ⟨_, _, _, ht, hu, rfl⟩, hrest⟩

end Twin

/-! ## From the greeting on -/

theorem inputSeq_handleControlPacket {fuel : ℕ} {s t : MatchScene} {packet : PackedByteArray}
    (h : s.handleControlPacket fuel packet = some t) :
    t.networkClient.inputSeq = s.networkClient.inputSeq := by
  rw [MatchScene.handleControlPacket] at h
  split at h
  · obtain ⟨welcome, -, h⟩ := Option.bind_eq_some_iff.1 h
    obtain rfl := Option.some.inj h
    rfl
  · obtain ⟨baseline, -, h⟩ := Option.bind_eq_some_iff.1 h
    obtain ⟨welcome, -, h⟩ := Option.bind_eq_some_iff.1 h
    obtain rfl := Option.some.inj h
    rfl
  · obtain rfl := Option.some.inj h
    rfl
  · obtain rfl := Option.some.inj h
    rfl

/-- The frame in which the Godot client is greeted. -/
def greetingFrame (welcome : ServerWelcome) (baseline : JoinBaseline F) : List Godot.ENetEvent :=
  [.connect, .receive Godot.Channels.channelControl welcome.encode,
    .receive Godot.Channels.channelControl baseline.encode]

/-- A greeting makes twins of two new clients. -/
theorem exists_twin {welcome : ServerWelcome} {baseline : JoinBaseline F}
    (hfloor : welcome.targetTickFloor.toNat < 2 ^ 63) (hwelcome : welcome.encode.length < 2 ^ 63)
    (hbaseline : baseline.encode.length < 2 ^ 63) :
    ∃ s, Godot.process (Godot.frameFuel (greetingFrame welcome baseline))
        ⟨Godot.NetworkClient.new.connectToServer, Godot.MatchState.new⟩
        (greetingFrame welcome baseline) = some s ∧
      Twin (TestClient.connect (F := F) welcome) s := by
  set fuel := Godot.frameFuel (greetingFrame welcome baseline) with hfuel
  have hfirst : welcome.encode.length ≤ fuel :=
    Godot.size_le_frameFuel (e := .receive Godot.Channels.channelControl welcome.encode)
      (List.mem_cons_of_mem _ List.mem_cons_self)
  have hsecond : baseline.encode.length ≤ fuel :=
    Godot.size_le_frameFuel (e := .receive Godot.Channels.channelControl baseline.encode)
      (List.mem_cons_of_mem _ (List.mem_cons_of_mem _ List.mem_cons_self))
  rw [← ServerWelcome.encode_toGodot] at hfirst hwelcome
  rw [← JoinBaseline.encode_toGodot] at hsecond hbaseline
  obtain ⟨t, ht, hstate, htwelcome, htfloor, -⟩ :=
    MatchScene.handleControlPacket_of_connecting
      (s := ⟨Godot.NetworkClient.new.connectToServer.onConnect, Godot.MatchState.new⟩) rfl
      (Godot.WireCodec.decode_encodeServerWelcome _ hfirst hwelcome)
  obtain ⟨u, hu, hready, hufloor, -⟩ :=
    MatchScene.handleControlPacket_of_awaitingBaseline hstate htwelcome
      (Godot.WireCodec.decode_encodeJoinBaseline _ hsecond hbaseline)
  have hseq : u.networkClient.inputSeq = Godot.InputSeqGen.new :=
    (inputSeq_handleControlPacket hu).trans (inputSeq_handleControlPacket ht)
  obtain ⟨f, hf⟩ := Godot.NetworkClient.exists_tickFloor hready
  have hfloor' : f.floor = welcome.targetTickFloor.toInt64 := by
    have hsame := hufloor.trans htfloor
    rwa [Godot.NetworkClient.getTickFloor, hf] at hsame
  refine ⟨u, ?_, hready, ?_, hfloor, ?_⟩
  · rw [ServerWelcome.encode_toGodot] at ht
    rw [JoinBaseline.encode_toGodot] at hu
    rw [Godot.process, if_neg (by decide), greetingFrame]
    simp [Drain.onEvent, ht, hu, Drain.finish]
  · rw [hf]
    exact congrArg (fun floor => some (Godot.TickFloor.mk floor)) hfloor'
  · rw [hseq]
    rfl

/-- Greeted alike and made to do the same, the two clients hand their peer the same packets, in
the same order, and hold the same floor. -/
theorem twins {welcome : ServerWelcome} {baseline : JoinBaseline F}
    (hfloor : welcome.targetTickFloor.toNat < 2 ^ 63) (hwelcome : welcome.encode.length < 2 ^ 63)
    (hbaseline : baseline.encode.length < 2 ^ 63) {ops : List (ClientOp F)}
    (hfits : ∀ op ∈ ops, op.Fits) (hcount : ops.countP ClientOp.isSend < 2 ^ 64) :
    ∃ s c t outs, Godot.process (Godot.frameFuel (greetingFrame welcome baseline))
        ⟨Godot.NetworkClient.new.connectToServer, Godot.MatchState.new⟩
        (greetingFrame welcome baseline) = some s ∧
      (clientMachine F).run (TestClient.connect welcome) ops = .ok (c, outs) ∧
      (Godot.sceneMachine F).run s ops = .ok (t, outs.map (List.map fun bytes =>
        ⟨Godot.Channels.channelRealtime, bytes, 0⟩)) ∧
      t.networkClient.getTickFloor = c.tickFloor.get.toInt64 := by
  obtain ⟨s, hs, htwin⟩ := exists_twin hfloor hwelcome hbaseline
  have hzero : (TestClient.connect (F := F) welcome).inputSeq.last.toNat = 0 := rfl
  obtain ⟨c, t, outs, hc, ht, h⟩ := htwin.run hfits (by omega)
  refine ⟨s, c, t, outs, hs, hc, ht, ?_⟩
  rw [Godot.NetworkClient.getTickFloor, h.floor]
  rfl

/-- Two snapshots in one drain, the older one last, and a command after them. -/
theorem twins_of_two : ∃ s c t outs,
    Godot.process (Godot.frameFuel (greetingFrame (F := F64.Binary64) ⟨1, 60, 0, 1⟩ ⟨0, [], 0⟩))
        ⟨Godot.NetworkClient.new.connectToServer, Godot.MatchState.new⟩
        (greetingFrame (F := F64.Binary64) ⟨1, 60, 0, 1⟩ ⟨0, [], 0⟩) = some s ∧
      (clientMachine F64.Binary64).run (TestClient.connect ⟨1, 60, 0, 1⟩)
        [.poll [⟨5, [], 0, 6⟩, ⟨3, [], 0, 4⟩], .send 2 (⟨0⟩, ⟨0⟩)] = .ok (c, outs) ∧
      (Godot.sceneMachine F64.Binary64).run s
        [.poll [⟨5, [], 0, 6⟩, ⟨3, [], 0, 4⟩], .send 2 (⟨0⟩, ⟨0⟩)] = .ok (t,
          outs.map (List.map fun bytes => ⟨Godot.Channels.channelRealtime, bytes, 0⟩)) ∧
      t.networkClient.getTickFloor = c.tickFloor.get.toInt64 := by
  refine twins (by decide) (by decide) (by decide) ?_ (by decide)
  have hwf : ∀ tick floor : Tick, (⟨tick, [], 0, floor⟩ : SnapshotProto F64.Binary64).WellFormed :=
    fun tick floor => ⟨⟨tick, [], 0⟩, rfl⟩
  simp only [List.forall_mem_cons, ClientOp.Fits]
  refine ⟨⟨⟨hwf 5 6, by decide, by decide, by decide⟩, ⟨hwf 3 4, by decide, by decide, by decide⟩,
    fun p hp => absurd hp List.not_mem_nil⟩, by decide, fun op hop => absurd hop List.not_mem_nil⟩

end Flowstate
