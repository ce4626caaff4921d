import Flowstate.Certificate
import Flowstate.Stream

/-!
# Cutting a recording

An accepted recording can be cut at any tick it covers : what was recorded from that tick on
is dropped, and the cut recording is accepted with exactly one final digest, that of the world
the verifier passes there (`verifyReplay_cutAt_iff`). For the recording of a server it is the
digest of the snapshot broadcast at that tick (`verifyReplay_cutAt_snapshot_iff`) : every
snapshot of a match that verifies is the end of a shorter match that verifies.
-/

set_option linter.unusedSectionVars false

open Rust

namespace Flowstate

variable {F : Type} [F64 F]

/-- The artifact up to a tick, claiming a digest. -/
def ReplayArtifact.cutAt (a : ReplayArtifact F) (tick : Tick) (digest : UInt64) :
    ReplayArtifact F :=
  { a with
    inputs := a.inputs.filter fun input => input.tick < tick
    checkpointTick := tick
    finalDigest := digest }

variable {a : ReplayArtifact F} {options : VerifyOptions} {tick : Tick} {digest : UInt64}

/-! ## The stream -/

theorem validateInputStream_cutAt (h : validateInputStream a = .ok ())
    (hle : tick.toNat ≤ a.checkpointTick.toNat) :
    validateInputStream (a.cutAt tick digest) = .ok () := by
  obtain ⟨baseline, hbaseline, hcounts, hinputs⟩ := validateInputStream_eq_ok.1 h
  refine validateInputStream_eq_ok.2 ⟨baseline, hbaseline, fun row hrow t ht => ?_,
    fun input hinput => ?_⟩
  · obtain ⟨hfrom, hto⟩ := mem_rangeU64.1 ht
    rw [← hcounts row hrow t (mem_rangeU64.2 ⟨hfrom, hto.trans_le hle⟩)]
    -- All inputs at the tick are before the cut.
    simp only [ReplayArtifact.inputCount, ReplayArtifact.cutAt, List.countP_filter]
    refine List.countP_congr fun input _ => ?_
    have hlt : t < tick := UInt64.lt_iff_toNat_lt.2 hto
    simp only [Bool.and_eq_true, decide_eq_true_eq]
    exact ⟨And.left, fun hsame => ⟨hsame, hsame.2 ▸ hlt⟩⟩
  · obtain ⟨hinput, hlt⟩ := List.mem_filter.1 hinput
    obtain ⟨hrange, hmapped⟩ := hinputs input hinput
    have hlt : input.tick < tick := by simpa using hlt
    exact ⟨mem_rangeU64.2 ⟨(mem_rangeU64.1 hrange).1, UInt64.lt_iff_toNat_lt.1 hlt⟩, hmapped⟩

theorem convertInputs_filter (tick : Tick) : ∀ {protos : List (AppliedInputProto F)}
    {inputs : List (AppliedInput F)}, convertInputs protos = .ok inputs →
      convertInputs (protos.filter fun proto => proto.tick < tick) =
        .ok (inputs.filter fun input => input.tick < tick)
  | [], inputs, h => by
    obtain rfl := Except.ok.inj h
    rfl
  | proto :: protos, inputs, h => by
    obtain ⟨input, rest, htry, hrest, rfl⟩ :=
      List.forall₂_cons_left_iff.1 (convertInputs_eq_ok_iff.1 h)
    have hrest := convertInputs_filter tick (convertInputs_eq_ok_iff.2 hrest)
    rw [List.filter_cons, List.filter_cons, (tryFrom_eq_ok htry).1]
    split_ifs
    · rw [convertInputs, htry, hrest]
      rfl
    · exact hrest

/-- Before the cut, the steps of a tick are the same. -/
theorem stepInputsAt_filter (inputs : List (AppliedInput F)) {t : Tick} (ht : t < tick) :
    stepInputsAt (inputsByTick (inputs.filter fun input => input.tick < tick)) t =
      stepInputsAt (inputsByTick inputs) t := by
  rw [stepInputsAt_inputsByTick, stepInputsAt_inputsByTick, List.filter_filter]
  congr 2
  refine List.filter_congr fun input _ => ?_
  by_cases hsame : input.tick = t
  · simp [hsame, ht]
  · simp [hsame]

/-! ## The replay -/

theorem replayTicks_congr_of_mem {groups groups' : HashMap Tick (List (AppliedInput F))} :
    ∀ {ticks : List Tick}, (∀ t ∈ ticks, stepInputsAt groups t = stepInputsAt groups' t) →
      ∀ w : World F, replayTicks groups ticks w = replayTicks groups' ticks w
  | [], _, _ => rfl
  | t :: ticks, h, w => by
    rw [replayTicks, replayTicks, h t List.mem_cons_self]
    refine congrArg _ (funext fun x => ?_)
    exact replayTicks_congr_of_mem (fun t' ht' => h t' (List.mem_cons_of_mem t ht')) x.1

/-- An accepted recording starts at tick zero, or ends there. -/
theorem start_or_end_eq_zero (h : verifyReplay a options = .ok ()) {baseline : JoinBaseline F}
    (hbaseline : a.initialBaseline = some baseline) :
    baseline.tick = 0 ∨ a.checkpointTick = 0 := by
  obtain ⟨-, w, hw, htick, -⟩ := verifyReplay_eq_ok.1 h
  obtain ⟨-, -, -, hlen⟩ := verifyWorld_spec hw le_rfl
  rw [replayLength, hbaseline, htick] at hlen
  rw [← UInt64.toNat_inj, ← UInt64.toNat_inj, UInt64.toNat_zero]
  dsimp only at hlen
  omega

/-- The ticks up to the cut are the first ones. -/
theorem rangeU64_cut {start tick : Tick} {stop : Tick} (h : start = 0 ∨ stop = 0)
    (hle : tick.toNat ≤ stop.toNat) :
    (rangeU64 start stop).take tick.toNat = rangeU64 start tick := by
  rcases h with rfl | rfl
  · rw [rangeU64, rangeU64, ← List.map_take, UInt64.toNat_zero, Nat.sub_zero, Nat.sub_zero,
      List.take_range'_of_length_ge hle]
  · rw [UInt64.toNat_zero, Nat.le_zero] at hle
    rw [hle, rangeU64, rangeU64, hle, Nat.zero_sub]
    rfl

/-- The verifier finds the same world at the end of the cut recording as on its way through
the whole one. -/
theorem verifyWorld_cutAt (h : verifyReplay a options = .ok ())
    (hle : tick.toNat ≤ a.checkpointTick.toNat) {w : World F}
    (hw : verifyWorld a tick.toNat = .ok w) :
    verifyWorld (a.cutAt tick digest) (replayLength (a.cutAt tick digest)) = .ok w := by
  obtain ⟨baseline, start, inputs, hvalid, hbaseline, hstart, hdigest, hinputs, hreplay⟩ :=
    verifyWorld_eq_ok.1 hw
  refine verifyWorld_eq_ok.2 ⟨baseline, start, inputs.filter fun input => input.tick < tick,
    validateInputStream_cutAt hvalid hle, hbaseline, hstart, hdigest,
    convertInputs_filter tick hinputs, ?_⟩
  rw [rangeU64_cut (start_or_end_eq_zero h hbaseline) hle] at hreplay
  have htake : (rangeU64 baseline.tick tick).take (replayLength (a.cutAt tick digest)) =
      rangeU64 baseline.tick tick := by
    refine List.take_of_length_le ?_
    have hbaseline' : (a.cutAt tick digest).initialBaseline = some baseline := hbaseline
    rw [length_rangeU64, replayLength, hbaseline']
    rfl
  change replayTicks _ ((rangeU64 baseline.tick tick).take _) start = _
  rw [htake, ← hreplay]
  refine replayTicks_congr_of_mem (fun t ht => ?_) start
  exact stepInputsAt_filter inputs (UInt64.lt_iff_toNat_lt.2 (mem_rangeU64.1 ht).2)

/-- An accepted recording cut at one of its ticks is accepted with the digest of the world the
verifier passes there, and with no other. -/
theorem verifyReplay_cutAt_iff (h : verifyReplay a options = .ok ())
    (hle : tick.toNat ≤ a.checkpointTick.toNat) :
    verifyReplay (a.cutAt tick digest) options = .ok () ↔
      ∃ w, verifyWorld a tick.toNat = .ok w ∧ w.stateDigest = digest := by
  obtain ⟨hbuild, last, hlast, -, -⟩ := verifyReplay_eq_ok.1 h
  obtain ⟨baseline, -, -, -, hbaseline, -⟩ := verifyWorld_eq_ok.1 hlast
  have hlength : tick.toNat ≤ replayLength a := by
    have hor := start_or_end_eq_zero h hbaseline
    rw [← UInt64.toNat_inj, ← UInt64.toNat_inj, UInt64.toNat_zero] at hor
    rw [replayLength, hbaseline]
    dsimp only
    omega
  obtain ⟨w, hw⟩ := exists_verifyWorld hlast hlength
  obtain ⟨-, -, -, htick⟩ := verifyWorld_spec hw hlength
  have hcut : verifyWorld (a.cutAt tick digest) (replayLength (a.cutAt tick digest)) = .ok w :=
    verifyWorld_cutAt h hle hw
  constructor
  · intro haccepted
    obtain ⟨-, w', hw', -, hdigest⟩ := verifyReplay_eq_ok.1 haccepted
    obtain rfl : w = w' := Except.ok.inj (hcut.symm.trans hw')
    exact ⟨w, hw, hdigest⟩
  · rintro ⟨w', hw', hdigest⟩
    obtain rfl : w = w' := Except.ok.inj (hw.symm.trans hw')
    exact verifyReplay_eq_ok.2 ⟨hbuild, w, hcut, UInt64.toNat_inj.1 htick, hdigest⟩

/-! ## Snapshots as final digests -/

/-- A snapshot of a run shows a world that the run has visited. -/
theorem exists_visited_of_snapshot {config : ServerConfig} {calls : List (Op F)} {t : Server F}
    {outs : List (Out F)} (hrun : runServer config calls = .ok (t, outs))
    {x : Snapshot F × Tick × Protobuf.Bytes} (hx : x ∈ snapshots outs) :
    ∃ v, Visited config calls v ∧ v.world.tick = x.1.tick ∧ 0 < v.world.tick.toNat ∧
      v.world.stateDigest = x.1.digest := by
  obtain ⟨k, hk⟩ := List.getElem?_of_mem hx
  obtain ⟨s₀, hnew, hops⟩ := bind_eq_ok.1 hrun
  obtain ⟨before, after, u, v, os, rfl, -, hbefore, hstep⟩ := exists_step_of_snapshot hops hk
  obtain ⟨snapshot, floor, bytes⟩ := x
  obtain ⟨t', ht', -, hv, rfl, -⟩ := Server.step_eq_ok.1 hstep
  have hworld : v.world = u.steppedWorld t' := by rw [hv, Server.stepped_world]
  have hvisited : runServer config (before ++ [.step]) =
      .ok (v, os ++ [.stepped (Server.snapshotOf (u.steppedWorld t')) floor bytes]) := by
    refine bind_eq_ok.2 ⟨s₀, hnew, Machine.run_append_eq_ok.2 ⟨u, os, _, hbefore, ?_, rfl⟩⟩
    have hexec := Server.exec_step.2 ⟨_, floor, bytes, hstep, rfl⟩
    exact Machine.run_cons_eq_ok.2 ⟨v, _, [], hexec, Machine.run_nil v, rfl⟩
  refine ⟨v, ?_, hworld ▸ rfl, ?_, hworld ▸ rfl⟩
  · have hvisited := (visited_of_runServer hvisited).append after
    rwa [List.append_assoc] at hvisited
  · rw [hworld, Server.steppedWorld_tick]
    omega

/-- Cut at the tick of a snapshot, the accepted recording of a server is accepted with the
snapshot's digest, and with no other. -/
theorem verifyReplay_cutAt_snapshot_iff {config : ServerConfig} {calls : List (Op F)}
    {t : Server F} {outs : List (Out F)} (hrun : runServer config calls = .ok (t, outs))
    (hverify : verifyReplay (t.finalize .complete) options = .ok ())
    {x : Snapshot F × Tick × Protobuf.Bytes} (hx : x ∈ snapshots outs) :
    verifyReplay ((t.finalize .complete).cutAt x.1.tick digest) options = .ok () ↔
      digest = x.1.digest := by
  obtain ⟨v, hvisited, htick, hpos, hdigest⟩ := exists_visited_of_snapshot hrun hx
  have hnodup := nodup_of_verifyReplay hrun hverify
  have hjoins := joinsFirst_of_verifyReplay hrun hverify
  have hworld := hjoins.verifyWorld_of_visited hrun hnodup hvisited hpos
  have hle : x.1.tick.toNat ≤ (t.finalize .complete).checkpointTick.toNat :=
    htick ▸ hvisited.tick_le hrun
  rw [verifyReplay_cutAt_iff hverify hle, ← htick, hworld, ← hdigest]
  constructor
  · rintro ⟨w, hw, rfl⟩
    rw [← Except.ok.inj hw]
  · rintro rfl
    exact ⟨v.world, rfl, rfl⟩

/-- A match of two ticks, cut after the first one. -/
theorem verifyReplay_cutAt_snapshot_iff_of_two : ∃ t outs,
    runServer (F := ℚ) {} [.acceptSession, .receiveInput 1 ⟨1, 0, [3, 4]⟩, .step, .step] =
      .ok (t, outs) ∧
    ∃ x ∈ snapshots outs, x.1.tick = 1 ∧ ∀ digest,
      verifyReplay ((t.finalize .complete).cutAt 1 digest) ⟨true, none⟩ = .ok () ↔
        digest = x.1.digest := by
  have h : (runServer (F := ℚ) {} [.acceptSession, .receiveInput 1 ⟨1, 0, [3, 4]⟩, .step,
      .step]).map (fun x => (verifyReplay (x.1.finalize .complete) ⟨true, none⟩,
        (snapshots x.2).map fun x => x.1.tick)) = .ok (.ok (), [1, 2]) := by
    decide +kernel
  obtain ⟨⟨t, outs⟩, hrun, heq⟩ := map_eq_ok.1 h
  obtain ⟨hverify, hticks⟩ := Prod.mk.inj heq
  obtain ⟨x, hx, htick⟩ := List.mem_map.1 (hticks ▸ List.mem_cons_self : (1 : Tick) ∈ _)
  refine ⟨t, outs, hrun, x, hx, htick, fun digest => ?_⟩
  rw [← htick]
  exact verifyReplay_cutAt_snapshot_iff hrun hverify hx

end Flowstate
