import Mathlib.Tactic.Ring
import Flowstate.Lockstep

/-!
# The speed limit

In exact arithmetic the simulation's clamp leaves no direction longer than one, so whatever a
client sends, whatever the buffer clamped before and whatever intent is used again, a
character's velocity is within the movement speed (`within_velocityOf`). A step moves each
character once, by its new velocity over the tick rate, and so a character is never further
from the origin than its age allows (`speed_limit`). The square root may be rounded up.
-/

set_option linter.unusedSectionVars false

open Rust

namespace Flowstate

section Plane

variable {K : Type} [Field K] [LinearOrder K] [IsStrictOrderedRing K]

/-! ## Vectors of bounded length -/

/-- The vector is not longer than `r`, which is not negative. -/
structure Within (r : K) (v : K × K) : Prop where
  nonneg : 0 ≤ r
  le : v.1 * v.1 + v.2 * v.2 ≤ r * r

namespace Within

variable {r r' : K} {v w : K × K}

theorem mono (h : Within r v) (hr : r ≤ r') : Within r' v :=
  ⟨h.nonneg.trans hr, h.le.trans (mul_self_le_mul_self h.nonneg hr)⟩

theorem zero (hr : 0 ≤ r) : Within r ((0, 0) : K × K) :=
  ⟨hr, by simpa using mul_self_nonneg r⟩

theorem smul (h : Within r v) {k : K} (hk : 0 ≤ k) : Within (r * k) (v.1 * k, v.2 * k) := by
  refine ⟨mul_nonneg h.nonneg hk, ?_⟩
  calc v.1 * k * (v.1 * k) + v.2 * k * (v.2 * k) = (v.1 * v.1 + v.2 * v.2) * (k * k) := by ring
    _ ≤ r * r * (k * k) := mul_le_mul_of_nonneg_right h.le (mul_self_nonneg k)
    _ = r * k * (r * k) := by ring

/-- The inner product is at most the product of the lengths. -/
theorem inner_le (hv : Within r v) (hw : Within r' w) : v.1 * w.1 + v.2 * w.2 ≤ r * r' := by
  by_contra hlt
  have hrr := mul_nonneg hv.nonneg hw.nonneg
  have hsq : r * r' * (r * r') < (v.1 * w.1 + v.2 * w.2) * (v.1 * w.1 + v.2 * w.2) :=
    mul_self_lt_mul_self hrr (not_le.1 hlt)
  have hnonneg : 0 ≤ w.1 * w.1 + w.2 * w.2 :=
    add_nonneg (mul_self_nonneg _) (mul_self_nonneg _)
  have hcauchy : (v.1 * w.1 + v.2 * w.2) * (v.1 * w.1 + v.2 * w.2) ≤ r * r' * (r * r') := calc
    _ = (v.1 * v.1 + v.2 * v.2) * (w.1 * w.1 + w.2 * w.2) -
        (v.1 * w.2 - v.2 * w.1) * (v.1 * w.2 - v.2 * w.1) := by ring
    _ ≤ (v.1 * v.1 + v.2 * v.2) * (w.1 * w.1 + w.2 * w.2) :=
      sub_le_self _ (mul_self_nonneg _)
    _ ≤ r * r * (r' * r') := mul_le_mul hv.le hw.le hnonneg (mul_self_nonneg r)
    _ = r * r' * (r * r') := by ring
  exact absurd hsq hcauchy.not_gt

/-- The triangle inequality. -/
theorem add (hv : Within r v) (hw : Within r' w) : Within (r + r') (v.1 + w.1, v.2 + w.2) := by
  refine ⟨add_nonneg hv.nonneg hw.nonneg, ?_⟩
  have hinner := hv.inner_le hw
  calc (v.1 + w.1) * (v.1 + w.1) + (v.2 + w.2) * (v.2 + w.2) =
        v.1 * v.1 + v.2 * v.2 + (w.1 * w.1 + w.2 * w.2) + 2 * (v.1 * w.1 + v.2 * w.2) := by ring
    _ ≤ r * r + r' * r' + 2 * (r * r') :=
      add_le_add (add_le_add hv.le hw.le) (mul_le_mul_of_nonneg_left hinner zero_le_two)
    _ = (r + r') * (r + r') := by ring

end Within

/-! ## The clamp -/

variable {sqrt : K → K} {toBits : K → UInt64}

/-- A square root, possibly rounded up. -/
def IsSqrt (sqrt : K → K) : Prop := ∀ q, 0 < q → q ≤ sqrt q * sqrt q

theorem within_clampMagnitude (hsqrt : IsSqrt sqrt) {r : K} (hr : 0 ≤ r) (v : K × K) :
    Within r (@clampMagnitude K (F64.ofField K sqrt toBits) v r) := by
  let := F64.ofField K sqrt toBits
  refine ⟨hr, ?_⟩
  by_cases hle : v.1 * v.1 + v.2 * v.2 ≤ r * r
  · have hclamp : clampMagnitude v r = v := if_pos (decide_eq_true hle)
    rw [hclamp]
    exact hle
  · set q := v.1 * v.1 + v.2 * v.2 with hq
    have hclamp : clampMagnitude v r = (v.1 * (r / sqrt q), v.2 * (r / sqrt q)) :=
      if_neg fun h => hle (of_decide_eq_true h)
    have hpos : 0 < q := (mul_self_nonneg r).trans_lt (not_le.1 hle)
    have hroot : 0 < sqrt q * sqrt q := hpos.trans_le (hsqrt q hpos)
    rw [hclamp]
    calc v.1 * (r / sqrt q) * (v.1 * (r / sqrt q)) + v.2 * (r / sqrt q) * (v.2 * (r / sqrt q)) =
          r * r * (q / (sqrt q * sqrt q)) := by rw [hq]; ring
      _ ≤ r * r * 1 :=
        mul_le_mul_of_nonneg_left ((div_le_one hroot).2 (hsqrt q hpos)) (mul_self_nonneg r)
      _ = r * r := mul_one _

/-- No direction gives a velocity beyond the movement speed. -/
theorem within_velocityOf (hsqrt : IsSqrt sqrt) (d : K × K) :
    Within 5 (@Character.velocityOf K (F64.ofField K sqrt toBits) d) := by
  let := F64.ofField K sqrt toBits
  have hone : (F64.lit 1 : K) = 1 := Nat.cast_one
  have hspeed : (moveSpeed : K) = 5 := Nat.cast_ofNat
  have hclamped : Within 1 (@clampMagnitude K (F64.ofField K sqrt toBits) d 1) :=
    within_clampMagnitude hsqrt zero_le_one d
  have h := hclamped.smul (k := 5) (by norm_num)
  unfold Character.velocityOf
  rw [hone, hspeed]
  simpa using h

end Plane

/-! ## Motion in a match -/

namespace Match

variable {F : Type} [F64 F]

/-- A lane's motion in one operation : a tick moves the joined lanes by what they choose, and
nothing else moves any. -/
theorem motion_of_exec {m m' : Match F} {op : Op F} {o : Out F} (h : m.exec op = .ok (m', o)) :
    m'.rules = m.rules ∧
      ((m'.tick = m.tick ∧ ∀ sid, (m'.lane sid).velocity = (m.lane sid).velocity ∧
          (m'.lane sid).position = (m.lane sid).position) ∨
        (m'.tick.toNat = m.tick.toNat + 1 ∧ m'.order = m.order ∧
          ∀ sid, if sid ∈ m.order then
            (∃ d, (m'.lane sid).velocity = Character.velocityOf d) ∧
              (m'.lane sid).position =
                ((m.lane sid).position.1 + (m'.lane sid).velocity.1 * m.rules.dtSeconds,
                  (m.lane sid).position.2 + (m'.lane sid).velocity.2 * m.rules.dtSeconds)
            else m'.lane sid = m.lane sid)) := by
  have hset : ∀ (sid : SessionId) (l : Lane F), l.velocity = (m.lane sid).velocity →
      l.position = (m.lane sid).position → ∀ sid',
        ((m.setLane sid l).lane sid').velocity = (m.lane sid').velocity ∧
          ((m.setLane sid l).lane sid').position = (m.lane sid').position := by
    intro sid l hvelocity hposition sid'
    rw [lane_setLane]
    split_ifs with heq
    · exact heq ▸ ⟨hvelocity, hposition⟩
    · exact ⟨rfl, rfl⟩
  cases steps_of_exec h with
  | join | welcome | buffer | leave => exact ⟨rfl, .inl ⟨rfl, hset _ _ rfl rfl⟩⟩
  | unknown | drop | absent => exact ⟨rfl, .inl ⟨rfl, fun _ => ⟨rfl, rfl⟩⟩⟩
  | tick hnext =>
    refine ⟨rfl, .inr ⟨hnext, rfl, fun sid => ?_⟩⟩
    rw [lane_advance]
    split_ifs
    · exact ⟨⟨_, rfl⟩, rfl⟩
    · rfl

end Match

/-! ## The limit -/

section Exact

variable {K : Type} [Field K] [LinearOrder K] [IsStrictOrderedRing K]

/-- A character before and after a step, at `rate` steps a second and 5 units a second at
most. -/
structure Moves (rate : K) (c c' : Character K) : Prop where
  entityId : c'.entityId = c.entityId
  velocity : Within 5 c'.velocity
  position : c'.position =
    (c.position.1 + c'.velocity.1 / rate, c.position.2 + c'.velocity.2 / rate)
  displacement : Within (5 / rate) (c'.position.1 - c.position.1, c'.position.2 - c.position.2)

/-- What the characters of `s` do and have done, after `ops` of a server that is run by `run`. -/
structure SpeedLimited (rate : K)
    (run : List (Op K) → Except Panic (Server K × List (Out K))) (ops : List (Op K))
    (s : Server K) : Prop where
  velocity : ∀ c ∈ s.world.characters, Within 5 c.velocity
  moves : ∀ before after u os u' os', ops = before ++ .step :: after → run before = .ok (u, os) →
    run (before ++ [.step]) = .ok (u', os') →
      List.Forall₂ (Moves rate) u.world.characters u'.world.characters
  /-- Since it joined at the tick of `u`, the entity `e` has gone no further than its age. -/
  distance : ∀ before after u os u' sid p e, ops = before ++ .acceptSession :: after →
    run before = .ok (u, os) →
      run (before ++ [.acceptSession]) = .ok (u', os ++ [.accepted sid p e]) →
      ∀ c ∈ s.world.characters, c.entityId = e →
        Within (((s.world.tick.toNat : K) - u.world.tick.toNat) * 5 / rate) c.position

variable {sqrt : K → K} {toBits : K → UInt64}

/-- Every lane is within the speed limit. -/
def Slow (m : Match K) : Prop := ∀ sid, Within 5 (m.lane sid).velocity

theorem Slow.exec (hsqrt : IsSqrt sqrt) {m m' : Match K} (h : Slow m) {op : Op K} {o : Out K}
    (hexec : @Match.exec K (F64.ofField K sqrt toBits) m op = .ok (m', o)) : Slow m' := by
  let := F64.ofField K sqrt toBits
  intro sid
  obtain ⟨-, ⟨-, hsame⟩ | ⟨-, -, hmoved⟩⟩ := Match.motion_of_exec hexec
  · rw [(hsame sid).1]
    exact h sid
  · have hsid := hmoved sid
    split_ifs at hsid
    · obtain ⟨⟨d, hvelocity⟩, -⟩ := hsid
      rw [hvelocity]
      exact within_velocityOf hsqrt d
    · rw [hsid]
      exact h sid

/-- The lane is joined, and not further from the origin than it can have come since tick `j`. -/
def Near (config : ServerConfig) (sid : SessionId) (j : ℕ) (m : Match K) : Prop :=
  sid ∈ m.order ∧ m.rules.dtSeconds = 1 / config.tickRateHz.toNat ∧ j ≤ m.tick.toNat ∧
    Within (((m.tick.toNat : K) - j) * 5 / config.tickRateHz.toNat) (m.lane sid).position

theorem cast_tickRateHz_pos {config : ServerConfig} (hrate : config.tickRateHz ≠ 0) :
    (0 : K) < config.tickRateHz.toNat :=
  Nat.cast_pos.2 (Nat.pos_of_ne_zero fun h => hrate (UInt32.toNat_inj.1 h))

/-- A step by a velocity within the limit. -/
theorem within_step {rate : K} (hrate : 0 < rate) {v : K × K} (hv : Within 5 v) :
    Within (5 / rate) (v.1 * (1 / rate), v.2 * (1 / rate)) := by
  have h := hv.smul (one_div_nonneg.2 hrate.le)
  rwa [mul_one_div] at h

theorem Near.exec (hsqrt : IsSqrt sqrt) {config : ServerConfig} (hrate : config.tickRateHz ≠ 0)
    {sid : SessionId} {j : ℕ} {m m' : Match K} (h : Near config sid j m) {op : Op K} {o : Out K}
    (hexec : @Match.exec K (F64.ofField K sqrt toBits) m op = .ok (m', o)) :
    Near config sid j m' := by
  let := F64.ofField K sqrt toBits
  obtain ⟨hmem, hdt, hj, hnear⟩ := h
  have hmem' := Match.order_subset_of_exec hexec hmem
  obtain ⟨hrules, ⟨htick, hsame⟩ | ⟨htick, -, hmoved⟩⟩ := Match.motion_of_exec hexec
  · refine ⟨hmem', hrules ▸ hdt, htick ▸ hj, ?_⟩
    rw [htick, (hsame sid).2]
    exact hnear
  · have hsid := hmoved sid
    rw [if_pos hmem] at hsid
    obtain ⟨⟨d, hvelocity⟩, hposition⟩ := hsid
    refine ⟨hmem', hrules ▸ hdt, by omega, ?_⟩
    have hv : Within 5 (m'.lane sid).velocity := hvelocity ▸ within_velocityOf hsqrt d
    have hsum := hnear.add (within_step (cast_tickRateHz_pos hrate) hv)
    rw [hposition, hdt, htick]
    have hage : ((m.tick.toNat + 1 : ℕ) - (j : K)) * 5 / config.tickRateHz.toNat =
        ((m.tick.toNat : K) - j) * 5 / config.tickRateHz.toNat + 5 / config.tickRateHz.toNat := by
      rw [Nat.cast_succ]
      ring
    rw [hage]
    exact hsum

/-- A step of related states moves each character once. -/
theorem moves_of_step (hsqrt : IsSqrt sqrt) {rate : K} (hrate : 0 < rate) {u u' : Server K}
    {m m' : Match K} {o : Out K} (hu : @Refines K (F64.ofField K sqrt toBits) u m)
    (hu' : @Refines K (F64.ofField K sqrt toBits) u' m') (hconfig : u'.config = u.config)
    (hdt : m.rules.dtSeconds = 1 / rate)
    (hexec : @Match.exec K (F64.ofField K sqrt toBits) m .step = .ok (m', o)) :
    List.Forall₂ (Moves rate) u.world.characters u'.world.characters := by
  let := F64.ofField K sqrt toBits
  obtain ⟨-, ⟨htick, -⟩ | ⟨-, horder, hmoved⟩⟩ := Match.motion_of_exec hexec
  · cases Match.steps_of_exec hexec with
    | tick hnext =>
      have hsame : _ = m.tick.toNat := congrArg UInt64.toNat htick
      exact absurd (hnext.symm.trans hsame) (Nat.succ_ne_self _)
  · rw [hu.characters, hu'.characters, horder, hconfig, List.forall₂_map_left_iff,
      List.forall₂_map_right_iff, List.forall₂_same]
    intro sid hmem
    have hsid := hmoved sid
    rw [if_pos hmem, hdt] at hsid
    obtain ⟨⟨d, hvelocity⟩, hposition⟩ := hsid
    have hv : Within 5 (m'.lane sid).velocity := hvelocity ▸ within_velocityOf hsqrt d
    have hstep := within_step hrate hv
    refine ⟨rfl, hv, ?_, ?_⟩
    · change (m'.lane sid).position = _
      rw [hposition, mul_one_div, mul_one_div]
      rfl
    · change Within _ ((m'.lane sid).position.1 - (m.lane sid).position.1,
        (m'.lane sid).position.2 - (m.lane sid).position.2)
      rw [hposition]
      simpa using hstep

section run

variable {config : ServerConfig} {ops : List (Op K)} {s : Server K} {outs : List (Out K)}

theorem dtSeconds_of_refines {m : Match K} (h : @Refines K (F64.ofField K sqrt toBits) s m)
    (hconfig : s.config = config) : m.rules.dtSeconds = 1 / (config.tickRateHz.toNat : K) := by
  let := F64.ofField K sqrt toBits
  rw [h.rules, hconfig]
  change ((1 : ℕ) : K) / _ = _
  rw [Nat.cast_one]
  rfl

theorem within_of_run (hsqrt : IsSqrt sqrt) (hids : config.Distinct)
    (hrun : @runServer K (F64.ofField K sqrt toBits) config ops = .ok (s, outs)) :
    ∀ c ∈ s.world.characters, Within 5 c.velocity := by
  let := F64.ofField K sqrt toBits
  intro c hc
  obtain ⟨m, mouts, hm, -, h, -⟩ := runServer_refines hrun (nodup_of_runServer hids hrun)
  have hnew : Slow (Match.new config.rules : Match K) := by
    intro sid
    have hzero : (F64.lit 0 : K) = 0 := Nat.cast_zero
    change Within 5 ((F64.lit 0, F64.lit 0) : K × K)
    rw [hzero]
    exact Within.zero (by norm_num)
  have hslow : Slow m := Machine.run_invariant (M := matchMachine K) (P := Slow)
    (fun _ _ _ _ hslow hexec => hslow.exec hsqrt hexec) hnew hm
  rw [h.characters] at hc
  obtain ⟨sid, -, rfl⟩ := List.mem_map.1 hc
  exact hslow sid

theorem moves_of_run (hsqrt : IsSqrt sqrt) (hids : config.Distinct) {s' : Server K}
    {outs' : List (Out K)}
    (hrun : @runServer K (F64.ofField K sqrt toBits) config ops = .ok (s, outs))
    (hnext : @runServer K (F64.ofField K sqrt toBits) config (ops ++ [.step]) =
      .ok (s', outs')) :
    List.Forall₂ (Moves (config.tickRateHz.toNat : K)) s.world.characters
      s'.world.characters := by
  let := F64.ofField K sqrt toBits
  have hrate : config.tickRateHz ≠ 0 := (config_of_runServer hrun).1 ▸ tickRateHz_ne_zero hrun
  obtain ⟨m, mouts, -, -, h, hconfig⟩ := runServer_refines hrun (nodup_of_runServer hids hrun)
  obtain ⟨v, o, os₁, hexec, hrest, -⟩ := runServer_split hnext hrun
  obtain ⟨rfl, -⟩ := Prod.mk.inj (Except.ok.inj hrest)
  have hstep : (serverMachine K).exec s .step = .ok (v, o) := hexec
  obtain ⟨m', mouts', hm', -, h'⟩ :=
    run_refines h (Machine.run_singleton hstep) (nodup_of_runServer hids hnext)
  obtain ⟨n, o', _, hmove, hnil, -⟩ := Machine.run_cons_eq_ok.1 hm'
  obtain ⟨rfl, -⟩ := Prod.mk.inj (Except.ok.inj hnil)
  have hmove : m.exec .step = .ok (n, o') := hmove
  exact moves_of_step hsqrt (cast_tickRateHz_pos hrate) h h' (Server.exec_frame hexec).1
    (dtSeconds_of_refines h hconfig) hmove

/-- An accept puts the lane of its session at the origin. -/
theorem near_of_accept {m : Match K} (h : @Refines K (F64.ofField K sqrt toBits) s m)
    (hconfig : s.config = config) {sid : SessionId}
    (hsid : sid = Match.sessionAt m.joined) :
    Near config sid s.world.tick.toNat
      { m.setLane sid (m.lane sid).join with joined := m.joined + 1 } := by
  let := F64.ofField K sqrt toBits
  have hfresh : m.lane sid = Lane.fresh :=
    h.fresh sid (hsid ▸ Match.sessionAt_notMem_order h.joined_lt_half)
  have hdt := dtSeconds_of_refines h hconfig
  refine ⟨?_, hdt, h.tick ▸ le_rfl, ?_⟩
  · rw [Match.order_succ, hsid]
    exact List.mem_append_right _ List.mem_cons_self
  · have hposition :
        ((m.setLane sid (m.lane sid).join).lane sid).position = ((0, 0) : K × K) := by
      rw [Match.lane_setLane, if_pos rfl, hfresh]
      exact Prod.ext Nat.cast_zero Nat.cast_zero
    change Within (((m.tick.toNat : K) - s.world.tick.toNat) * 5 / _)
      ((m.setLane sid (m.lane sid).join).lane sid).position
    rw [hposition, h.tick, sub_self, zero_mul, zero_div]
    exact Within.zero le_rfl

end run

/-- In exact arithmetic, whatever the commands, no entity exceeds the movement speed, each step
moves it by its velocity, and its distance from the origin is bounded by its age. -/
theorem speed_limit (hsqrt : IsSqrt sqrt) {config : ServerConfig} (hids : config.Distinct)
    {ops : List (Op K)} {s : Server K} {outs : List (Out K)}
    (hrun : @runServer K (F64.ofField K sqrt toBits) config ops = .ok (s, outs)) :
    SpeedLimited (config.tickRateHz.toNat : K)
      (@runServer K (F64.ofField K sqrt toBits) config) ops s := by
  let := F64.ofField K sqrt toBits
  refine ⟨within_of_run hsqrt hids hrun, ?_, ?_⟩
  · rintro before after u os u' os' rfl hbefore hafter
    exact moves_of_run hsqrt hids hbefore hafter
  · rintro before after u os u' sid p e rfl hbefore hjoined c hc rfl
    have hrate : config.tickRateHz ≠ 0 := (config_of_runServer hrun).1 ▸ tickRateHz_ne_zero hrun
    obtain ⟨m, mouts, -, -, h, hconfig⟩ :=
      runServer_refines hbefore (nodup_of_runServer hids hbefore)
    -- The accept, and the match it leads to.
    obtain ⟨v, o, os₁, hexec, hrest, hout⟩ := runServer_split hjoined hbefore
    obtain ⟨rfl, rfl⟩ := Prod.mk.inj (Except.ok.inj hrest)
    obtain ⟨w, o', os', hexec', hafter, -⟩ := runServer_split hrun hbefore
    obtain ⟨rfl, rfl⟩ := Prod.mk.inj (Except.ok.inj (hexec.symm.trans hexec'))
    obtain rfl := List.singleton_inj.1 (List.append_cancel_left hout)
    obtain ⟨sid', p', e', hs, heq⟩ := Server.exec_acceptSession.1 hexec
    obtain ⟨rfl, rfl, rfl⟩ := Out.accepted.inj heq
    have hnew : p ∉ u.entitySpawnOrder := by
      have hnodup' := nodup_of_runServer hids hjoined
      rw [(Server.exec_frame hexec).2.1] at hnodup'
      exact List.disjoint_singleton.1 (List.disjoint_of_nodup_append hnodup')
    obtain ⟨hsid, hentity, -, h'⟩ := h.accept hs hnew
    -- The lane from there on.
    obtain ⟨m', mouts', hm', -, ht⟩ := run_refines h' hafter (nodup_of_runServer hids hrun)
    have hnear := Machine.run_invariant (M := matchMachine K)
      (P := Near config sid u.world.tick.toNat)
      (fun _ _ _ _ hnear hexec => hnear.exec hsqrt hrate hexec) (near_of_accept h hconfig hsid) hm'
    rw [ht.characters] at hc
    obtain ⟨sid', -, rfl⟩ := List.mem_map.1 hc
    obtain rfl : sid' = sid := hentity
    rw [ht.tick]
    exact hnear.2.2.2

end Exact

/-- Directions of any length, for several ticks, and a player who leaves. -/
theorem speed_limit_of_flood : ∃ s outs,
    runServer (F := ℚ) {} [.acceptSession, .receiveInput 1 ⟨0, 1, [300, 400]⟩, .step,
      .acceptSession, .receiveInput 1 ⟨2, 1, [-7, 24]⟩, .receiveInput 1 ⟨2, 2, [0, 9]⟩, .step,
      .disconnectSession 2, .step] = .ok (s, outs) ∧
    SpeedLimited (({} : ServerConfig).tickRateHz.toNat : ℚ) (runServer {})
      [.acceptSession, .receiveInput 1 ⟨0, 1, [300, 400]⟩, .step,
        .acceptSession, .receiveInput 1 ⟨2, 1, [-7, 24]⟩, .receiveInput 1 ⟨2, 2, [0, 9]⟩, .step,
        .disconnectSession 2, .step] s := by
  have h : (runServer (F := ℚ) {} [.acceptSession, .receiveInput 1 ⟨0, 1, [300, 400]⟩, .step,
      .acceptSession, .receiveInput 1 ⟨2, 1, [-7, 24]⟩, .receiveInput 1 ⟨2, 2, [0, 9]⟩, .step,
      .disconnectSession 2, .step]).map (fun x => x.1.entitySpawnOrder) = .ok [0, 1] := by
    decide +kernel
  obtain ⟨⟨s, outs⟩, hs, -⟩ := map_eq_ok.1 h
  exact ⟨s, outs, hs, speed_limit F64.le_ratSqrt_sq (fun ids hids => by cases hids) hs⟩

end Flowstate
