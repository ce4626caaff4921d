import Mathlib.Algebra.Order.Floor.Div
import Flowstate.Bookkeeping
import Flowstate.Ledger
import Flowstate.Selection

/-!
# The newest command of an honest client

A client that numbers its commands upwards and aims them inside the window is never turned
away but by the rate limit. What a slot then holds is a function of the first commands that
came for its tick, as many as the limit lets through : the last of them, clamped, with its
number and their count (`newestEntry`). So the applied input is the newest of those, and of
all of them as long as the limit is not reached (`newest_wins`).
-/

set_option linter.unusedSectionVars false

open Rust

namespace Flowstate

variable {F : Type} [F64 F]

/-- The command an operation brings the server from a session it knows. -/
def receivedFrom (sid : SessionId) : Op F × Out F → Option (InputCmdProto F)
  | (.receiveInput sid' input, .verdict result) =>
    if sid' = sid ∧ result ≠ .droppedUnknownSession then some input else none
  | _ => none

/-- The commands received from a session for a tick, in order of arrival. -/
def receivedFor (h : List (Op F × Out F)) (sid : SessionId) (t : Tick) : List (InputCmdProto F) :=
  (h.filterMap (receivedFrom sid)).filter fun c => c.tick = t

/-- A valid command inside the accepted tick window of a session. -/
structure Server.Admits (s : Server F) (sid : SessionId) (input : InputCmdProto F) : Prop where
  valid : finiteMoveDir input.moveDir = true
  floor : ((s.lastEmittedFloor.lookup sid).getD 0).toNat ≤ input.tick.toNat
  current : s.world.tick.toNat ≤ input.tick.toNat
  future : input.tick.toNat ≤ s.world.tick.toNat + s.config.maxFutureTicks.toNat

/-- The client of a session sends valid commands, numbered upwards, that arrive in order and
inside the window. -/
structure Honest (config : ServerConfig) (ops : List (Op F)) (outs : List (Out F))
    (sid : SessionId) : Prop where
  admits : ∀ before input after u os, ops = before ++ .receiveInput sid input :: after →
    runServer config before = .ok (u, os) → sid ∈ u.sessions → u.Admits sid input
  increasing : ((ops.zip outs).filterMap (receivedFrom sid)).Pairwise fun c d =>
    c.inputSeq < d.inputSeq

/-- The input applied at a tick is the newest of the first `limit` commands received for it,
clamped, and the fallback without any. -/
structure NewestWins (commands : List (InputCmdProto F)) (limit : ℕ) (a : AppliedInput F) :
    Prop where
  newest : commands ≠ [] → ∃ c ∈ commands.take limit,
    (∀ d ∈ commands.take limit, d.inputSeq ≤ c.inputSeq) ∧
      a.moveDir = unitDirection c.moveDir ∧ a.isFallback = false
  fallback : commands = [] → a.isFallback = true

/-! ## One slot -/

/-- The slot of commands numbered upwards. -/
def newestEntry (commands : List (InputCmdProto F)) : Option (BufferEntry F) :=
  commands.getLast?.map fun c =>
    ⟨c.clamped, c.inputSeq, false, UInt32.ofNat commands.length⟩

theorem newestEntry_concat (commands : List (InputCmdProto F)) (c : InputCmdProto F) :
    newestEntry (commands ++ [c]) =
      some ⟨c.clamped, c.inputSeq, false, UInt32.ofNat (commands.length + 1)⟩ := by
  rw [newestEntry, List.getLast?_concat, List.length_append]
  rfl

/-- A command that leads replaces what the slot holds. -/
theorem arrive_newestEntry {commands : List (InputCmdProto F)} {c : InputCmdProto F}
    (h : ∀ d ∈ commands, d.inputSeq < c.inputSeq) :
    arrive (newestEntry commands) c = newestEntry (commands ++ [c]) := by
  rw [newestEntry_concat]
  rcases List.eq_nil_or_concat commands with rfl | ⟨commands, d, rfl⟩
  · simp only [newestEntry, List.getLast?_nil, Option.map_none, arrive, BufferEntry.first,
      BufferEntry.clampSelected_eq]
    rfl
  · rw [List.concat_eq_append] at h ⊢
    have hlead : d.inputSeq < c.inputSeq := h d (List.mem_append_right _ List.mem_cons_self)
    rw [newestEntry_concat, arrive, BufferEntry.next]
    simp only [hlead, if_true, BufferEntry.clampSelected_eq, List.length_append,
      List.length_singleton, UInt32.ofNat_add]
    rfl

/-- A slot receives the next command, until there are as many as the limit. -/
theorem receive_newestEntry {limit : UInt32} (hlimit : 0 < limit)
    {commands : List (InputCmdProto F)} {c : InputCmdProto F}
    (h : ∀ d ∈ commands, d.inputSeq < c.inputSeq) :
    (BufferEntry.receive limit (newestEntry (commands.take limit.toNat)) c).1 =
      newestEntry ((commands ++ [c]).take limit.toNat) := by
  have hpos : 0 < limit.toNat := UInt32.lt_iff_toNat_lt.1 hlimit
  by_cases hlen : commands.length < limit.toNat
  · have htake : (commands ++ [c]).take limit.toNat = commands ++ [c] := by
      refine List.take_of_length_le ?_
      rw [List.length_append, List.length_singleton]
      omega
    rw [htake, List.take_of_length_le hlen.le, ← arrive_newestEntry h]
    refine (receive_of_not_full ?_ c).1
    rintro ⟨entry, hentry, hfull⟩
    obtain ⟨d, -, rfl⟩ := Option.map_eq_some_iff.1 hentry
    have hcount : (UInt32.ofNat commands.length).toNat = commands.length :=
      UInt32.toNat_ofNat_of_lt' (hlen.trans limit.toNat_lt)
    rw [UInt32.le_iff_toNat_le, hcount] at hfull
    omega
  · -- The limit is reached : the slot and the commands that count stay.
    rw [List.take_append_of_le_length (Nat.le_of_not_lt hlen)]
    refine congrArg Prod.fst (receive_of_full ?_ c)
    have hlength : (commands.take limit.toNat).length = limit.toNat := by
      rw [List.length_take]
      omega
    obtain ⟨d, hd⟩ := List.getLast?_isSome.2 (List.ne_nil_of_length_pos (hlength ▸ hpos)) |>
      Option.isSome_iff_exists.1
    refine ⟨_, by rw [newestEntry, hd]; rfl, ?_⟩
    rw [UInt32.le_iff_toNat_le, hlength, UInt32.ofNat_toNat]

/-- What a slot of honest commands yields is the newest that counts. -/
theorem newestWins_chooseInput {commands : List (InputCmdProto F)} {limit : UInt32}
    (hlimit : 0 < limit) (h : commands.Pairwise fun c d => c.inputSeq < d.inputSeq)
    (t : Tick) (p : PlayerId) (intent : F × F) :
    NewestWins commands limit.toNat
      ⟨t, p, (chooseInput (newestEntry (commands.take limit.toNat)) intent).1,
        (chooseInput (newestEntry (commands.take limit.toNat)) intent).2⟩ := by
  have hpos : 0 < limit.toNat := UInt32.lt_iff_toNat_lt.1 hlimit
  refine ⟨fun hne => ?_, fun hnil => ?_⟩
  · rcases List.eq_nil_or_concat (commands.take limit.toNat) with hnil | ⟨first, c, htake⟩
    · rw [List.take_eq_nil_iff] at hnil
      exact absurd hnil (not_or.2 ⟨hpos.ne', hne⟩)
    · rw [List.concat_eq_append] at htake
      have hpair := h.sublist (List.take_sublist limit.toNat commands)
      rw [htake] at hpair ⊢
      refine ⟨c, List.mem_append_right _ List.mem_cons_self, fun d hd => ?_, ?_, ?_⟩
      · rcases List.mem_append.1 hd with hd | hd
        · exact UInt64.le_of_lt
            ((List.pairwise_append.1 hpair).2.2 d hd c List.mem_cons_self)
        · rw [List.mem_singleton.1 hd]
          exact UInt64.le_refl _
      · rw [newestEntry_concat]
        exact Server.commandMoveDir_clamped c
      · rw [newestEntry_concat]
        rfl
  · rw [hnil, List.take_nil]
    rfl

/-! ## One lane -/

theorem ne_droppedRateLimit_of_screen {maxFutureTicks : UInt64} {currentTick targetTickFloor : Tick}
    {input : InputCmdProto F} {result : ValidationResult}
    (h : screen maxFutureTicks currentTick targetTickFloor input = .ok (some result)) :
    result ≠ .droppedRateLimit := by
  rintro rfl
  unfold screen at h
  split_ifs at h
  · cases h
  · cases h
  · cases h
  · obtain ⟨maxTick, -, h⟩ := bind_eq_ok.1 h
    have h := Except.ok.inj h
    split_ifs at h
    cases h

theorem BufferResult.verdict_ne_unknown (r : BufferResult) :
    r.verdict ≠ .droppedUnknownSession := by
  rcases r with clamped | _ | _
  · cases clamped <;> decide
  · decide
  · decide

/-- No command of the session is turned away but by the rate limit. -/
def Heard (sid : SessionId) (h : List (Op F × Out F)) : Prop :=
  ∀ input result, (.receiveInput sid input, .verdict result) ∈ h →
    result.isAccepted = true ∨ result = .droppedRateLimit ∨ result = .droppedUnknownSession

/-- The slots of the session's lane, for the ticks to come, are those of the commands received
for them. -/
structure Buffered (limit : UInt32) (sid : SessionId) (h : List (Op F × Out F)) (m : Match F) :
    Prop where
  rule : m.rules.perTickLimit = limit
  slots : ∀ t, m.tick.toNat ≤ t.toNat →
    (m.lane sid).slots t = newestEntry ((receivedFor h sid t).take limit.toNat)

theorem receivedFor_concat (h : List (Op F × Out F)) (x : Op F × Out F) (sid : SessionId)
    (t : Tick) : receivedFor (h ++ [x]) sid t =
      receivedFor h sid t ++ ((receivedFrom sid x).toList.filter fun c => c.tick = t) := by
  rw [receivedFor, receivedFor, List.filterMap_append, List.filter_append]
  rcases hx : receivedFrom sid x with _ | c <;> simp [hx]

theorem receivedFor_of_none {h : List (Op F × Out F)} {x : Op F × Out F} {sid : SessionId}
    (hx : receivedFrom sid x = none) (t : Tick) :
    receivedFor (h ++ [x]) sid t = receivedFor h sid t := by
  rw [receivedFor_concat, hx]
  exact List.append_nil _

namespace Buffered

variable {limit : UInt32} {sid : SessionId} {h : List (Op F × Out F)} {m m' : Match F}

/-- An operation that brings no command of the session and leaves its slots keeps them. -/
theorem frame (hb : Buffered limit sid h m) {x : Op F × Out F} (hrules : m'.rules = m.rules)
    (htick : m'.tick = m.tick) (hslots : (m'.lane sid).slots = (m.lane sid).slots)
    (hx : receivedFrom sid x = none) : Buffered limit sid (h ++ [x]) m' := by
  refine ⟨hrules ▸ hb.rule, fun t ht => ?_⟩
  rw [hslots, receivedFor_of_none hx]
  exact hb.slots t (htick ▸ ht)

/-- A command of the session joins those of its tick. -/
theorem buffer (hb : Buffered limit sid h m) (hlimit : 0 < limit) {input : InputCmdProto F}
    {x : Op F × Out F} (hx : receivedFrom sid x = some input)
    (hincreasing : ((h ++ [x]).filterMap (receivedFrom sid)).Pairwise fun c d =>
      c.inputSeq < d.inputSeq) :
    Buffered limit sid (h ++ [x])
      (m.setLane sid ((m.lane sid).buffer m.rules.perTickLimit input)) := by
  refine ⟨hb.rule, fun t ht => ?_⟩
  have hslots := hb.slots t ht
  rw [Match.lane_setLane, if_pos rfl, Lane.buffer, receivedFor_concat, hx]
  dsimp only
  by_cases heq : t = input.tick
  · subst heq
    have hlead : ∀ d ∈ receivedFor h sid input.tick, d.inputSeq < input.inputSeq := by
      intro d hd
      rw [List.filterMap_append, List.pairwise_append] at hincreasing
      refine hincreasing.2.2 d (List.mem_of_mem_filter hd) input ?_
      simp [hx]
    rw [Function.update_self, hslots, hb.rule, receive_newestEntry hlimit hlead]
    simp
  · rw [Function.update_of_ne heq, hslots]
    simp [Ne.symm heq]

/-- Every operation keeps the slots, as long as the client is heard and counts upwards. -/
theorem exec (hb : Buffered limit sid h m) (hlimit : 0 < limit) {op : Op F} {o : Out F}
    (hexec : m.exec op = .ok (m', o)) (hheard : Heard sid (h ++ [(op, o)]))
    (hincreasing : ((h ++ [(op, o)]).filterMap (receivedFrom sid)).Pairwise fun c d =>
      c.inputSeq < d.inputSeq) : Buffered limit sid (h ++ [(op, o)]) m' := by
  have hset : ∀ sid' l, l.slots = (m.lane sid').slots →
      ((m.setLane sid' l).lane sid).slots = (m.lane sid).slots := by
    intro sid' l hl
    rw [Match.lane_setLane]
    split_ifs with heq
    · rw [hl, heq]
    · rfl
  cases Match.steps_of_exec hexec with
  | join => exact hb.frame rfl rfl (hset _ _ rfl) rfl
  | welcome => exact hb.frame rfl rfl (hset _ _ rfl) rfl
  | unknown => exact hb.frame rfl rfl rfl (by simp [receivedFrom])
  | @drop sid' input result hlive hscreen =>
    refine hb.frame rfl rfl rfl (if_neg ?_)
    rintro ⟨rfl, hknown⟩
    -- The screen's verdicts are not those of a client that is heard.
    have hrejected := not_isAccepted_of_screen hscreen
    rcases hheard input result (List.mem_append_right _ List.mem_cons_self) with h | rfl | h
    · rw [h] at hrejected
      cases hrejected
    · exact ne_droppedRateLimit_of_screen hscreen rfl
    · exact hknown h
  | @buffer sid' input hlive hscreen =>
    by_cases heq : sid' = sid
    · subst heq
      exact hb.buffer hlimit (if_pos ⟨rfl, BufferResult.verdict_ne_unknown _⟩) hincreasing
    · refine hb.frame rfl rfl ?_ (if_neg fun h => heq h.1)
      rw [Match.lane_setLane, if_neg (Ne.symm heq)]
  | leave => exact hb.frame rfl rfl (hset _ _ rfl) rfl
  | absent => exact hb.frame rfl rfl rfl rfl
  | @tick next floor hnext =>
    refine ⟨hb.rule, fun t ht => ?_⟩
    have ht : next.toNat ≤ t.toNat := ht
    rw [receivedFor_of_none rfl, Match.lane_advance]
    split_ifs
    · rw [Lane.advance]
      dsimp only
      rw [if_pos (UInt64.le_iff_toNat_le.2 ht)]
      exact hb.slots t (by omega)
    · exact hb.slots t (by omega)

theorem run (hlimit : 0 < limit) {ops : List (Op F)} {outs : List (Out F)}
    (hb : Buffered limit sid [] m) (hrun : (matchMachine F).run m ops = .ok (m', outs))
    (hheard : Heard sid (ops.zip outs))
    (hincreasing : ((ops.zip outs).filterMap (receivedFrom sid)).Pairwise fun c d =>
      c.inputSeq < d.inputSeq) : Buffered limit sid (ops.zip outs) m' := by
  refine Machine.run_history (M := matchMachine F) (P := fun h m => Heard sid h →
    (h.filterMap (receivedFrom sid)).Pairwise (fun c d => c.inputSeq < d.inputSeq) →
      Buffered limit sid h m) (fun h m op m' o hb hexec hheard hincreasing => ?_)
    (h := []) (fun _ _ => hb) hrun hheard hincreasing
  refine (hb (fun input result hmem => hheard input result (List.mem_append_left _ hmem)) ?_).exec
    hlimit hexec hheard hincreasing
  rw [List.filterMap_append] at hincreasing
  exact hincreasing.sublist (List.sublist_append_left _ _)

end Buffered

/-! ## The server -/

theorem Honest.of_append {config : ServerConfig} {before after : List (Op F)}
    {os os' : List (Out F)} {sid : SessionId}
    (h : Honest config (before ++ after) (os ++ os') sid) (hlen : os.length = before.length) :
    Honest config before os sid := by
  refine ⟨?_, ?_⟩
  · rintro first input rest u os₁ rfl hfirst hlive
    exact h.admits first input (rest ++ after) u os₁ (by simp) hfirst hlive
  · have hincreasing := h.increasing
    rw [List.zip_append hlen.symm, List.filterMap_append] at hincreasing
    exact hincreasing.sublist (List.sublist_append_left _ _)

/-- A command the session's window admits is buffered, or finds its slot full. -/
theorem Server.Admits.verdict {s s' : Server F} {sid : SessionId} {input : InputCmdProto F}
    {result : ValidationResult} (h : s.Admits sid input)
    (hconfig : s.inputBuffer.config.maxFutureTicks = s.config.maxFutureTicks)
    (hs : s.receiveInput sid input = .ok (s', result)) :
    result.isAccepted = true ∨ result = .droppedRateLimit ∨ result = .droppedUnknownSession := by
  have hfuture := h.future
  rw [← hconfig] at hfuture
  rw [receiveInput_eq] at hs
  rcases hp : s.sessionPlayers.lookup sid with _ | p <;> rw [hp] at hs
  · exact .inr (.inr (Prod.mk.inj (Except.ok.inj hs)).2.symm)
  · rcases screen_within h.floor h.current hfuture with hscreen | ⟨-, e, hscreen⟩
    · rw [h.valid, if_pos rfl] at hscreen
      rw [hscreen] at hs
      obtain ⟨-, rfl⟩ := Prod.mk.inj (Except.ok.inj hs)
      rw [InputBuffer.tryBuffer_result]
      by_cases hfull : Full s.inputBuffer.perTickLimit
        (s.inputBuffer.buffer.lookup (p, input.tick))
      · rw [receive_of_full hfull]
        exact .inr (.inl rfl)
      · exact .inl (receive_of_not_full hfull input).2
    · rw [hscreen] at hs
      cases hs

/-- An honest client is heard. -/
theorem Honest.heard {config : ServerConfig} (hids : config.Distinct) {ops : List (Op F)}
    {s : Server F} {outs : List (Out F)} {sid : SessionId} (h : Honest config ops outs sid)
    (hrun : runServer config ops = .ok (s, outs)) : Heard sid (ops.zip outs) := by
  intro input result hmem
  obtain ⟨s₀, hnew, hrun⟩ := bind_eq_ok.1 hrun
  obtain ⟨before, after, u, v, os, hops, hbefore, hexec⟩ := Machine.exec_of_mem_zip hrun hmem
  obtain ⟨result', hs, heq⟩ := Server.exec_receiveInput.1 hexec
  obtain rfl := Out.verdict.inj heq
  have hbefore : runServer config before = .ok (u, os) := bind_eq_ok.2 ⟨s₀, hnew, hbefore⟩
  by_cases hlive : sid ∈ u.sessions
  · obtain ⟨hconfig, hwindow⟩ := config_of_runServer hbefore
    exact (h.admits before input after u os hops hbefore hlive).verdict
      (hwindow.trans (congrArg _ hconfig.symm)) hs
  · -- A session that is not live has no player.
    obtain ⟨m, -, -, -, hrel, -⟩ := runServer_refines hbefore (nodup_of_runServer hids hbefore)
    have hplayer : u.sessionPlayers.lookup sid = none := by
      rw [hrel.sessionPlayers, if_neg fun h => hlive (AList.mem_keys.2 ((hrel.mem_sessions sid).2 h))]
    rw [Server.receiveInput_eq, hplayer] at hs
    exact .inr (.inr (Prod.mk.inj (Except.ok.inj hs)).2.symm)

theorem receivedFrom_named (config : ServerConfig) (ops : List (Op F)) (outs : List (Out F))
    (sid : SessionId) : (ops.zip (outs.map (Out.named config))).filterMap (receivedFrom sid) =
      (ops.zip outs).filterMap (receivedFrom sid) := by
  rw [List.zip_map_right, List.filterMap_map]
  refine List.filterMap_congr fun x _ => ?_
  obtain ⟨op, o⟩ := x
  cases op <;> cases o <;> rfl

/-- The limit is the rate by the tick rate, rounded up. -/
theorem ServerConfig.toNat_perTickLimit {config : ServerConfig} (hhz : config.tickRateHz ≠ 0) :
    config.perTickLimit.toNat =
      config.inputRateLimitPerSec.toNat ⌈/⌉ config.tickRateHz.toNat := by
  have hpos : 0 < config.tickRateHz.toNat :=
    Nat.pos_of_ne_zero fun h => hhz (UInt32.toNat_inj.1 h)
  have hmod : config.inputRateLimitPerSec % config.tickRateHz = 0 ↔
      config.inputRateLimitPerSec.toNat % config.tickRateHz.toNat = 0 := by
    rw [← UInt32.toNat_inj, UInt32.toNat_mod]
    rfl
  have hrate := config.inputRateLimitPerSec.toNat_lt
  have hdiv := Nat.div_add_mod config.inputRateLimitPerSec.toNat config.tickRateHz.toNat
  have hlt := Nat.mod_lt config.inputRateLimitPerSec.toNat hpos
  rw [Nat.ceilDiv_eq_add_pred_div, perTickLimit]
  set a := config.inputRateLimitPerSec.toNat
  set b := config.tickRateHz.toNat
  split_ifs with h <;> rw [hmod] at h
  · have hsum : a + b - 1 = b * (a / b) + (b - 1) := by omega
    rw [UInt32.toNat_div, hsum, Nat.mul_add_div hpos, Nat.div_eq_of_lt (Nat.sub_lt hpos one_pos),
      Nat.add_zero]
  · -- With a remainder, the divisor is at least two and the quotient's successor fits.
    have hsum : a + b - 1 = b * (a / b + 1) + (a % b - 1) := by
      rw [Nat.mul_succ]
      omega
    have hquotient : a / b < 2 ^ 31 := Nat.div_lt_of_lt_mul (by omega)
    rw [UInt32.toNat_add, UInt32.toNat_div, hsum, Nat.mul_add_div hpos,
      Nat.div_eq_of_lt ((Nat.sub_le _ _).trans_lt hlt), Nat.add_zero]
    exact Nat.mod_eq_of_lt (by change a / b + 1 < _; omega)

theorem ServerConfig.perTickLimit_pos {config : ServerConfig}
    (hrate : 0 < config.inputRateLimitPerSec) (hhz : config.tickRateHz ≠ 0) :
    0 < config.perTickLimit := by
  rw [UInt32.lt_iff_toNat_lt] at hrate ⊢
  have hpos : 0 < config.tickRateHz.toNat :=
    Nat.pos_of_ne_zero fun h => hhz (UInt32.toNat_inj.1 h)
  rw [toNat_perTickLimit hhz]
  by_contra hzero
  have hle := (ceilDiv_le_iff_le_mul hpos).1 (Nat.not_lt.1 hzero)
  exact absurd hrate (Nat.not_lt.2 hle)

theorem perTickLimit_pos_of_runServer {config : ServerConfig}
    (hrate : 0 < config.inputRateLimitPerSec) {ops : List (Op F)} {s : Server F}
    {outs : List (Out F)} (hrun : runServer config ops = .ok (s, outs)) :
    0 < config.perTickLimit := by
  have hhz := tickRateHz_ne_zero hrun
  rw [(config_of_runServer hrun).1] at hhz
  exact ServerConfig.perTickLimit_pos hrate hhz

/-- An accepted player is of the roster. -/
theorem mem_spawnOrder_of_accepted {config : ServerConfig} {ops : List (Op F)} {s : Server F}
    {outs : List (Out F)} (hrun : runServer config ops = .ok (s, outs)) {sid : SessionId}
    {p : PlayerId} {e : EntityId} (h : .accepted sid p e ∈ outs) : p ∈ s.entitySpawnOrder := by
  obtain ⟨s₀, -, hrun⟩ := bind_eq_ok.1 hrun
  rw [spawnOrder_of_run hrun]
  exact List.mem_append_right _ (List.mem_flatMap.2 ⟨_, h, List.mem_singleton_self p⟩)

/-- The slots of an honest session's player, for the ticks to come. -/
theorem lookup_of_honest {config : ServerConfig} (hids : config.Distinct)
    (hrate : 0 < config.inputRateLimitPerSec) {ops : List (Op F)} {s : Server F}
    {outs : List (Out F)} (hrun : runServer config ops = .ok (s, outs)) {sid : SessionId}
    {p : PlayerId} {e : EntityId} (hjoined : .accepted sid p e ∈ outs)
    (h : Honest config ops outs sid) (t : Tick) (ht : s.world.tick.toNat ≤ t.toNat) :
    s.inputBuffer.buffer.lookup (p, t) =
      newestEntry ((receivedFor (ops.zip outs) sid t).take config.perTickLimit.toNat) := by
  have hlimit := perTickLimit_pos_of_runServer hrate hrun
  have hheard := h.heard hids hrun
  have hincreasing := h.increasing
  obtain ⟨m, mouts, hm, rfl, hrel, hconfig⟩ :=
    runServer_refines hrun (nodup_of_runServer hids hrun)
  obtain ⟨-, hmem, rfl⟩ := Match.of_accepted_named hm hjoined
  rw [receivedFrom_named] at hincreasing
  have hheard' : Heard sid (ops.zip mouts) := by
    intro input result hx
    refine hheard input result ?_
    rw [List.zip_map_right]
    exact List.mem_map.2 ⟨_, hx, rfl⟩
  have hnew : Buffered config.perTickLimit sid [] (Match.new (F := F) config.rules) :=
    ⟨rfl, fun t _ => by rw [receivedFor, List.filterMap_nil, List.filter_nil, List.take_nil]; rfl⟩
  have hslots := (hnew.run hlimit hm hheard' hincreasing).slots t (hrel.tick ▸ ht)
  rw [← hconfig, hrel.slots sid hmem, hslots, hconfig, receivedFor, receivedFor,
    receivedFrom_named]

/-- The input a step applies to a player of the roster. -/
theorem Server.filter_appliedInputs {s : Server F} (hnodup : s.entitySpawnOrder.Nodup)
    {p : PlayerId} (hp : p ∈ s.entitySpawnOrder) :
    s.appliedInputs.filter (fun a => a.playerId = p) =
      [⟨s.world.tick, p, (choiceFor s.world.tick s.inputBuffer s.lastKnownIntent p).1,
        (choiceFor s.world.tick s.inputBuffer s.lastKnownIntent p).2⟩] := by
  have happlied := (produceInputs_of_nodup s.world.tick hnodup s.inputBuffer
    s.lastKnownIntent).1
  have hfilter : s.entitySpawnOrder.filter (fun q => q = p) = [p] := by
    rw [List.filter_eq, List.count_eq_one_of_mem hnodup hp]
    rfl
  rw [appliedInputs, produced, happlied, List.filter_map]
  exact congrArg _ hfilter

/-- Every step applies to the player of an honest session the newest command that counts, and
that is what is recorded for it. -/
theorem newest_wins {config : ServerConfig} (hids : config.Distinct)
    (hrate : 0 < config.inputRateLimitPerSec) {ops : List (Op F)} {s : Server F}
    {outs : List (Out F)} (hrun : runServer config ops = .ok (s, outs)) {sid : SessionId}
    (honest : Honest config ops outs sid) :
    ∀ before after u os p e, ops = before ++ .step :: after →
      runServer config before = .ok (u, os) → .accepted sid p e ∈ os →
      ∃ a, s.replayRecorder.inputs.filter
          (fun a => a.playerId = p ∧ a.tick = u.world.tick) = [a] ∧
        NewestWins (receivedFor (before.zip os) sid u.world.tick) config.perTickLimit.toNat a := by
  rintro before after u os p e rfl hbefore hjoined
  obtain ⟨v, o, os', hexec, hafter, rfl⟩ := runServer_split hrun hbefore
  rcases Server.exec_log hexec with ⟨-, hnext, hlog⟩ | ⟨hop, -⟩
  · obtain ⟨-, more, hmore, hle⟩ := tick_of_run hafter
    have honest' := honest.of_append (length_of_runServer hbefore)
    have hnodup := nodup_of_runServer hids hbefore
    have hp := mem_spawnOrder_of_accepted hbefore hjoined
    have hincreasing : (receivedFor (before.zip os) sid u.world.tick).Pairwise fun c d =>
        c.inputSeq < d.inputSeq := honest'.increasing.sublist List.filter_sublist
    refine ⟨_, ?_, newestWins_chooseInput (perTickLimit_pos_of_runServer hrate hrun) hincreasing
      u.world.tick p ((u.lastKnownIntent.lookup p).getD (F64.lit 0, F64.lit 0))⟩
    · have htick : s.replayRecorder.inputs.filter (fun a => a.tick = u.world.tick) =
          u.appliedInputs := by
        rw [hmore, hlog, (recorded_of_run hbefore).filter_tick]
        intro a ha
        have := hle a ha
        omega
      have hfilter : s.replayRecorder.inputs.filter
          (fun a => a.playerId = p ∧ a.tick = u.world.tick) =
            u.appliedInputs.filter fun a => a.playerId = p := by
        rw [← htick, List.filter_filter]
        exact List.filter_congr fun a _ => by simp
      rw [hfilter, Server.filter_appliedInputs hnodup hp, Server.choiceFor,
        lookup_of_honest hids hrate hbefore hjoined honest' _ le_rfl]
  · exact absurd rfl hop

/-! ## Bursts -/

/-- A command that is buffered, or finds its slot full, was inside the window. -/
theorem Server.admits_of_verdict {s s' : Server F} {sid : SessionId} {input : InputCmdProto F}
    {result : ValidationResult}
    (hconfig : s.inputBuffer.config.maxFutureTicks = s.config.maxFutureTicks)
    (hs : s.receiveInput sid input = .ok (s', result))
    (h : result.isAccepted = true ∨ result = .droppedRateLimit) : s.Admits sid input := by
  rw [receiveInput_eq] at hs
  rcases hp : s.sessionPlayers.lookup sid with _ | p <;> rw [hp] at hs
  · obtain ⟨-, rfl⟩ := Prod.mk.inj (Except.ok.inj hs)
    rcases h with h | h <;> cases h
  · rcases hscreen : screen s.inputBuffer.config.maxFutureTicks s.world.tick
      ((s.lastEmittedFloor.lookup sid).getD 0) input with e | _ | verdict <;> rw [hscreen] at hs
    · cases hs
    · obtain ⟨hvalid, hfloor, hcurrent, hfuture, -⟩ := of_screen_eq_none hscreen
      exact ⟨hvalid, hfloor, hcurrent, hconfig ▸ hfuture⟩
    · obtain ⟨-, rfl⟩ := Prod.mk.inj (Except.ok.inj hs)
      rcases h with h | rfl
      · rw [not_isAccepted_of_screen hscreen] at h
        cases h
      · exact absurd rfl (ne_droppedRateLimit_of_screen hscreen)

/-- The verdict an output gives. -/
def Out.result : Out F → Option ValidationResult
  | .verdict result => some result
  | _ => none

/-- A client is honest if its numbers go up and every verdict is one of the buffer. -/
theorem honest_of_verdicts {config : ServerConfig} {ops : List (Op F)} {s : Server F}
    {outs : List (Out F)} (hrun : runServer config ops = .ok (s, outs)) {sid : SessionId}
    (hverdicts : ∀ result ∈ outs.filterMap Out.result,
      result.isAccepted = true ∨ result = .droppedRateLimit)
    (hincreasing : (((ops.zip outs).filterMap (receivedFrom sid)).map
      InputCmdProto.inputSeq).Pairwise (· < ·)) : Honest config ops outs sid := by
  refine ⟨?_, List.pairwise_map.1 hincreasing⟩
  rintro before input after u os rfl hbefore -
  obtain ⟨v, o, os', hexec, -, rfl⟩ := runServer_split hrun hbefore
  obtain ⟨result, hs, rfl⟩ := Server.exec_receiveInput.1 hexec
  obtain ⟨hconfig, hwindow⟩ := config_of_runServer hbefore
  refine Server.admits_of_verdict (hwindow.trans (congrArg _ hconfig.symm)) hs
    (hverdicts result (List.mem_filterMap.2 ⟨.verdict result, ?_, rfl⟩))
  exact List.mem_append_right _ List.mem_cons_self

/-- Five commands for the first tick a client can reach, and the steps up to it. -/
def burst : List (Op ℚ) :=
  [.acceptSession, .welcomeFor 1, .receiveInput 1 ⟨1, 1, [1, 0]⟩, .receiveInput 1 ⟨1, 2, [1, 0]⟩,
    .receiveInput 1 ⟨1, 3, [1, 0]⟩, .receiveInput 1 ⟨1, 4, [1, 0]⟩, .receiveInput 1 ⟨1, 5, [0, 1]⟩,
    .step, .step]

/-- Two sessions of one player, with one command each, and the steps up to their tick. -/
def shared : List (Op ℚ) :=
  [.acceptSession, .welcomeFor 1, .acceptSession, .welcomeFor 2, .receiveInput 1 ⟨1, 1, [1, 0]⟩,
    .receiveInput 2 ⟨1, 2, [0, 1]⟩, .step, .step]

/-- The fifth command of a burst is not applied, nor is the only one of a session whose player
is another session's too. -/
theorem not_newest_wins :
    (∃ s outs, runServer {} burst = .ok (s, outs) ∧ Honest {} burst outs 1 ∧
      (receivedFor (burst.zip outs) 1 1).getLast? = some ⟨1, 5, [0, 1]⟩ ∧
      s.replayRecorder.inputs.map AppliedInput.moveDir = [(0, 0), (1, 0)]) ∧
    ∃ s outs, runServer { testPlayerIds := some [7, 7] } shared = .ok (s, outs) ∧
      Honest { testPlayerIds := some [7, 7] } shared outs 1 ∧
      receivedFor (shared.zip outs) 1 1 = [⟨1, 1, [1, 0]⟩] ∧
      s.replayRecorder.inputs.map AppliedInput.moveDir = [(0, 0), (0, 0), (0, 1), (0, 1)] := by
  constructor
  · have h : (runServer {} burst).map (fun x => (x.2.filterMap Out.result,
        (burst.zip x.2).filterMap (receivedFrom 1),
        x.1.replayRecorder.inputs.map AppliedInput.moveDir)) =
        .ok ([.accepted, .accepted, .accepted, .accepted, .droppedRateLimit],
          [⟨1, 1, [1, 0]⟩, ⟨1, 2, [1, 0]⟩, ⟨1, 3, [1, 0]⟩, ⟨1, 4, [1, 0]⟩, ⟨1, 5, [0, 1]⟩],
          [(0, 0), (1, 0)]) := by
      decide +kernel
    obtain ⟨⟨s, outs⟩, hrun, heq⟩ := map_eq_ok.1 h
    simp only [Prod.mk.injEq] at heq
    obtain ⟨hverdicts, hreceived, happlied⟩ := heq
    refine ⟨s, outs, hrun, honest_of_verdicts hrun (by rw [hverdicts]; decide)
      (by rw [hreceived]; decide), ?_, happlied⟩
    rw [receivedFor, hreceived]
    decide
  · have h : (runServer { testPlayerIds := some [7, 7] } shared).map (fun x =>
        (x.2.filterMap Out.result, (shared.zip x.2).filterMap (receivedFrom 1),
          x.1.replayRecorder.inputs.map AppliedInput.moveDir)) =
        .ok ([.accepted, .accepted], [⟨1, 1, [1, 0]⟩], [(0, 0), (0, 0), (0, 1), (0, 1)]) := by
      decide +kernel
    obtain ⟨⟨s, outs⟩, hrun, heq⟩ := map_eq_ok.1 h
    simp only [Prod.mk.injEq] at heq
    obtain ⟨hverdicts, hreceived, happlied⟩ := heq
    refine ⟨s, outs, hrun, honest_of_verdicts hrun (by rw [hverdicts]; decide)
      (by rw [hreceived]; decide), ?_, happlied⟩
    rw [receivedFor, hreceived]
    decide

/-- The fourth command of the burst is applied. -/
theorem newest_wins_of_burst : ∃ s outs u os a, runServer {} burst = .ok (s, outs) ∧
    runServer {} (burst.take 8) = .ok (u, os) ∧
    s.replayRecorder.inputs.filter (fun a => a.playerId = 0 ∧ a.tick = u.world.tick) = [a] ∧
    NewestWins (receivedFor ((burst.take 8).zip os) 1 u.world.tick)
      (({} : ServerConfig).perTickLimit).toNat a := by
  have h : (runServer {} burst).map (fun x => (x.2.filterMap Out.result,
      (burst.zip x.2).filterMap (receivedFrom 1))) =
      .ok ([.accepted, .accepted, .accepted, .accepted, .droppedRateLimit],
        [⟨1, 1, [1, 0]⟩, ⟨1, 2, [1, 0]⟩, ⟨1, 3, [1, 0]⟩, ⟨1, 4, [1, 0]⟩, ⟨1, 5, [0, 1]⟩]) := by
    decide +kernel
  have hbefore : (runServer {} (burst.take 8)).map (fun x => x.2.take 1) =
      .ok [.accepted 1 0 1] := by
    decide +kernel
  obtain ⟨⟨s, outs⟩, hrun, heq⟩ := map_eq_ok.1 h
  obtain ⟨⟨u, os⟩, hu, hfirst⟩ := map_eq_ok.1 hbefore
  obtain ⟨hverdicts, hreceived⟩ := Prod.mk.inj heq
  have honest : Honest {} burst outs 1 := honest_of_verdicts hrun (by rw [hverdicts]; decide)
    (by rw [hreceived]; decide)
  have hjoined : .accepted 1 0 1 ∈ os :=
    List.mem_of_mem_take (hfirst ▸ List.mem_singleton_self _ : _ ∈ os.take 1)
  obtain ⟨a, ha, hwins⟩ := newest_wins (fun _ hids => by cases hids) (by decide) hrun honest
    (burst.take 8) [] u os 0 1 rfl hu hjoined
  exact ⟨s, outs, u, os, a, hrun, hu, ha, hwins⟩

end Flowstate
