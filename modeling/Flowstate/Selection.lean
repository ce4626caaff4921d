import Flowstate.Refinement
import Flowstate.Slot
import Mathlib.Data.List.TakeWhile

/-!
# The applied input is the reference rule

What a player is applied at a tick is a function of the commands accepted from its session
for that tick before it was processed, and of what was applied before
(`referenceChoice`) : the direction of the only command with the greatest sequence number,
clamped to magnitude one (`unitDirection`), or else the previous direction. The server keeps
no such list. In a match, a live lane's slots summarize the lists of the ticks to come, its
intent is the last direction of the ticks gone by, and its log is what the rule gives for
them (`Follows`). Every operation keeps that so, hence `inputs_eq_reference`.
-/

set_option linter.unusedSectionVars false

open Rust

namespace Flowstate

variable {F : Type} [F64 F]

/-! ## The rule -/

/-- A direction given by two components, divided by its magnitude where that exceeds one;
`[0, 0]` for any other number of components. -/
def unitDirection : List F → F × F
  | [x, y] =>
    if F64.lt (F64.lit 1) (x * x + y * y) then
      (x / F64.sqrt (x * x + y * y), y / F64.sqrt (x * x + y * y))
    else (x, y)
  | _ => (F64.lit 0, F64.lit 0)

/-- The direction to apply and whether it is the fallback, from the accepted commands and
the direction applied before. -/
def referenceChoice (commands : List (InputCmdProto F)) (previous : F × F) : (F × F) × Bool :=
  match winners commands with
  | [c] => (unitDirection c.moveDir, false)
  | _ => (previous, true)

/-- The choices of consecutive ticks, `previous` applied before the first. -/
def referenceChoices (commands : Tick → List (InputCmdProto F)) :
    List Tick → F × F → List (Tick × (F × F) × Bool)
  | [], _ => []
  | t :: ts, previous =>
    let choice := referenceChoice (commands t) previous
    (t, choice) :: referenceChoices commands ts choice.1

/-- The inputs the rule gives a player over the ticks, `[0, 0]` applied before the first. -/
def referenceInputs (p : PlayerId) (commands : Tick → List (InputCmdProto F)) (ticks : List Tick) :
    List (AppliedInput F) :=
  (referenceChoices commands ticks (F64.lit 0, F64.lit 0)).map fun x => ⟨x.1, p, x.2.1, x.2.2⟩

/-- The last direction chosen, `[0, 0]` without one. -/
def lastDirection (choices : List (Tick × (F × F) × Bool)) : F × F :=
  (choices.getLast?.map fun x => x.2.1).getD (F64.lit 0, F64.lit 0)

/-- Whether the output is that of the step that processes a tick. -/
def Out.processes (t : Tick) : Out F → Bool
  | .stepped snapshot _ _ => snapshot.tick.toNat == t.toNat + 1
  | _ => false

/-- The command an operation brings a session for a tick, if it is accepted. -/
def acceptedCommand (sid : SessionId) (t : Tick) : Op F × Out F → Option (InputCmdProto F)
  | (.receiveInput sid' input, .verdict result) =>
    if sid' = sid ∧ input.tick = t ∧ result.isAccepted then some input else none
  | _ => none

/-- The commands accepted from a session for a tick before it was processed. -/
def acceptedBefore (h : List (Op F × Out F)) (sid : SessionId) (t : Tick) :
    List (InputCmdProto F) :=
  (h.takeWhile fun x => !x.2.processes t).filterMap (acceptedCommand sid t)

/-- What the server reads off a clamped command is its direction, clamped. -/
theorem Server.commandMoveDir_clamped (c : InputCmdProto F) :
    commandMoveDir c.clamped = unitDirection c.moveDir := by
  rw [commandMoveDir, InputCmdProto.clamped]
  rcases c.moveDir with _ | ⟨x, _ | ⟨y, _ | ⟨z, rest⟩⟩⟩
  · rfl
  · rfl
  · rw [InputBuffer.clampMagnitude, unitDirection]
    split_ifs <;> rfl
  · rfl

/-- What a slot and an intent give is what the rule gives for the commands of the slot. -/
theorem chooseInput_summarize [F64.LawfulClamp F] (commands : List (InputCmdProto F))
    (previous : F × F) :
    chooseInput (summarize commands) previous = referenceChoice commands previous := by
  rw [chooseInput, taken_summarize, referenceChoice]
  rcases winners commands with _ | ⟨c, _ | ⟨d, rest⟩⟩
  · rfl
  · exact congrArg (·, false) (Server.commandMoveDir_clamped c)
  · rfl

theorem referenceChoices_congr {commands commands' : Tick → List (InputCmdProto F)} :
    ∀ {ticks : List Tick} {previous : F × F}, (∀ t ∈ ticks, commands t = commands' t) →
      referenceChoices commands ticks previous = referenceChoices commands' ticks previous
  | [], _, _ => rfl
  | t :: ts, previous, h => by
    obtain ⟨ht, hts⟩ := List.forall_mem_cons.1 h
    simp only [referenceChoices, ht, referenceChoices_congr hts]

/-- One more tick is chosen from what was chosen last. -/
theorem referenceChoices_concat (commands : Tick → List (InputCmdProto F)) (t : Tick) :
    ∀ (ticks : List Tick) (previous : F × F),
      referenceChoices commands (ticks ++ [t]) previous =
        referenceChoices commands ticks previous ++
          [(t, referenceChoice (commands t)
            (((referenceChoices commands ticks previous).getLast?.map fun x => x.2.1).getD
              previous))]
  | [], previous => rfl
  | t' :: ts, previous => by
    simp only [List.cons_append, referenceChoices, referenceChoices_concat commands t ts,
      List.getLast?_cons, List.cons.injEq, true_and]
    rcases (referenceChoices commands ts _).getLast? with _ | x <;> rfl

theorem acceptedBefore_of_none {h : List (Op F × Out F)} {x : Op F × Out F} {sid : SessionId}
    {t : Tick} (hx : acceptedCommand sid t x = none) :
    acceptedBefore (h ++ [x]) sid t = acceptedBefore h sid t := by
  rw [acceptedBefore, acceptedBefore, List.takeWhile_append]
  split_ifs with hall
  · have htake := (List.takeWhile_prefix fun x : Op F × Out F => !x.2.processes t).eq_of_length hall
    rw [List.filterMap_append, htake]
    by_cases hproc : x.2.processes t <;> simp [hproc, hx]
  · rfl

theorem acceptedBefore_of_some {h : List (Op F × Out F)} {x : Op F × Out F} {sid : SessionId}
    {t : Tick} {c : InputCmdProto F} (hh : ∀ y ∈ h ++ [x], y.2.processes t = false)
    (hx : acceptedCommand sid t x = some c) :
    acceptedBefore (h ++ [x]) sid t = acceptedBefore h sid t ++ [c] := by
  have htake : ∀ y ∈ h ++ [x], !y.2.processes t := fun y hy => by rw [hh y hy]; rfl
  rw [acceptedBefore, acceptedBefore, List.takeWhile_eq_self_iff.2 htake, List.filterMap_append,
    List.takeWhile_eq_self_iff.2 fun y hy => htake y (List.mem_append_left _ hy)]
  simp [hx]

/-- A command the screen turns away is not accepted. -/
theorem not_isAccepted_of_screen {maxFutureTicks : UInt64} {currentTick targetTickFloor : Tick}
    {input : InputCmdProto F} {result : ValidationResult}
    (h : screen maxFutureTicks currentTick targetTickFloor input = .ok (some result)) :
    result.isAccepted = false := by
  unfold screen at h
  split_ifs at h
  · obtain rfl := Option.some.inj (Except.ok.inj h)
    rfl
  · obtain rfl := Option.some.inj (Except.ok.inj h)
    rfl
  · obtain rfl := Option.some.inj (Except.ok.inj h)
    rfl
  · obtain ⟨maxTick, -, h⟩ := bind_eq_ok.1 h
    have h := Except.ok.inj h
    split_ifs at h
    obtain rfl := Option.some.inj h
    rfl

/-! ## Lanes that follow the rule -/

/-- The lane's slots, intent and log are what the rule gives for the history since its
session joined at tick `since`. -/
structure Lane.Follows (sid : SessionId) (since : Tick) (h : List (Op F × Out F))
    (m : Match F) : Prop where
  slots : ∀ t, m.tick.toNat ≤ t.toNat →
    (m.lane sid).slots t = summarize (acceptedBefore h sid t)
  intent : (m.lane sid).intent = lastDirection (referenceChoices (acceptedBefore h sid)
    (rangeU64 since m.tick) (F64.lit 0, F64.lit 0))
  log : m.log.filter (fun a => a.session == sid) = (referenceChoices (acceptedBefore h sid)
    (rangeU64 since m.tick) (F64.lit 0, F64.lit 0)).map fun x => ⟨x.1, sid, x.2.1, x.2.2⟩

/-- A session that joined at tick `since` follows the rule as long as it is live. -/
structure Follows (sid : SessionId) (since : Tick) (h : List (Op F × Out F)) (m : Match F) :
    Prop where
  joined_lt : m.joined < 2 ^ 8
  joined : sid ∈ m.order
  since_le : since.toNat ≤ m.tick.toNat
  processed : ∀ x ∈ h, ∀ t, x.2.processes t = true → t.toNat < m.tick.toNat
  follows : (m.lane sid).live → Lane.Follows sid since h m

namespace Follows

variable {sid : SessionId} {since : Tick} {h : List (Op F × Out F)} {m m' : Match F}

/-- An operation that brings the session no command and leaves its slots and intent keeps it
following. -/
theorem frame (hm : Follows sid since h m) {x : Op F × Out F} (hjoined : m'.joined < 2 ^ 8)
    (horder : m.order ⊆ m'.order) (htick : m'.tick = m.tick) (hlog : m'.log = m.log)
    (hlane : (m'.lane sid).live → (m.lane sid).live ∧ (m'.lane sid).slots = (m.lane sid).slots ∧
      (m'.lane sid).intent = (m.lane sid).intent)
    (hproc : ∀ t, x.2.processes t = false) (hx : ∀ t, acceptedCommand sid t x = none) :
    Follows sid since (h ++ [x]) m' := by
  have hbefore : acceptedBefore (h ++ [x]) sid = acceptedBefore h sid :=
    funext fun t => acceptedBefore_of_none (hx t)
  refine ⟨hjoined, horder hm.joined, htick ▸ hm.since_le, fun y hy t ht => ?_, fun hlive => ?_⟩
  · rcases List.mem_append.1 hy with hy | hy
    · rw [htick]
      exact hm.processed y hy t ht
    · rw [List.mem_singleton.1 hy, hproc t] at ht
      cases ht
  · obtain ⟨hlive', hsame, hsame'⟩ := hlane hlive
    obtain ⟨hslots, hintent, hlog'⟩ := hm.follows hlive'
    rw [← htick] at hslots hintent hlog'
    exact ⟨by rw [hsame, hbefore]; exact hslots, by rw [hsame', hbefore]; exact hintent,
      by rw [hlog, hbefore]; exact hlog'⟩

/-- An accepted command joins the list of its tick. -/
theorem buffer (hm : Follows sid since h m) (hlive : (m.lane sid).live)
    {input : InputCmdProto F} (hle : m.tick.toNat ≤ input.tick.toNat)
    (hfull : ¬Full m.rules.perTickLimit ((m.lane sid).slots input.tick)) :
    Follows sid since (h ++ [(.receiveInput sid input, .verdict (BufferEntry.receive
        m.rules.perTickLimit ((m.lane sid).slots input.tick) input).2.verdict)])
      (m.setLane sid ((m.lane sid).buffer m.rules.perTickLimit input)) := by
  obtain ⟨harrive, haccepted⟩ := receive_of_not_full hfull input
  set x : Op F × Out F := (.receiveInput sid input, .verdict (BufferEntry.receive
    m.rules.perTickLimit ((m.lane sid).slots input.tick) input).2.verdict) with hx
  have hother : ∀ t, input.tick ≠ t →
      acceptedBefore (h ++ [x]) sid t = acceptedBefore h sid t := fun t hne =>
    acceptedBefore_of_none (by simp [hx, acceptedCommand, hne])
  have hproc : ∀ t, m.tick.toNat ≤ t.toNat → ∀ y ∈ h ++ [x], y.2.processes t = false := by
    intro t ht y hy
    rcases List.mem_append.1 hy with hy | hy
    · exact Bool.eq_false_iff.2 fun hp => absurd (hm.processed y hy t hp) (by omega)
    · rw [List.mem_singleton.1 hy]
      rfl
  have hthis : acceptedBefore (h ++ [x]) sid input.tick =
      acceptedBefore h sid input.tick ++ [input] :=
    acceptedBefore_of_some (hproc _ hle) (by simp [hx, acceptedCommand, haccepted])
  -- The ticks gone by are not the command's.
  have hgone : referenceChoices (acceptedBefore (h ++ [x]) sid) (rangeU64 since m.tick)
      (F64.lit 0, F64.lit 0) = referenceChoices (acceptedBefore h sid) (rangeU64 since m.tick)
        (F64.lit 0, F64.lit 0) := by
    refine referenceChoices_congr fun t ht => hother t ?_
    rintro rfl
    have := (mem_rangeU64.1 ht).2
    omega
  obtain ⟨hslots, hintent, hlog⟩ := hm.follows hlive
  refine ⟨hm.joined_lt, hm.joined, hm.since_le, fun y hy t ht => ?_, fun _ => ⟨fun t ht => ?_, ?_,
    ?_⟩⟩
  · by_contra hnot
    rw [hproc t (Nat.not_lt.1 hnot) y hy] at ht
    cases ht
  · rw [Match.lane_setLane, if_pos rfl, Lane.buffer]
    dsimp only
    by_cases htick : t = input.tick
    · rw [htick, Function.update_self, harrive, hthis, summarize_append, hslots _ hle]
    · rw [Function.update_of_ne htick, hother t (Ne.symm htick)]
      exact hslots t ht
  · rw [Match.lane_setLane, if_pos rfl]
    exact hintent.trans (congrArg lastDirection hgone.symm)
  · exact hlog.trans (congrArg _ hgone.symm)

/-- What a tick applies to a joined session. -/
theorem filter_applied (hjoined : m.joined < 2 ^ 8) (hmem : sid ∈ m.order) :
    m.applied.filter (fun a => a.session == sid) =
      [⟨m.tick, sid, ((m.lane sid).choice m.tick).1, ((m.lane sid).choice m.tick).2⟩] := by
  have hcount : m.order.count sid = 1 :=
    List.count_eq_one_of_mem (Match.nodup_order (hjoined.trans (by norm_num))) hmem
  have hfilter : m.order.filter (fun sid' => sid' == sid) = [sid] := by
    rw [List.filter_beq, hcount]
    rfl
  rw [Match.applied, List.filter_map]
  exact congrArg _ hfilter

/-- A tick is chosen by the rule. -/
theorem tick [F64.LawfulClamp F] (hm : Follows sid since h m) {next floor : Tick}
    (hnext : next.toNat = m.tick.toNat + 1) :
    Follows sid since (h ++ [(.step, .stepped (m.advance next floor).snapshot floor
      (Server.snapshotBytes (m.advance next floor).snapshot floor))]) (m.advance next floor) := by
  set x : Op F × Out F := (.step, .stepped (m.advance next floor).snapshot floor
    (Server.snapshotBytes (m.advance next floor).snapshot floor)) with hx
  have hbefore : acceptedBefore (h ++ [x]) sid = acceptedBefore h sid :=
    funext fun t => acceptedBefore_of_none rfl
  have htick : (m.advance next floor).tick = next := rfl
  have hlane : (m.advance next floor).lane sid =
      (m.lane sid).advance m.rules.dtSeconds m.tick next floor := by
    rw [Match.lane_advance, if_pos hm.joined]
  refine ⟨hm.joined_lt, hm.joined, by rw [htick]; have := hm.since_le; omega, fun y hy t ht => ?_,
    fun hlive => ?_⟩
  · rw [htick]
    rcases List.mem_append.1 hy with hy | hy
    · have := hm.processed y hy t ht
      omega
    · rw [List.mem_singleton.1 hy] at ht
      have ht : next.toNat = t.toNat + 1 := beq_iff_eq.1 ht
      omega
  · rw [Match.live_advance] at hlive
    obtain ⟨hslots, hintent, hlog⟩ := hm.follows hlive
    have hchoice : (m.lane sid).choice m.tick = referenceChoice (acceptedBefore h sid m.tick)
        (lastDirection (referenceChoices (acceptedBefore h sid) (rangeU64 since m.tick)
          (F64.lit 0, F64.lit 0))) := by
      rw [Lane.choice, hslots _ le_rfl, hintent, chooseInput_summarize]
    have hchoices : referenceChoices (acceptedBefore (h ++ [x]) sid) (rangeU64 since next)
        (F64.lit 0, F64.lit 0) = referenceChoices (acceptedBefore h sid) (rangeU64 since m.tick)
          (F64.lit 0, F64.lit 0) ++ [(m.tick, (m.lane sid).choice m.tick)] := by
      rw [hbefore, rangeU64_succ hm.since_le hnext, referenceChoices_concat, hchoice]
      rfl
    refine ⟨fun t ht => ?_, ?_, ?_⟩
    · rw [htick] at ht
      rw [hlane, Lane.advance, hbefore]
      dsimp only
      rw [if_pos (UInt64.le_iff_toNat_le.2 ht)]
      exact hslots t (by omega)
    · rw [hlane, htick, hchoices, lastDirection, List.getLast?_append]
      rfl
    · rw [htick, hchoices, List.map_append, ← hlog]
      change (m.log ++ m.applied).filter _ = _
      rw [List.filter_append, filter_applied hm.joined_lt hm.joined]
      rfl

/-- A session that has just joined follows the rule. -/
theorem join (hjoined : m.joined + 1 < 2 ^ 8) (hlog : ∀ a ∈ m.log, a.session ∈ m.order)
    (hfresh : m.lane (Match.sessionAt m.joined) = Lane.fresh) :
    Follows (Match.sessionAt m.joined) m.tick []
      { m.setLane (Match.sessionAt m.joined) (m.lane (Match.sessionAt m.joined)).join with
        joined := m.joined + 1 } := by
  have hrange : rangeU64 m.tick m.tick = [] := by simp [rangeU64]
  have hlane : (m.setLane (Match.sessionAt m.joined) (m.lane (Match.sessionAt m.joined)).join).lane
      (Match.sessionAt m.joined) = (Lane.fresh : Lane F).join := by
    rw [Match.lane_setLane, if_pos rfl, hfresh]
  refine ⟨hjoined, ?_, le_rfl, fun x hx => absurd hx List.not_mem_nil, fun _ => ⟨fun t _ => ?_, ?_,
    ?_⟩⟩
  · rw [Match.order_succ]
    exact List.mem_append_right _ (List.mem_singleton_self _)
  · exact congrArg (fun l => l.slots t) hlane
  · refine (congrArg Lane.intent hlane).trans ?_
    change _ = lastDirection (referenceChoices _ (rangeU64 m.tick m.tick) _)
    rw [hrange]
    rfl
  · change m.log.filter _ = (referenceChoices _ (rangeU64 m.tick m.tick) _).map _
    rw [hrange]
    refine List.filter_eq_nil_iff.2 fun a ha heq => ?_
    exact Match.sessionAt_notMem_order (by omega) (beq_iff_eq.1 heq ▸ hlog a ha)

/-- Every operation keeps a session following the rule. -/
theorem exec [F64.LawfulClamp F] (hm : Follows sid since h m) {op : Op F} {o : Out F}
    (hexec : m.exec op = .ok (m', o)) : Follows sid since (h ++ [(op, o)]) m' := by
  have horder := Match.order_subset_of_exec hexec
  have hset : ∀ sid' l, (sid' = sid → l.live = (m.lane sid).live ∧
      l.slots = (m.lane sid).slots ∧ l.intent = (m.lane sid).intent) →
      ((m.setLane sid' l).lane sid).live = (m.lane sid).live ∧
        ((m.setLane sid' l).lane sid).slots = (m.lane sid).slots ∧
        ((m.setLane sid' l).lane sid).intent = (m.lane sid).intent := by
    intro sid' l hl
    rw [Match.lane_setLane]
    split_ifs with heq
    · exact hl heq.symm
    · exact ⟨rfl, rfl, rfl⟩
  cases Match.steps_of_exec hexec with
  | join _ hjoined =>
    obtain ⟨hlive, hsame⟩ := hset (Match.sessionAt m.joined)
      (m.lane (Match.sessionAt m.joined)).join fun heq => absurd (heq ▸ hm.joined)
        (Match.sessionAt_notMem_order (hm.joined_lt.trans (by norm_num)))
    exact hm.frame hjoined horder rfl rfl (fun h => ⟨hlive ▸ h, hsame⟩) (fun _ => rfl)
      fun _ => rfl
  | @welcome sid' floor hlive =>
    obtain ⟨hlive, hsame⟩ := hset sid' ((m.lane sid').welcome floor)
      fun heq => by subst heq; exact ⟨rfl, rfl, rfl⟩
    exact hm.frame hm.joined_lt horder rfl rfl (fun h => ⟨hlive ▸ h, hsame⟩) (fun _ => rfl)
      fun _ => rfl
  | unknown =>
    exact hm.frame hm.joined_lt horder rfl rfl (fun h => ⟨h, rfl, rfl⟩) (fun _ => rfl)
      fun t => by simp [acceptedCommand, ValidationResult.isAccepted]
  | drop hlive hscreen =>
    exact hm.frame hm.joined_lt horder rfl rfl (fun h => ⟨h, rfl, rfl⟩) (fun _ => rfl)
      fun t => by simp [acceptedCommand, not_isAccepted_of_screen hscreen]
  | @buffer sid' input hlive hscreen =>
    by_cases heq : sid' = sid ∧ ¬Full m.rules.perTickLimit ((m.lane sid').slots input.tick)
    · obtain ⟨rfl, hfull⟩ := heq
      exact hm.buffer hlive (le_tick_of_screen hscreen) hfull
    · -- The command is another session's, or finds its slot full.
      have hfull : sid' = sid → Full m.rules.perTickLimit ((m.lane sid').slots input.tick) :=
        fun h => by_contra fun hfull => heq ⟨h, hfull⟩
      obtain ⟨hlive, hsame⟩ := hset sid'
        ((m.lane sid').buffer m.rules.perTickLimit input) fun h => by
          rw [Lane.buffer, receive_of_full (hfull h), Function.update_eq_self, h]
          exact ⟨rfl, rfl, rfl⟩
      refine hm.frame hm.joined_lt horder rfl rfl (fun h => ⟨hlive ▸ h, hsame⟩) (fun _ => rfl)
        fun t => ?_
      by_cases h : sid' = sid
      · rw [receive_of_full (hfull h)]
        simp [acceptedCommand, BufferResult.verdict, ValidationResult.isAccepted]
      · simp [acceptedCommand, h]
  | @leave sid' hlive =>
    refine hm.frame hm.joined_lt horder rfl rfl (fun hlive' => ?_) (fun _ => rfl) fun _ => rfl
    by_cases heq : sid = sid'
    · rw [Match.lane_setLane, if_pos heq] at hlive'
      cases hlive'
    · rw [Match.lane_setLane, if_neg heq] at hlive' ⊢
      exact ⟨hlive', rfl, rfl⟩
  | absent =>
    exact hm.frame hm.joined_lt horder rfl rfl (fun h => ⟨h, rfl, rfl⟩) (fun _ => rfl)
      fun _ => rfl
  | tick hnext => exact hm.tick hnext

end Follows

/-! ## The server -/

theorem Out.processes_named (config : ServerConfig) (t : Tick) (o : Out F) :
    (o.named config).processes t = o.processes t := by
  cases o <;> rfl

theorem acceptedBefore_named (config : ServerConfig) (ops : List (Op F)) (outs : List (Out F))
    (sid : SessionId) (t : Tick) :
    acceptedBefore (ops.zip (outs.map (Out.named config))) sid t =
      acceptedBefore (ops.zip outs) sid t := by
  have hcommand : acceptedCommand sid t ∘ Prod.map id (Out.named config) =
      (acceptedCommand sid t : Op F × Out F → _) := by
    ext ⟨op, o⟩
    cases op <;> cases o <;> rfl
  have hproc : (fun x : Op F × Out F => !x.2.processes t) ∘ Prod.map id (Out.named config) =
      fun x => !x.2.processes t := by
    ext x
    exact congrArg _ (Out.processes_named config t x.2)
  rw [acceptedBefore, acceptedBefore, List.zip_map_right, List.takeWhile_map, List.filterMap_map,
    hcommand, hproc]

/-- The applied inputs recorded for the player of a live session are those of the reference
rule, over the commands accepted from the session, for every tick since it was accepted. -/
theorem inputs_eq_reference [F64.LawfulClamp F] {config : ServerConfig} {before after : List (Op F)}
    {s₀ s₁ s : Server F} {outs₀ outs : List (Out F)} {sid : SessionId} {p : PlayerId}
    {e : EntityId} (hbefore : runServer config before = .ok (s₀, outs₀))
    (haccept : s₀.acceptSession = .ok (s₁, sid, p, e))
    (hafter : (serverMachine F).run s₁ after = .ok (s, outs))
    (hnodup : s.entitySpawnOrder.Nodup) (hlive : sid ∈ s.sessions) :
    s.replayRecorder.inputs.filter (fun a => a.playerId == p) =
      referenceInputs p (acceptedBefore (after.zip outs) sid)
        (rangeU64 s₀.currentTick s.currentTick) := by
  have hexec : (serverMachine F).exec s₀ .acceptSession = .ok (s₁, .accepted sid p e) :=
    Server.exec_acceptSession.2 ⟨sid, p, e, haccept, rfl⟩
  have hrun := Machine.run_cons_eq_ok.2 ⟨s₁, _, _, hexec, hafter, rfl⟩
  have hnodup₀ : s₀.entitySpawnOrder.Nodup := by
    rw [spawnOrder_of_run hrun] at hnodup
    exact hnodup.of_append_left
  obtain ⟨m₀, -, -, -, hrel₀, hconfig₀⟩ := runServer_refines hbefore hnodup₀
  obtain ⟨m, mouts, hm, houts, hrel⟩ := run_refines hrel₀ hrun hnodup
  obtain ⟨m₁, o, mouts, hjoin, hrest, rfl⟩ := Machine.run_cons_eq_ok.1 hm
  rw [List.map_cons, List.cons.injEq] at houts
  obtain ⟨ho, rfl⟩ := houts
  have hsteps : m₀.Steps .acceptSession m₁ o := Match.steps_of_exec hjoin
  cases hsteps with
  | join hcap hjoined =>
    injection ho with hsid hp he
    subst hsid hp
    have hfollows := Follows.join hjoined hrel₀.logged
      (hrel₀.fresh _ (Match.sessionAt_notMem_order hrel₀.joined_lt_half))
    have hfollows := Machine.run_history (M := matchMachine F)
      (P := Follows (Match.sessionAt m₀.joined) m₀.tick)
      (fun _ _ _ _ _ h hexec => Follows.exec h hexec) hfollows hrest
    rw [List.nil_append] at hfollows
    have hconfig : s.config = s₀.config := config_of_run hrun
    have hcommands : acceptedBefore (after.zip (mouts.map (Out.named s₀.config)))
        (Match.sessionAt m₀.joined) =
          acceptedBefore (after.zip mouts) (Match.sessionAt m₀.joined) :=
      funext fun t => acceptedBefore_named _ _ _ _ t
    have hlog := (hfollows.follows ((hrel.mem_sessions _).1 (AList.mem_keys.1 hlive))).log
    have hinputs := hrel.filter_inputs hfollows.joined id
    rw [hconfig] at hinputs
    refine hinputs.trans ((congrArg _ hlog).trans ?_)
    rw [hcommands, referenceInputs, List.map_map, Server.currentTick, Server.currentTick, hrel.tick,
      hrel₀.tick]
    rfl

/-- A clamped command, a tie and a fallback. -/
theorem inputs_eq_reference_of_tie : ∃ s₀ s₁ s outs₀ outs,
    runServer (F := ℚ) {} [] = .ok (s₀, outs₀) ∧ s₀.acceptSession = .ok (s₁, 1, 0, 1) ∧
    (serverMachine ℚ).run s₁ [.receiveInput 1 ⟨1, 7, [3, 4]⟩, .receiveInput 1 ⟨2, 8, [0, 1]⟩,
      .receiveInput 1 ⟨2, 8, [1, 0]⟩, .step, .step, .step] = .ok (s, outs) ∧
    s.replayRecorder.inputs.filter (fun a => a.playerId == 0) =
      referenceInputs 0 (acceptedBefore (([.receiveInput 1 ⟨1, 7, [3, 4]⟩,
        .receiveInput 1 ⟨2, 8, [0, 1]⟩, .receiveInput 1 ⟨2, 8, [1, 0]⟩, .step, .step,
          .step] : List (Op ℚ)).zip outs) 1) (rangeU64 s₀.currentTick s.currentTick) := by
  have h : (runServer (F := ℚ) {} [] >>= fun x => x.1.acceptSession >>= fun y =>
      ((serverMachine ℚ).run y.1 [.receiveInput 1 ⟨1, 7, [3, 4]⟩, .receiveInput 1 ⟨2, 8, [0, 1]⟩,
        .receiveInput 1 ⟨2, 8, [1, 0]⟩, .step, .step, .step]).map fun z =>
          (y.2, z.1.entitySpawnOrder, z.1.sessions.keys)) = .ok ((1, 0, 1), [0], [1]) := by
    decide +kernel
  obtain ⟨⟨s₀, outs₀⟩, hs₀, h⟩ := bind_eq_ok.1 h
  obtain ⟨⟨s₁, sid, p, e⟩, hs₁, h⟩ := bind_eq_ok.1 h
  obtain ⟨⟨s, outs⟩, hs, heq⟩ := map_eq_ok.1 h
  simp only [Prod.mk.injEq] at heq
  obtain ⟨⟨rfl, rfl, rfl⟩, hplayers, hlive⟩ := heq
  exact ⟨s₀, s₁, s, outs₀, outs, hs₀, hs₁, hs, inputs_eq_reference hs₀ hs₁ hs
    (by rw [hplayers]; decide) (AList.mem_keys.2 (by rw [hlive]; decide))⟩

end Flowstate
