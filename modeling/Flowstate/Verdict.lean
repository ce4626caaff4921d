import Flowstate.Admission
import Flowstate.Speed

/-!
# What a clamp verdict says

`validateInput` answers a command it accepts with `accepted` or `acceptedWithClamp`. For the
first command of a slot, and for one that replaces the slot's, the flag is about that command.
For any other it is about the command the slot keeps, which was clamped when it came
(`Clamped`), so an overlong command that is not selected is answered with `accepted`
(`verdict_iff`).
-/

set_option linter.unusedSectionVars false

open Rust

namespace Flowstate

section Buffer

variable {F : Type} [F64 F]

/-- The buffers of a configuration that calls of any kind lead to, in any order. -/
inductive InputBuffer.Reachable (config : ValidationConfig) : InputBuffer F → Prop
  | new {b : InputBuffer F} (h : InputBuffer.new config = .ok b) : Reachable config b
  | validate {b b' : InputBuffer F} {input : InputCmdProto F} {currentTick floor : Tick}
    {playerId : PlayerId} {result : ValidationResult} (hb : Reachable config b)
    (h : validateInput input currentTick floor b playerId = .ok (b', result)) :
    Reachable config b'
  | tryBuffer {b : InputBuffer F} (hb : Reachable config b) (playerId : PlayerId)
    (input : InputCmdProto F) : Reachable config (b.tryBuffer playerId input).1
  | takeInput {b : InputBuffer F} (hb : Reachable config b) (playerId : PlayerId) (tick : Tick) :
    Reachable config (b.takeInput playerId tick).1
  | evictBefore {b : InputBuffer F} (hb : Reachable config b) (tick : Tick) :
    Reachable config (b.evictBefore tick)

/-- No buffered direction needs a clamp. -/
def Clamped (b : InputBuffer F) : Prop :=
  ∀ key entry, b.buffer.lookup key = some entry →
    InputBuffer.needsMagnitudeClamp entry.selected.moveDir = false

/-- The flag of a further command is about the command that is selected then. -/
theorem BufferEntry.next_flag (entry : BufferEntry F) (input : InputCmdProto F) :
    (entry.next input).2 = InputBuffer.needsMagnitudeClamp
      (if entry.maxInputSeq < input.inputSeq then input else entry.selected).moveDir := by
  rw [next, clampSelected_eq]
  dsimp only
  split_ifs <;> rfl

/-- Every command that arrives leaves the slot with a clamped direction. -/
theorem needsMagnitudeClamp_arrive [F64.LawfulClamp F] {slot : Option (BufferEntry F)}
    {input : InputCmdProto F} {entry : BufferEntry F} (h : arrive slot input = some entry) :
    InputBuffer.needsMagnitudeClamp entry.selected.moveDir = false := by
  rcases slot with _ | entry₀
  · obtain rfl := Option.some.inj h
    rw [BufferEntry.first, BufferEntry.clampSelected_eq]
    exact InputBuffer.needsMagnitudeClamp_clampMagnitude _
  · obtain rfl := Option.some.inj h
    rw [BufferEntry.next, BufferEntry.clampSelected_eq]
    exact InputBuffer.needsMagnitudeClamp_clampMagnitude _

namespace Clamped

variable [F64.LawfulClamp F] {b : InputBuffer F}

theorem tryBuffer (h : Clamped b) (playerId : PlayerId) (input : InputCmdProto F) :
    Clamped (b.tryBuffer playerId input).1 := by
  intro key entry hentry
  by_cases hfull : Full b.perTickLimit (b.buffer.lookup (playerId, input.tick))
  · rw [InputBuffer.tryBuffer_of_full hfull] at hentry
    exact h key entry hentry
  · rw [InputBuffer.lookup_tryBuffer, (receive_of_not_full hfull input).1] at hentry
    split_ifs at hentry
    · exact needsMagnitudeClamp_arrive hentry
    · exact h key entry hentry

theorem validate (h : Clamped b) {b' : InputBuffer F} {input : InputCmdProto F}
    {currentTick floor : Tick} {playerId : PlayerId} {result : ValidationResult}
    (hvalidate : validateInput input currentTick floor b playerId = .ok (b', result)) :
    Clamped b' := by
  rw [validateInput_eq] at hvalidate
  rcases hscreen : screen b.config.maxFutureTicks currentTick floor input with e | _ | verdict <;>
    rw [hscreen] at hvalidate
  · cases hvalidate
  · obtain ⟨rfl, -⟩ := Prod.mk.inj (Except.ok.inj hvalidate)
    exact h.tryBuffer playerId input
  · obtain ⟨rfl, -⟩ := Prod.mk.inj (Except.ok.inj hvalidate)
    exact h

theorem of_reachable {config : ValidationConfig} (hb : b.Reachable config) : Clamped b := by
  induction hb with
  | new h =>
    obtain ⟨limit, -, heq⟩ := bind_eq_ok.1 h
    obtain rfl := Except.ok.inj heq
    exact fun key entry hentry => absurd hentry (by simp)
  | validate _ hvalidate ih => exact ih.validate hvalidate
  | tryBuffer _ playerId input ih => exact ih.tryBuffer playerId input
  | takeInput _ playerId tick ih =>
    intro key entry hentry
    rw [InputBuffer.lookup_takeInput] at hentry
    split_ifs at hentry
    exact ih key entry hentry
  | evictBefore _ tick ih =>
    intro key entry hentry
    rw [InputBuffer.lookup_evictBefore] at hentry
    split_ifs at hentry
    exact ih key entry hentry

end Clamped

/-- The slot keeps a command whose sequence number the new one does not exceed. -/
def Leads (slot : Option (BufferEntry F)) (input : InputCmdProto F) : Prop :=
  ∃ entry, slot = some entry ∧ input.inputSeq ≤ entry.maxInputSeq

/-- The result of a slot with room : clamped if the command is selected and overlong. -/
theorem receive_of_room [F64.LawfulClamp F] {b : InputBuffer F} (h : Clamped b)
    {playerId : PlayerId} {input : InputCmdProto F}
    (hroom : ¬Full b.perTickLimit (b.buffer.lookup (playerId, input.tick))) :
    ∃ clamped, (b.tryBuffer playerId input).2 = .accepted clamped ∧
      (clamped = true ↔ ¬Leads (b.buffer.lookup (playerId, input.tick)) input ∧
        InputBuffer.needsMagnitudeClamp input.moveDir = true) := by
  rw [InputBuffer.tryBuffer_result]
  rcases hslot : b.buffer.lookup (playerId, input.tick) with _ | entry
  · refine ⟨(BufferEntry.first input).2, rfl, ?_⟩
    rw [BufferEntry.first, BufferEntry.clampSelected_eq]
    have hleads : ¬Leads none input := by
      rintro ⟨entry, hentry, -⟩
      cases hentry
    exact (and_iff_right hleads).symm
  · rw [hslot] at hroom
    refine ⟨(entry.next input).2, ?_, ?_⟩
    · rw [BufferEntry.receive, if_neg fun hfull => hroom ⟨entry, rfl, hfull⟩]
    · have hleads : Leads (some entry) input ↔ ¬entry.maxInputSeq < input.inputSeq := by
        rw [UInt64.not_lt]
        constructor
        · rintro ⟨_, ⟨⟩, hle⟩
          exact hle
        · exact fun hle => ⟨entry, rfl, hle⟩
      rw [BufferEntry.next_flag, hleads, not_not]
      split_ifs with hlt
      · simp [hlt]
      · simp [hlt, h _ entry hslot]

end Buffer

/-! ## Exact arithmetic -/

variable {K : Type} [Field K] [LinearOrder K] [IsStrictOrderedRing K] {sqrt : K → K}
  {toBits : K → UInt64}

/-- The direction is longer than one. -/
def Overlong (moveDir : List K) : Prop := ∃ x y, moveDir = [x, y] ∧ 1 < x * x + y * y

/-- Whatever the call answers, it is `acceptedWithClamp` exactly if the command is accepted and
its own direction is longer than one. -/
def DescribesCommand (call : Except Panic (InputBuffer K × ValidationResult))
    (input : InputCmdProto K) : Prop :=
  ∀ b' result, call = .ok (b', result) →
    (result = .acceptedWithClamp ↔ result.isAccepted = true ∧ Overlong input.moveDir)

/-- A command that passes every check, is longer than one and is not selected. -/
structure Overlooked (b : InputBuffer K) (input : InputCmdProto K) (currentTick floor : Tick)
    (playerId : PlayerId) : Prop where
  current : max floor.toNat currentTick.toNat ≤ input.tick.toNat
  future : input.tick.toNat ≤ currentTick.toNat + b.config.maxFutureTicks.toNat
  noOverflow : currentTick.toNat + b.config.maxFutureTicks.toNat < 2 ^ 64
  trails : ∃ entry, b.buffer.lookup (playerId, input.tick) = some entry ∧
    entry.receiveCount < b.perTickLimit ∧ input.inputSeq ≤ entry.maxInputSeq
  overlong : Overlong input.moveDir

theorem needsMagnitudeClamp_iff {moveDir : List K} :
    @InputBuffer.needsMagnitudeClamp K (F64.ofField K sqrt toBits) moveDir = true ↔
      Overlong moveDir := by
  let := F64.ofField K sqrt toBits
  have hone : (F64.lit 1 : K) = 1 := Nat.cast_one
  unfold InputBuffer.needsMagnitudeClamp
  split
  · rename_i x y
    rw [hone]
    refine decide_eq_true_iff.trans ⟨fun h => ⟨x, y, rfl, h⟩, ?_⟩
    rintro ⟨x', y', hxy, h⟩
    obtain ⟨rfl, hy⟩ := List.cons.inj hxy
    obtain ⟨rfl, -⟩ := List.cons.inj hy
    exact h
  · rename_i hne
    simp only [Bool.false_eq_true, false_iff]
    rintro ⟨x, y, hxy, -⟩
    exact hne x y hxy

theorem finiteMoveDir_of_overlong {moveDir : List K} (h : Overlong moveDir) :
    @finiteMoveDir K (F64.ofField K sqrt toBits) moveDir = true := by
  obtain ⟨x, y, rfl, -⟩ := h
  rfl

/-- The verdict describes the command, except where an overlong command that is accepted is not
selected. -/
theorem verdict_iff (hsqrt : IsSqrt sqrt) {config : ValidationConfig} {b : InputBuffer K}
    (hb : @InputBuffer.Reachable K (F64.ofField K sqrt toBits) config b) (input : InputCmdProto K)
    (currentTick floor : Tick) (playerId : PlayerId) :
    DescribesCommand
        (@validateInput K (F64.ofField K sqrt toBits) input currentTick floor b playerId) input ↔
      ¬Overlooked b input currentTick floor playerId := by
  let := F64.ofField K sqrt toBits
  have := F64.lawfulClamp_ofField K sqrt toBits hsqrt
  have hclamped := Clamped.of_reachable hb
  rw [validateInput_eq]
  constructor
  · intro hdescribes hover
    obtain ⟨entry, hentry, hcount, hle⟩ := hover.trails
    have hroom : ¬Full b.perTickLimit (b.buffer.lookup (playerId, input.tick)) :=
      not_full_iff.2 fun e he => Option.some.inj (hentry.symm.trans he) ▸ hcount
    obtain ⟨verdict, hscreen, hpass⟩ := screen_of_lt hover.noOverflow input
    obtain rfl := hpass.2 ⟨finiteMoveDir_of_overlong hover.overlong, hover.current, hover.future⟩
    obtain ⟨clamped, hresult, hflag⟩ := receive_of_room hclamped hroom
    obtain rfl : clamped = false := by
      rw [← Bool.not_eq_true, hflag]
      exact fun h => h.1 ⟨entry, hentry, hle⟩
    rw [hscreen] at hdescribes
    have h := (hdescribes _ _ rfl).2
    rw [hresult] at h
    cases h ⟨rfl, hover.overlong⟩
  · intro hnot b' result hcall
    rcases hscreen : screen b.config.maxFutureTicks currentTick floor input with e | _ | verdict <;>
      rw [hscreen] at hcall
    · cases hcall
    · obtain ⟨-, rfl⟩ := Prod.mk.inj (Except.ok.inj hcall)
      by_cases hfull : Full b.perTickLimit (b.buffer.lookup (playerId, input.tick))
      · rw [InputBuffer.tryBuffer_of_full hfull]
        simp [BufferResult.verdict, ValidationResult.isAccepted]
      · obtain ⟨clamped, hresult, hflag⟩ := receive_of_room hclamped hfull
        rw [needsMagnitudeClamp_iff] at hflag
        have hselected : Overlong input.moveDir →
            ¬Leads (b.buffer.lookup (playerId, input.tick)) input := by
          rintro hlong ⟨entry, hentry, hle⟩
          obtain ⟨-, hfloor, hcurrent, hfuture, hlt⟩ := of_screen_eq_none hscreen
          exact hnot ⟨max_le hfloor hcurrent, hfuture, hlt,
            ⟨entry, hentry, not_full_iff.1 hfull entry hentry, hle⟩, hlong⟩
        rw [hresult]
        cases clamped with
        | true => simp [BufferResult.verdict, ValidationResult.isAccepted, (hflag.1 rfl).2]
        | false =>
          have hshort : ¬Overlong input.moveDir := fun hlong => by
            simpa using hflag.2 ⟨hselected hlong, hlong⟩
          simp [BufferResult.verdict, ValidationResult.isAccepted, hshort]
    · obtain ⟨-, rfl⟩ := Prod.mk.inj (Except.ok.inj hcall)
      have hdropped := not_isAccepted_of_screen hscreen
      refine iff_of_false (fun h => ?_) fun h => ?_
      · rw [h] at hdropped
        cases hdropped
      · rw [hdropped] at h
        cases h.1

/-- An overlong command that replaces the one its slot holds is answered with
`acceptedWithClamp`. -/
theorem verdict_of_newer : ∃ b : InputBuffer ℚ, b.Reachable ⟨60, 120, 30⟩ ∧
    (b.buffer.lookup (0, 5)).map BufferEntry.selected = some ⟨5, 1, [1, 0]⟩ ∧
    (validateInput ⟨5, 2, [3, 4]⟩ 0 0 b 0).map Prod.snd = .ok .acceptedWithClamp ∧
    DescribesCommand (validateInput ⟨5, 2, [3, 4]⟩ 0 0 b 0) ⟨5, 2, [3, 4]⟩ := by
  have h : (InputBuffer.new (F := ℚ) ⟨60, 120, 30⟩ >>= fun b =>
      validateInput ⟨5, 1, [1, 0]⟩ 0 0 b 0).map (fun x =>
        ((x.1.buffer.lookup (0, 5)).map (fun e => (e.selected, e.maxInputSeq)),
          (validateInput ⟨5, 2, [3, 4]⟩ 0 0 x.1 0).map Prod.snd)) =
      .ok (some (⟨5, 1, [1, 0]⟩, 1), .ok .acceptedWithClamp) := by
    decide +kernel
  obtain ⟨⟨b, first⟩, hb, heq⟩ := map_eq_ok.1 h
  obtain ⟨hslot, hresult⟩ := Prod.mk.inj heq
  obtain ⟨b₀, hnew, hfirst⟩ := bind_eq_ok.1 hb
  obtain ⟨entry, hentry, hselected⟩ := Option.map_eq_some_iff.1 hslot
  obtain ⟨hselected, hmax⟩ := Prod.mk.inj hselected
  have hreachable : b.Reachable ⟨60, 120, 30⟩ := .validate (.new hnew) hfirst
  refine ⟨b, hreachable, by rw [hentry, Option.map_some, hselected], hresult,
    (verdict_iff F64.le_ratSqrt_sq hreachable ⟨5, 2, [3, 4]⟩ 0 0 0).2 ?_⟩
  rintro ⟨-, -, -, ⟨entry', hentry', -, hle⟩, -⟩
  obtain rfl : entry = entry' := Option.some.inj (hentry.symm.trans hentry')
  rw [hmax] at hle
  exact absurd hle (by decide)

/-- An overlong command behind a newer one is answered with `accepted`. -/
theorem not_describes_older : ∃ b : InputBuffer ℚ, b.Reachable ⟨60, 120, 30⟩ ∧
    ¬DescribesCommand (validateInput ⟨5, 1, [3, 4]⟩ 0 0 b 0) ⟨5, 1, [3, 4]⟩ := by
  have h : ((InputBuffer.new (F := ℚ) ⟨60, 120, 30⟩ >>= fun b =>
      validateInput ⟨5, 2, [1, 0]⟩ 0 0 b 0) >>= fun x =>
        validateInput ⟨5, 1, [3, 4]⟩ 0 0 x.1 0).map Prod.snd = .ok .accepted := by
    decide +kernel
  obtain ⟨⟨b', result⟩, h, hresult⟩ := map_eq_ok.1 h
  obtain ⟨⟨b, first⟩, hfirst, hcall⟩ := bind_eq_ok.1 h
  obtain ⟨b₀, hnew, hvalidate⟩ := bind_eq_ok.1 hfirst
  refine ⟨b, .validate (.new hnew) hvalidate, fun hdescribes => ?_⟩
  obtain rfl : result = .accepted := hresult
  have hclamp := (hdescribes b' _ hcall).2 ⟨rfl, 3, 4, rfl, by norm_num⟩
  cases hclamp

end Flowstate
