import Flowstate.Refinement
import Flowstate.Slot

/-!
# What stays finite

The server admits no command with an infinite or NaN component (`finiteMoveDir`). So nothing in
a match is infinite or a NaN either, whatever is played (`tame_of_run`) : the clamps of the
buffer divide by a magnitude above one, the clamp of the movement leaves a small vector, and a
tick moves a character by what cannot take a finite position out of range. A position is never
`-0.0` on top of that.
-/

set_option linter.unusedSectionVars false

open Rust

namespace Flowstate

variable {F : Type} [F64 F]

/-- Both components are finite. -/
def FinitePair (v : F × F) : Prop := F64.Finite v.1 ∧ F64.Finite v.2

/-- Nothing in a lane is infinite or a NaN, and its position has no `-0.0`. -/
structure Lane.Tame (l : Lane F) : Prop where
  position : FinitePair l.position
  signed : ¬F64.NegZero l.position.1 ∧ ¬F64.NegZero l.position.2
  intent : FinitePair l.intent
  slots : ∀ t entry, l.slots t = some entry → FinitePair (Server.commandMoveDir entry.selected)

/-- Every lane is tame, and a tick has the length of one at a rate that is not zero. -/
structure Match.Tame (m : Match F) : Prop where
  lane : ∀ sid, (m.lane sid).Tame
  dtSeconds : ∃ n, 0 < n ∧ n < 2 ^ 32 ∧ m.rules.dtSeconds = F64.lit 1 / F64.lit n

theorem finite_commandMoveDir_of_admitted {c : InputCmdProto F}
    (h : finiteMoveDir c.moveDir = true) : FinitePair (Server.commandMoveDir c) := by
  rw [Server.commandMoveDir]
  revert h
  rcases c.moveDir with _ | ⟨x, _ | ⟨y, _ | ⟨z, rest⟩⟩⟩ <;> intro h
  · cases h
  · cases h
  · simp only [finiteMoveDir, Bool.not_eq_true', Bool.or_eq_false_iff] at h
    exact ⟨⟨h.1.1.1, h.1.1.2⟩, h.1.2, h.2⟩
  · cases h

section Range

variable [F64.LawfulRange F]

theorem finite_commandMoveDir_clamped {c : InputCmdProto F}
    (h : FinitePair (Server.commandMoveDir c)) : FinitePair (Server.commandMoveDir c.clamped) := by
  rw [Server.commandMoveDir, InputCmdProto.clamped]
  rw [Server.commandMoveDir] at h
  dsimp only
  revert h
  rcases c.moveDir with _ | ⟨x, _ | ⟨y, _ | ⟨z, rest⟩⟩⟩ <;> intro h
  · exact h
  · exact h
  · rw [InputBuffer.clampMagnitude]
    dsimp only at h ⊢
    split_ifs with hlong
    · exact ⟨F64.LawfulRange.finite_div_sqrt x _ h.1 hlong,
        F64.LawfulRange.finite_div_sqrt y _ h.2 hlong⟩
    · exact h
  · exact h

/-- A slot keeps a finite direction when an admitted command arrives. -/
theorem finite_of_receive {perTickLimit : UInt32} {slot : Option (BufferEntry F)}
    {input : InputCmdProto F} {entry : BufferEntry F}
    (hslot : ∀ e, slot = some e → FinitePair (Server.commandMoveDir e.selected))
    (hinput : finiteMoveDir input.moveDir = true)
    (h : (BufferEntry.receive perTickLimit slot input).1 = some entry) :
    FinitePair (Server.commandMoveDir entry.selected) := by
  have hnew := finite_commandMoveDir_of_admitted hinput
  rcases slot with _ | old
  · obtain rfl := Option.some.inj h
    rw [BufferEntry.first, BufferEntry.clampSelected_eq]
    exact finite_commandMoveDir_clamped hnew
  · have hold := hslot old rfl
    rw [BufferEntry.receive] at h
    split_ifs at h with hfull
    · obtain rfl := Option.some.inj h
      exact hold
    · obtain rfl := Option.some.inj h
      rw [BufferEntry.next, BufferEntry.clampSelected_eq]
      refine finite_commandMoveDir_clamped ?_
      dsimp only
      split_ifs
      · exact hnew
      · exact hold
      · exact hold

/-- A character stays at a finite position, whatever finite direction moves it. -/
theorem finite_move {position moveDir : F × F} {n : ℕ} (hpos : 0 < n) (hlt : n < 2 ^ 32)
    (hp : FinitePair position) (hd : FinitePair moveDir) :
    FinitePair (position.1 + (Character.velocityOf moveDir).1 * (F64.lit 1 / F64.lit n),
      position.2 + (Character.velocityOf moveDir).2 * (F64.lit 1 / F64.lit n)) := by
  have hsmall : F64.Small (clampMagnitude moveDir (F64.lit 1)).1 ∧
      F64.Small (clampMagnitude moveDir (F64.lit 1)).2 := by
    rw [clampMagnitude]
    dsimp only
    split_ifs with hle
    · exact F64.LawfulRange.small_of_le _ _ hd.1 hd.2 hle
    · exact F64.LawfulRange.small_scaled _ _ hd.1 hd.2 (by simpa using hle)
  exact ⟨F64.LawfulRange.finite_move _ _ n hpos hlt hp.1 hsmall.1,
    F64.LawfulRange.finite_move _ _ n hpos hlt hp.2 hsmall.2⟩

theorem finitePair_zero : FinitePair ((F64.lit 0, F64.lit 0) : F × F) :=
  ⟨F64.LawfulRange.finite_zero, F64.LawfulRange.finite_zero⟩

theorem Lane.Tame.choice {l : Lane F} (h : l.Tame) (t : Tick) : FinitePair (l.choice t).1 := by
  rw [Lane.choice, chooseInput]
  rcases htaken : BufferEntry.taken (l.slots t) with _ | cmd
  · exact h.intent
  · obtain ⟨entry, hentry, hcmd⟩ := Option.bind_eq_some_iff.1 htaken
    split_ifs at hcmd
    obtain rfl := Option.some.inj hcmd
    exact h.slots t entry hentry

end Range

/-! ## Every operation -/

section Tame

variable [F64.LawfulZero F] [F64.LawfulRange F]

theorem not_negZero_zero : ¬F64.NegZero (F64.lit 0 : F) := fun h => h.2 rfl

theorem tame_fresh : (Lane.fresh : Lane F).Tame :=
  ⟨finitePair_zero, ⟨not_negZero_zero, not_negZero_zero⟩, finitePair_zero, nofun⟩

theorem Lane.Tame.advance {l : Lane F} (h : l.Tame) {n : ℕ} (hpos : 0 < n) (hlt : n < 2 ^ 32)
    (tick next floor : Tick) : (l.advance (F64.lit 1 / F64.lit n) tick next floor).Tame := by
  refine ⟨finite_move hpos hlt h.position (h.choice tick),
    ⟨F64.LawfulZero.not_negZero_add _ _ h.signed.1, F64.LawfulZero.not_negZero_add _ _ h.signed.2⟩,
    h.choice tick, fun t entry hentry => ?_⟩
  rw [Lane.advance] at hentry
  dsimp only at hentry
  split_ifs at hentry
  exact h.slots t entry hentry

theorem tame_of_exec {m m' : Match F} {op : Op F} {o : Out F} (h : m.Tame)
    (hexec : m.exec op = .ok (m', o)) : m'.Tame := by
  have hset : ∀ sid l, l.Tame → (m.setLane sid l).Tame := by
    refine fun sid l hl => ⟨fun sid' => ?_, h.dtSeconds⟩
    rw [Match.lane_setLane]
    split_ifs
    · exact hl
    · exact h.lane sid'
  cases Match.steps_of_exec hexec with
  | join =>
    have hl := h.lane (Match.sessionAt m.joined)
    have hjoin := hset (Match.sessionAt m.joined) _
      (show (m.lane (Match.sessionAt m.joined)).join.Tame from
        ⟨hl.position, hl.signed, hl.intent, hl.slots⟩)
    exact ⟨hjoin.lane, hjoin.dtSeconds⟩
  | welcome =>
    exact hset _ _ ⟨(h.lane _).position, (h.lane _).signed, (h.lane _).intent, (h.lane _).slots⟩
  | leave =>
    exact hset _ _ ⟨(h.lane _).position, (h.lane _).signed, finitePair_zero, (h.lane _).slots⟩
  | unknown | drop | absent => exact h
  | buffer _ hscreen =>
    rename_i sid input _
    have hl := h.lane sid
    refine hset _ _ ⟨hl.position, hl.signed, hl.intent, fun t entry hentry => ?_⟩
    rw [Lane.buffer] at hentry
    dsimp only at hentry
    by_cases ht : t = input.tick
    · rw [ht, Function.update_self] at hentry
      exact finite_of_receive (hl.slots input.tick) (of_screen_eq_none hscreen).1 hentry
    · rw [Function.update_of_ne ht] at hentry
      exact hl.slots t entry hentry
  | tick =>
    obtain ⟨n, hpos, hlt, hdt⟩ := h.dtSeconds
    refine ⟨fun sid => ?_, n, hpos, hlt, hdt⟩
    rw [Match.lane_advance, hdt]
    split_ifs
    · exact (h.lane sid).advance hpos hlt _ _ _
    · exact h.lane sid

theorem tame_of_run {rules : Rules F} {ops : List (Op F)} {m : Match F} {outs : List (Out F)}
    (hdt : ∃ n, 0 < n ∧ n < 2 ^ 32 ∧ rules.dtSeconds = F64.lit 1 / F64.lit n)
    (hrun : (matchMachine F).run (Match.new rules) ops = .ok (m, outs)) : m.Tame :=
  Machine.run_invariant (P := Match.Tame) (fun _ _ _ _ h hexec => tame_of_exec h hexec)
    ⟨fun _ => tame_fresh, hdt⟩ hrun

end Tame

end Flowstate
