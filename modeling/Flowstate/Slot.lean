import Flowstate.Operations

/-!
# What a slot remembers

A slot of the buffer summarizes the commands accepted for one player and tick as they
arrive (`summarize`) : the greatest sequence number, whether it was seen twice, the command
it was first seen with, clamped anew at each arrival. In exact arithmetic clamping twice is
clamping once, and then the summary says which commands won (`winners`, `taken_summarize`)
: those with the greatest sequence number, of which only a single one is used. Order does
not matter to the winners, so neither does it to what a slot yields or answers later
(`SameSlot`).
-/

set_option linter.unusedSectionVars false

open Rust

namespace Flowstate

variable {F : Type} [F64 F]

/-- The command with its direction clamped to magnitude one. -/
def InputCmdProto.clamped (c : InputCmdProto F) : InputCmdProto F :=
  { c with moveDir := InputBuffer.clampMagnitude c.moveDir }

/-- The commands with the greatest sequence number. -/
def winners (commands : List (InputCmdProto F)) : List (InputCmdProto F) :=
  commands.filter fun c => commands.all fun d => d.inputSeq ≤ c.inputSeq

/-- The slot after one more accepted command. -/
def arrive (slot : Option (BufferEntry F)) (c : InputCmdProto F) : Option (BufferEntry F) :=
  match slot with
  | none => some (BufferEntry.first c).1
  | some entry => some (entry.next c).1

/-- The slot after the commands, in order of arrival. -/
def summarize (commands : List (InputCmdProto F)) : Option (BufferEntry F) :=
  commands.foldl arrive none

@[simp] theorem summarize_append (commands : List (InputCmdProto F)) (c : InputCmdProto F) :
    summarize (commands ++ [c]) = arrive (summarize commands) c := by
  simp [summarize]

/-- A slot that has seen as many commands as it may. -/
def Full (perTickLimit : UInt32) (slot : Option (BufferEntry F)) : Prop :=
  ∃ entry, slot = some entry ∧ perTickLimit ≤ entry.receiveCount

/-- A full slot stays as it is. -/
theorem receive_of_full {perTickLimit : UInt32} {slot : Option (BufferEntry F)}
    (h : Full perTickLimit slot) (c : InputCmdProto F) :
    BufferEntry.receive perTickLimit slot c = (slot, .rateLimited) := by
  obtain ⟨entry, rfl, hfull⟩ := h
  rw [BufferEntry.receive, if_pos hfull]

theorem InputBuffer.tryBuffer_of_full {b : InputBuffer F} {playerId : PlayerId}
    {input : InputCmdProto F}
    (h : Full b.perTickLimit (b.buffer.lookup (playerId, input.tick))) :
    b.tryBuffer playerId input = (b, .rateLimited) := by
  obtain ⟨entry, hentry, hfull⟩ := h
  simp [tryBuffer, hentry, hfull]

/-- A slot that is not full accepts a command. -/
theorem receive_of_not_full {perTickLimit : UInt32} {slot : Option (BufferEntry F)}
    (h : ¬Full perTickLimit slot) (c : InputCmdProto F) :
    (BufferEntry.receive perTickLimit slot c).1 = arrive slot c ∧
      (BufferEntry.receive perTickLimit slot c).2.verdict.isAccepted = true := by
  have hverdict : ∀ clamped, (BufferResult.accepted clamped).verdict.isAccepted = true := by decide
  rcases slot with _ | entry
  · exact ⟨rfl, hverdict _⟩
  · rw [BufferEntry.receive, if_neg fun hfull => h ⟨entry, rfl, hfull⟩]
    exact ⟨rfl, hverdict _⟩

/-! ## Clamping -/

namespace InputBuffer

theorem clampMagnitude_of_not_needs {moveDir : List F} (h : needsMagnitudeClamp moveDir = false) :
    clampMagnitude moveDir = moveDir := by
  unfold clampMagnitude
  split
  · rename_i x y
    rw [needsMagnitudeClamp] at h
    simp [h]
  · rfl

/-- A clamped direction needs no clamp. -/
theorem needsMagnitudeClamp_clampMagnitude [F64.LawfulClamp F] (moveDir : List F) :
    needsMagnitudeClamp (clampMagnitude moveDir) = false := by
  unfold clampMagnitude
  split
  · rename_i x y
    dsimp only
    split_ifs with hlt
    · exact F64.LawfulClamp.not_lt_normalized x y hlt
    · simpa [needsMagnitudeClamp] using hlt
  · rename_i hne
    unfold needsMagnitudeClamp
    split
    · exact absurd rfl (hne _ _)
    · rfl

end InputBuffer

theorem InputCmdProto.clamped_clamped [F64.LawfulClamp F] (c : InputCmdProto F) :
    c.clamped.clamped = c.clamped := by
  have h := InputBuffer.needsMagnitudeClamp_clampMagnitude c.moveDir
  rw [clamped, clamped, InputBuffer.clampMagnitude_of_not_needs h]

namespace BufferEntry

theorem clampSelected_eq (entry : BufferEntry F) :
    entry.clampSelected = ({ entry with selected := entry.selected.clamped },
      InputBuffer.needsMagnitudeClamp entry.selected.moveDir) := by
  unfold clampSelected
  dsimp only
  split_ifs with h
  · rfl
  · rw [InputCmdProto.clamped, InputBuffer.clampMagnitude_of_not_needs (by simpa using h)]

end BufferEntry

/-! ## The summary -/

/-- The entry is right about the commands : their greatest sequence number, the first of
the commands that have it, whether there are more of them, and how many commands there are. -/
structure Summarizes (commands : List (InputCmdProto F)) (entry : BufferEntry F) : Prop where
  le_max : ∀ c ∈ commands, c.inputSeq ≤ entry.maxInputSeq
  selected : ∃ c rest, commands.filter (fun d => d.inputSeq == entry.maxInputSeq) = c :: rest ∧
    entry.selected = c.clamped ∧ (entry.maxSeqTied = true ↔ rest ≠ [])
  count : entry.receiveCount = UInt32.ofNat commands.length

namespace Summarizes

variable {commands : List (InputCmdProto F)} {entry : BufferEntry F}

theorem first (c : InputCmdProto F) : Summarizes [c] (BufferEntry.first c).1 := by
  rw [BufferEntry.first, BufferEntry.clampSelected_eq]
  refine ⟨?_, ⟨c, [], ?_, rfl, by simp⟩, rfl⟩
  · simp
  · simp

/-- A further command keeps the entry right, whether it leads, ties or trails. -/
theorem next [F64.LawfulClamp F] (h : Summarizes commands entry) (c : InputCmdProto F) :
    Summarizes (commands ++ [c]) (entry.next c).1 := by
  obtain ⟨d, rest, hfilter, hselected, htied⟩ := h.selected
  have hcount : entry.receiveCount + 1 = UInt32.ofNat (commands ++ [c]).length := by
    rw [h.count, List.length_append, List.length_singleton, UInt32.ofNat_add]
    rfl
  rw [BufferEntry.next, BufferEntry.clampSelected_eq]
  by_cases hlead : entry.maxInputSeq < c.inputSeq
  · have hnone : commands.filter (fun d => d.inputSeq == c.inputSeq) = [] := by
      refine List.filter_eq_nil_iff.2 fun d hd heq => ?_
      have hle := h.le_max d hd
      rw [beq_iff_eq.1 heq] at hle
      exact absurd hlead (UInt64.not_lt.2 hle)
    simp only [hlead, if_true]
    refine ⟨fun d hd => ?_, ⟨c, [], ?_, rfl, by simp⟩, hcount⟩
    · rcases List.mem_append.1 hd with hd | hd
      · exact UInt64.le_trans (h.le_max d hd) (UInt64.le_of_lt hlead)
      · rw [List.mem_singleton.1 hd]
        exact UInt64.le_refl _
    · simp [List.filter_append, hnone]
  · have hle : ∀ d ∈ commands ++ [c], d.inputSeq ≤ entry.maxInputSeq := by
      intro d hd
      rcases List.mem_append.1 hd with hd | hd
      · exact h.le_max d hd
      · rw [List.mem_singleton.1 hd]
        exact UInt64.not_lt.1 hlead
    have hclamped : entry.selected.clamped = d.clamped := by
      rw [hselected, InputCmdProto.clamped_clamped]
    simp only [hlead, if_false]
    by_cases htie : c.inputSeq = entry.maxInputSeq
    · simp only [htie, if_true]
      refine ⟨hle, ⟨d, rest ++ [c], ?_, hclamped, by simp⟩, hcount⟩
      simp [List.filter_append, hfilter, htie]
    · simp only [htie, if_false]
      refine ⟨hle, ⟨d, rest, ?_, hclamped, htied⟩, hcount⟩
      simp [List.filter_append, hfilter, htie]

theorem exists_max (h : Summarizes commands entry) :
    ∃ c ∈ commands, c.inputSeq = entry.maxInputSeq := by
  obtain ⟨c, rest, hfilter, -, -⟩ := h.selected
  obtain ⟨hc, hmax⟩ := List.mem_filter.1 (hfilter ▸ List.mem_cons_self)
  exact ⟨c, hc, beq_iff_eq.1 hmax⟩

/-- The greatest sequence number does not depend on the order of arrival. -/
theorem max_eq {commands' : List (InputCmdProto F)} {entry' : BufferEntry F}
    (h : Summarizes commands entry) (h' : Summarizes commands' entry')
    (hperm : commands.Perm commands') : entry.maxInputSeq = entry'.maxInputSeq := by
  obtain ⟨c, hc, hmax⟩ := h.exists_max
  obtain ⟨c', hc', hmax'⟩ := h'.exists_max
  exact UInt64.le_antisymm (hmax ▸ h'.le_max c (hperm.mem_iff.1 hc))
    (hmax' ▸ h.le_max c' (hperm.mem_iff.2 hc'))

/-- The winners are the commands with the entry's greatest sequence number. -/
theorem winners_eq (h : Summarizes commands entry) :
    winners commands = commands.filter fun d => d.inputSeq == entry.maxInputSeq := by
  obtain ⟨c, hc, hmax⟩ := h.exists_max
  refine List.filter_congr fun d hd => ?_
  rw [Bool.eq_iff_iff, List.all_eq_true, beq_iff_eq]
  constructor
  · intro hall
    have hle : c.inputSeq ≤ d.inputSeq := by simpa using hall c hc
    exact UInt64.le_antisymm (h.le_max d hd) (hmax ▸ hle)
  · intro heq d' hd'
    simpa [heq] using h.le_max d' hd'

end Summarizes

variable [F64.LawfulClamp F]

theorem summarizes_summarize (commands : List (InputCmdProto F)) (c : InputCmdProto F) :
    ∃ entry, summarize (commands ++ [c]) = some entry ∧ Summarizes (commands ++ [c]) entry := by
  induction commands using List.reverseRecOn generalizing c with
  | nil => exact ⟨_, rfl, Summarizes.first c⟩
  | append_singleton commands d ih =>
    obtain ⟨entry, hentry, h⟩ := ih d
    refine ⟨(entry.next c).1, ?_, h.next c⟩
    rw [summarize_append, hentry]
    rfl

theorem eq_nil_of_summarize {commands : List (InputCmdProto F)} (h : summarize commands = none) :
    commands = [] := by
  rcases List.eq_nil_or_concat commands with rfl | ⟨commands, c, rfl⟩
  · rfl
  · obtain ⟨entry, hentry, -⟩ := summarizes_summarize commands c
    rw [List.concat_eq_append, hentry] at h
    cases h

/-- The entry of a slot is right about the commands that arrived. -/
theorem summarizes_of_eq_some {commands : List (InputCmdProto F)} {entry : BufferEntry F}
    (h : summarize commands = some entry) : Summarizes commands entry := by
  rcases List.eq_nil_or_concat commands with rfl | ⟨commands, c, rfl⟩
  · cases h
  · rw [List.concat_eq_append] at h ⊢
    obtain ⟨entry', hentry, hsummary⟩ := summarizes_summarize commands c
    rwa [Option.some.inj (h.symm.trans hentry)]

/-- What a slot yields is its only winner, clamped, if there is only one. -/
theorem taken_summarize (commands : List (InputCmdProto F)) :
    BufferEntry.taken (summarize commands) =
      match winners commands with
      | [c] => some c.clamped
      | _ => none := by
  rcases hentry : summarize commands with _ | entry
  · rw [eq_nil_of_summarize hentry]
    rfl
  · have h := summarizes_of_eq_some hentry
    obtain ⟨d, rest, hfilter, hselected, htied⟩ := h.selected
    rw [h.winners_eq, hfilter, BufferEntry.taken, Option.bind_some]
    rcases rest with _ | ⟨d', rest⟩
    · rw [if_neg (by simpa using htied), hselected]
    · rw [if_pos (by simpa using htied)]

/-! ## Order of arrival -/

/-- Two slots that saw the same commands, in whatever order. -/
def SameSlot (slot slot' : Option (BufferEntry F)) : Prop :=
  ∃ commands commands', commands.Perm commands' ∧ slot = summarize commands ∧
    slot' = summarize commands'

theorem winners_perm {commands commands' : List (InputCmdProto F)}
    (h : commands.Perm commands') : (winners commands).Perm (winners commands') := by
  have hall : (fun c : InputCmdProto F => commands.all fun d => decide (d.inputSeq ≤ c.inputSeq)) =
      fun c => commands'.all fun d => decide (d.inputSeq ≤ c.inputSeq) := by
    ext c
    rw [h.all_eq]
  rw [winners, winners, hall]
  exact h.filter _

namespace SameSlot

variable {slot slot' : Option (BufferEntry F)}

theorem arrive (h : SameSlot slot slot') (c : InputCmdProto F) :
    SameSlot (arrive slot c) (Flowstate.arrive slot' c) := by
  obtain ⟨commands, commands', hperm, rfl, rfl⟩ := h
  exact ⟨commands ++ [c], commands' ++ [c], hperm.append_right [c], by simp, by simp⟩

theorem none : SameSlot (none : Option (BufferEntry F)) .none := ⟨[], [], .refl _, rfl, rfl⟩

/-- The same command is used. -/
theorem taken_eq (h : SameSlot slot slot') :
    BufferEntry.taken slot = BufferEntry.taken slot' := by
  obtain ⟨commands, commands', hperm, rfl, rfl⟩ := h
  have hwinners := winners_perm hperm
  rw [taken_summarize, taken_summarize]
  rcases hw : winners commands with _ | ⟨c, _ | ⟨d, rest⟩⟩
  · rw [hw] at hwinners
    rw [List.nil_perm.1 hwinners]
  · rw [hw] at hwinners
    rw [List.singleton_perm.1 hwinners]
  · rw [hw] at hwinners
    rcases hw' : winners commands' with _ | ⟨c', _ | ⟨d', rest'⟩⟩
    · rfl
    · rw [hw'] at hwinners
      simpa using hwinners.length_eq
    · rfl

/-- A further command needs the clamp if it leads and is longer than one. -/
theorem next_clamped {commands : List (InputCmdProto F)} {entry : BufferEntry F}
    (h : Summarizes commands entry) (c : InputCmdProto F) :
    (entry.next c).2 = (decide (entry.maxInputSeq < c.inputSeq) &&
      InputBuffer.needsMagnitudeClamp c.moveDir) := by
  obtain ⟨d, rest, -, hselected, -⟩ := h.selected
  have hneeds : InputBuffer.needsMagnitudeClamp entry.selected.moveDir = false := by
    rw [hselected]
    exact InputBuffer.needsMagnitudeClamp_clampMagnitude d.moveDir
  rw [BufferEntry.next, BufferEntry.clampSelected_eq]
  by_cases hlead : entry.maxInputSeq < c.inputSeq
  · simp [hlead]
  · by_cases htie : c.inputSeq = entry.maxInputSeq <;> simp [hlead, htie, hneeds]

/-- A further command is answered alike, and the slots stay the same. -/
theorem receive (h : SameSlot slot slot') (perTickLimit : UInt32) (c : InputCmdProto F) :
    SameSlot (BufferEntry.receive perTickLimit slot c).1
        (BufferEntry.receive perTickLimit slot' c).1 ∧
      (BufferEntry.receive perTickLimit slot c).2 =
        (BufferEntry.receive perTickLimit slot' c).2 := by
  have hsame := h
  obtain ⟨commands, commands', hperm, hslot, hslot'⟩ := h
  rcases slot with _ | entry
  · rw [eq_nil_of_summarize hslot.symm, List.nil_perm] at hperm
    rw [hslot', hperm]
    exact ⟨SameSlot.none.arrive c, rfl⟩
  · rcases slot' with _ | entry'
    · rw [eq_nil_of_summarize hslot'.symm, List.perm_nil] at hperm
      rw [hperm] at hslot
      cases hslot
    · have hs := summarizes_of_eq_some hslot.symm
      have hs' := summarizes_of_eq_some hslot'.symm
      have hcount : entry.receiveCount = entry'.receiveCount := by
        rw [hs.count, hs'.count, hperm.length_eq]
      have hmax : entry.maxInputSeq = entry'.maxInputSeq := hs.max_eq hs' hperm
      rw [BufferEntry.receive, BufferEntry.receive, hcount]
      split_ifs
      · exact ⟨hsame, rfl⟩
      · exact ⟨hsame.arrive c, by rw [next_clamped hs, next_clamped hs', hmax]⟩

end SameSlot

end Flowstate
