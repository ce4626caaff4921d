import Flowstate.Wire

/-!
# Input buffering and validation

`InputBuffer` with its per-tick rate limit (`crates/server/src/input_buffer.rs`) and
`validateInput` in front of it (`crates/server/src/validation.rs`). The buffer holds one
entry per player and tick : the command with the greatest `inputSeq` so far, whether that
number was seen again, and how many commands were accepted.

An operation acts on the slot of its own key only (`lookup_tryBuffer`, `lookup_takeInput`,
`lookup_evictBefore`). On that slot `tryBuffer` is `BufferEntry.receive`, after the checks of
`screen`, which read the command, the tick and the floor but no slot (`validateInput_eq`).
-/

open Rust

namespace Flowstate

/-- Validation configuration. -/
structure ValidationConfig where
  maxFutureTicks : UInt64
  inputRateLimitPerSec : UInt32
  tickRateHz : UInt32
deriving DecidableEq

/-- Result of attempting to buffer an input. -/
inductive BufferResult
  | accepted (clamped : Bool)
  | rateLimited
  | inputSeqTie
deriving DecidableEq

/-- Entry of one player and tick. -/
structure BufferEntry (F : Type) where
  selected : InputCmdProto F
  maxInputSeq : UInt64
  maxSeqTied : Bool
  receiveCount : UInt32
deriving DecidableEq

/-- Commands buffered by player and tick. -/
structure InputBuffer (F : Type) where
  config : ValidationConfig
  buffer : HashMap (PlayerId × Tick) (BufferEntry F)
  perTickLimit : UInt32

/-- `u32::div_ceil`. -/
def divCeil (a b : UInt32) : Except Panic UInt32 :=
  if b = 0 then .error ⟨"attempt to divide by zero"⟩
  else if a % b = 0 then .ok (a / b)
  else .ok (a / b + 1)

variable {F : Type} [F64 F]

/-- Whether the magnitude exceeds 1.0. -/
def InputBuffer.needsMagnitudeClamp : List F → Bool
  | [x, y] => F64.lt (F64.lit 1) (x * x + y * y)
  | _ => false

/-- Clamp the magnitude to 1.0. -/
def InputBuffer.clampMagnitude : List F → List F
  | [x, y] =>
    let magSq := x * x + y * y
    if F64.lt (F64.lit 1) magSq then [x / F64.sqrt magSq, y / F64.sqrt magSq] else [x, y]
  | moveDir => moveDir

namespace BufferEntry

/-- Clamp the selected command's direction. -/
def clampSelected (entry : BufferEntry F) : BufferEntry F × Bool :=
  let clamped := InputBuffer.needsMagnitudeClamp entry.selected.moveDir
  if clamped then
    let moveDir := InputBuffer.clampMagnitude entry.selected.moveDir
    ({ entry with selected := { entry.selected with moveDir } }, clamped)
  else (entry, clamped)

/-- The entry of a tick's first command. -/
def first (input : InputCmdProto F) : BufferEntry F × Bool :=
  clampSelected ⟨input, input.inputSeq, false, 1⟩

/-- A further command. A greater sequence number is selected and clears the tie, an equal one
sets it, a lower one is counted only. -/
def next (entry : BufferEntry F) (input : InputCmdProto F) : BufferEntry F × Bool :=
  -- The count is below the per-tick limit here, so its increment cannot overflow.
  let entry := { entry with receiveCount := entry.receiveCount + 1 }
  let entry :=
    if entry.maxInputSeq < input.inputSeq then
      { entry with maxInputSeq := input.inputSeq, maxSeqTied := false, selected := input }
    else if input.inputSeq = entry.maxInputSeq then { entry with maxSeqTied := true }
    else entry
  clampSelected entry

end BufferEntry

namespace InputBuffer

omit [F64 F] in
/-- An empty buffer with `perTickLimit = ceil(inputRateLimitPerSec / tickRateHz)`. -/
def new (config : ValidationConfig) : Except Panic (InputBuffer F) := do
  let perTickLimit ← divCeil config.inputRateLimitPerSec config.tickRateHz
  return ⟨config, ∅, perTickLimit⟩

/-- Try to buffer an input of the player. -/
def tryBuffer (b : InputBuffer F) (playerId : PlayerId) (input : InputCmdProto F) :
    InputBuffer F × BufferResult :=
  let key := (playerId, input.tick)
  match b.buffer.lookup key with
  | some entry =>
    if b.perTickLimit ≤ entry.receiveCount then (b, .rateLimited)
    else
      let (entry, clamped) := entry.next input
      ({ b with buffer := b.buffer.insert key entry }, .accepted clamped)
  | none =>
    let (entry, clamped) := BufferEntry.first input
    ({ b with buffer := b.buffer.insert key entry }, .accepted clamped)

omit [F64 F] in
/-- Take the selected input of a player and tick out of the buffer. A tied one is dropped. -/
def takeInput (b : InputBuffer F) (playerId : PlayerId) (tick : Tick) :
    InputBuffer F × Option (InputCmdProto F) :=
  let key := (playerId, tick)
  match b.buffer.lookup key with
  | none => (b, none)
  | some entry =>
    let b := { b with buffer := b.buffer.erase key }
    if entry.maxSeqTied then (b, none) else (b, some entry.selected)

omit [F64 F] in
/-- Evict the entries for ticks before `tick`. -/
def evictBefore (b : InputBuffer F) (tick : Tick) : InputBuffer F :=
  { b with buffer := b.buffer.retain fun key _ => tick ≤ key.2 }

end InputBuffer

/-- Result of input validation. -/
inductive ValidationResult
  | accepted
  | acceptedWithClamp
  | droppedNanInf
  | droppedBelowFloor (tick floor : Tick)
  | droppedLate (tick current : Tick)
  | droppedTooFuture (tick max : Tick)
  | droppedRateLimit
  | droppedInputSeqTie
  | droppedUnknownSession
deriving DecidableEq

def ValidationResult.isAccepted : ValidationResult → Bool
  | .accepted | .acceptedWithClamp => true
  | _ => false

/-- The verdict on a buffering attempt. -/
def BufferResult.verdict : BufferResult → ValidationResult
  | .accepted clamped => if clamped then .acceptedWithClamp else .accepted
  | .rateLimited => .droppedRateLimit
  | .inputSeqTie => .droppedInputSeqTie

/-- Exactly two components, both finite. -/
def finiteMoveDir : List F → Bool
  | [x, y] => !(F64.isNan x || F64.isInfinite x || F64.isNan y || F64.isInfinite y)
  | _ => false

/-- Validate an input command of the player, and buffer it. -/
def validateInput (input : InputCmdProto F) (currentTick targetTickFloor : Tick)
    (buffer : InputBuffer F) (playerId : PlayerId) :
    Except Panic (InputBuffer F × ValidationResult) :=
  if !finiteMoveDir input.moveDir then .ok (buffer, .droppedNanInf)
  else if input.tick < targetTickFloor then
    .ok (buffer, .droppedBelowFloor input.tick targetTickFloor)
  else if input.tick < currentTick then .ok (buffer, .droppedLate input.tick currentTick)
  else do
    let maxTick ← addU64 currentTick buffer.config.maxFutureTicks
    if maxTick < input.tick then return (buffer, .droppedTooFuture input.tick maxTick)
    let (buffer, result) := buffer.tryBuffer playerId input
    return (buffer, result.verdict)

/-! ## One slot at a time -/

namespace BufferEntry

/-- What `tryBuffer` does to the slot of its key. -/
def receive (perTickLimit : UInt32) (slot : Option (BufferEntry F)) (input : InputCmdProto F) :
    Option (BufferEntry F) × BufferResult :=
  match slot with
  | some entry =>
    if perTickLimit ≤ entry.receiveCount then (slot, .rateLimited)
    else (some (entry.next input).1, .accepted (entry.next input).2)
  | none => (some (first input).1, .accepted (first input).2)

omit [F64 F] in
/-- What `takeInput` takes out of the slot of its key. -/
def taken (slot : Option (BufferEntry F)) : Option (InputCmdProto F) :=
  slot.bind fun entry => if entry.maxSeqTied then none else some entry.selected

end BufferEntry

namespace InputBuffer

/-- A command writes its slot, unless the slot is full. -/
theorem tryBuffer_eq (b : InputBuffer F) (playerId : PlayerId) (input : InputCmdProto F) :
    b.tryBuffer playerId input =
      match BufferEntry.receive b.perTickLimit (b.buffer.lookup (playerId, input.tick)) input with
      | (some entry, .accepted clamped) =>
        ({ b with buffer := b.buffer.insert (playerId, input.tick) entry }, .accepted clamped)
      | (_, result) => (b, result) := by
  unfold BufferEntry.receive
  rcases he : b.buffer.lookup (playerId, input.tick) with _ | entry
  · simp [tryBuffer, he]
  · by_cases hlim : b.perTickLimit ≤ entry.receiveCount <;> simp [tryBuffer, he, hlim]

/-- A command fills its slot, or leaves a full one. -/
theorem receive_cases (perTickLimit : UInt32) (slot : Option (BufferEntry F))
    (input : InputCmdProto F) :
    (∃ entry clamped, BufferEntry.receive perTickLimit slot input =
      (some entry, .accepted clamped)) ∨
    BufferEntry.receive perTickLimit slot input = (slot, .rateLimited) := by
  rcases slot with _ | entry
  · exact .inl ⟨_, _, rfl⟩
  · by_cases hlim : perTickLimit ≤ entry.receiveCount
    · exact .inr (by simp [BufferEntry.receive, hlim])
    · refine .inl ⟨(entry.next input).1, (entry.next input).2, ?_⟩
      simp only [BufferEntry.receive, hlim, if_false]

theorem tryBuffer_result (b : InputBuffer F) (playerId : PlayerId) (input : InputCmdProto F) :
    (b.tryBuffer playerId input).2 =
      (BufferEntry.receive b.perTickLimit (b.buffer.lookup (playerId, input.tick)) input).2 := by
  rw [tryBuffer_eq]
  obtain ⟨entry, clamped, h⟩ | h :=
    receive_cases b.perTickLimit (b.buffer.lookup (playerId, input.tick)) input <;> simp [h]

theorem lookup_tryBuffer (b : InputBuffer F) (playerId : PlayerId) (input : InputCmdProto F)
    (key : PlayerId × Tick) :
    (b.tryBuffer playerId input).1.buffer.lookup key =
      if key = (playerId, input.tick) then
        (BufferEntry.receive b.perTickLimit (b.buffer.lookup (playerId, input.tick)) input).1
      else b.buffer.lookup key := by
  rw [tryBuffer_eq]
  obtain ⟨entry, clamped, h⟩ | h :=
    receive_cases b.perTickLimit (b.buffer.lookup (playerId, input.tick)) input
  · simp [h, HashMap.lookup_insert]
  · by_cases hk : key = (playerId, input.tick)
    · subst hk
      simp [h]
    · simp [h, hk]

/-- Buffering changes the entries only. -/
theorem tryBuffer_frame (b : InputBuffer F) (playerId : PlayerId) (input : InputCmdProto F) :
    (b.tryBuffer playerId input).1.config = b.config ∧
      (b.tryBuffer playerId input).1.perTickLimit = b.perTickLimit := by
  rw [tryBuffer_eq]
  obtain ⟨entry, clamped, h⟩ | h :=
    receive_cases b.perTickLimit (b.buffer.lookup (playerId, input.tick)) input <;> simp [h]

omit [F64 F] in
theorem takeInput_eq (b : InputBuffer F) (playerId : PlayerId) (tick : Tick) :
    b.takeInput playerId tick = ({ b with buffer := b.buffer.erase (playerId, tick) },
      BufferEntry.taken (b.buffer.lookup (playerId, tick))) := by
  rcases he : b.buffer.lookup (playerId, tick) with _ | entry
  · have hmem : (playerId, tick) ∉ b.buffer := AList.lookup_eq_none.1 he
    have herase : b.buffer.erase (playerId, tick) = b.buffer :=
      AList.ext (List.kerase_of_notMem_keys hmem)
    simp [takeInput, he, herase, BufferEntry.taken]
  · by_cases htied : entry.maxSeqTied <;> simp [takeInput, he, BufferEntry.taken, htied]

omit [F64 F] in
theorem lookup_takeInput (b : InputBuffer F) (playerId : PlayerId) (tick : Tick)
    (key : PlayerId × Tick) :
    (b.takeInput playerId tick).1.buffer.lookup key =
      if key = (playerId, tick) then none else b.buffer.lookup key := by
  rw [takeInput_eq, HashMap.lookup_erase]

omit [F64 F] in
theorem lookup_evictBefore (b : InputBuffer F) (tick : Tick) (key : PlayerId × Tick) :
    (b.evictBefore tick).buffer.lookup key =
      if tick ≤ key.2 then b.buffer.lookup key else none := by
  rw [evictBefore, HashMap.lookup_retain]
  rcases b.buffer.lookup key with _ | entry
  · simp
  · by_cases h : tick ≤ key.2 <;> simp [h]

end InputBuffer

/-! ## Validation before the buffer -/

/-- The checks `validateInput` makes before it buffers, and the verdict if one fails. -/
def screen (maxFutureTicks : UInt64) (currentTick targetTickFloor : Tick)
    (input : InputCmdProto F) : Except Panic (Option ValidationResult) :=
  if !finiteMoveDir input.moveDir then .ok (some .droppedNanInf)
  else if input.tick < targetTickFloor then
    .ok (some (.droppedBelowFloor input.tick targetTickFloor))
  else if input.tick < currentTick then .ok (some (.droppedLate input.tick currentTick))
  else do
    let maxTick ← addU64 currentTick maxFutureTicks
    return if maxTick < input.tick then some (.droppedTooFuture input.tick maxTick) else none

theorem validateInput_eq (input : InputCmdProto F) (currentTick targetTickFloor : Tick)
    (b : InputBuffer F) (playerId : PlayerId) :
    validateInput input currentTick targetTickFloor b playerId =
      match screen b.config.maxFutureTicks currentTick targetTickFloor input with
      | .error e => .error e
      | .ok (some result) => .ok (b, result)
      | .ok none =>
        .ok ((b.tryBuffer playerId input).1, (b.tryBuffer playerId input).2.verdict) := by
  unfold validateInput screen
  split_ifs
  · rfl
  · rfl
  · rfl
  · rcases addU64 currentTick b.config.maxFutureTicks with e | maxTick
    · rfl
    · simp only [bind, Except.bind, pure, Except.pure]
      split_ifs <;> rfl

/-- The screen's only panic is the overflow of the greatest tick it admits. -/
theorem screen_eq_error {maxFutureTicks : UInt64} {currentTick targetTickFloor : Tick}
    {input : InputCmdProto F} {e : Panic}
    (h : screen maxFutureTicks currentTick targetTickFloor input = .error e) :
    e = addOverflow := by
  unfold screen at h
  split_ifs at h
  rcases hadd : addU64 currentTick maxFutureTicks with e' | maxTick
  · rw [hadd] at h
    obtain rfl : e' = e := by simpa [bind, Except.bind] using h
    exact (addU64_eq_error hadd).1
  · simp [hadd, bind, Except.bind, pure, Except.pure] at h

/-- What the screen lets through has a direction and is inside the window. -/
theorem of_screen_eq_none {maxFutureTicks : UInt64} {currentTick targetTickFloor : Tick}
    {input : InputCmdProto F}
    (h : screen maxFutureTicks currentTick targetTickFloor input = .ok none) :
    finiteMoveDir input.moveDir = true ∧ targetTickFloor.toNat ≤ input.tick.toNat ∧
      currentTick.toNat ≤ input.tick.toNat ∧
      input.tick.toNat ≤ currentTick.toNat + maxFutureTicks.toNat ∧
      currentTick.toNat + maxFutureTicks.toNat < 2 ^ 64 := by
  unfold screen at h
  split_ifs at h with hvalid hfloor hlate
  · cases h
  · cases h
  · cases h
  · obtain ⟨maxTick, hmax, h⟩ := bind_eq_ok.1 h
    have h := Except.ok.inj h
    split_ifs at h with hfuture
    rw [UInt64.lt_iff_toNat_lt, not_lt] at hfloor hlate hfuture
    have hmaxTick := addU64_eq_ok.1 hmax
    have hlt := maxTick.toNat_lt
    exact ⟨by simpa using hvalid, hfloor, hlate, hmaxTick ▸ hfuture, hmaxTick ▸ hlt⟩

/-- A command that passes the screen is not late. -/
theorem le_tick_of_screen {maxFutureTicks : UInt64} {currentTick targetTickFloor : Tick}
    {input : InputCmdProto F}
    (h : screen maxFutureTicks currentTick targetTickFloor input = .ok none) :
    currentTick.toNat ≤ input.tick.toNat :=
  (of_screen_eq_none h).2.2.1

/-- A command inside the window passes the screen or has a bad direction, unless the window's
end overflows. -/
theorem screen_within {maxFutureTicks : UInt64} {currentTick targetTickFloor : Tick}
    {input : InputCmdProto F} (hfloor : targetTickFloor.toNat ≤ input.tick.toNat)
    (hlate : currentTick.toNat ≤ input.tick.toNat)
    (hfuture : input.tick.toNat ≤ currentTick.toNat + maxFutureTicks.toNat) :
    screen maxFutureTicks currentTick targetTickFloor input =
        .ok (if finiteMoveDir input.moveDir then none else some .droppedNanInf) ∨
      2 ^ 64 ≤ currentTick.toNat + maxFutureTicks.toNat ∧
        ∃ e, screen maxFutureTicks currentTick targetTickFloor input = .error e := by
  have hfloor' : ¬input.tick < targetTickFloor := by rwa [UInt64.lt_iff_toNat_lt, not_lt]
  have hlate' : ¬input.tick < currentTick := by rwa [UInt64.lt_iff_toNat_lt, not_lt]
  unfold screen
  rcases hfinite : finiteMoveDir input.moveDir with _ | _
  · exact .inl rfl
  · simp only [Bool.not_true, Bool.false_eq_true, if_false, if_true, hfloor', hlate']
    rcases hadd : addU64 currentTick maxFutureTicks with e | maxTick
    · exact .inr ⟨(addU64_eq_error hadd).2, e, rfl⟩
    · have hmax : ¬maxTick < input.tick := by
        rwa [UInt64.lt_iff_toNat_lt, not_lt, addU64_eq_ok.1 hadd]
      refine .inl ?_
      simp only [bind, Except.bind, pure, Except.pure, hmax, if_false]

end Flowstate
