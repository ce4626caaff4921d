import Flowstate.Runs

/-!
# Which packets the decoders come to the end of

A packet says how far each of its fields goes : a fixed number of bytes, or a length it
gives. `scan` walks over the bytes by what they say, from one field to the next, in natural
numbers and without a reader. The decoder follows it (`Follows.scan`) as long as every
field ends before 2^63. A field that claims to go further takes the position of the reader
back instead, and from there it may read the same field for ever.
-/

namespace Flowstate.Godot

open Logged WireFormat WireCodec

/-! ## What the bytes claim -/

/-- What the `match` arm of a field number reads. -/
inductive Arm
  | scalar
  | packedDoubles
  | message (arms : Int64 → Arm)
  | unknown

namespace Arm

def serverWelcome (fieldNumber : Int64) : Arm :=
  if fieldNumber = 1 then .scalar
  else if fieldNumber = 2 then .scalar
  else if fieldNumber = 3 then .scalar
  else if fieldNumber = 4 then .scalar
  else .unknown

def entitySnapshotProto (fieldNumber : Int64) : Arm :=
  if fieldNumber = 1 then .scalar
  else if fieldNumber = 2 then .packedDoubles
  else if fieldNumber = 3 then .packedDoubles
  else .unknown

def joinBaseline (fieldNumber : Int64) : Arm :=
  if fieldNumber = 1 then .scalar
  else if fieldNumber = 2 then .message entitySnapshotProto
  else if fieldNumber = 3 then .scalar
  else .unknown

def inputCmdProto (fieldNumber : Int64) : Arm :=
  if fieldNumber = 1 then .scalar
  else if fieldNumber = 2 then .scalar
  else if fieldNumber = 3 then .packedDoubles
  else .unknown

def snapshotProto (fieldNumber : Int64) : Arm :=
  if fieldNumber = 1 then .scalar
  else if fieldNumber = 2 then .message entitySnapshotProto
  else if fieldNumber = 3 then .scalar
  else if fieldNumber = 4 then .scalar
  else .unknown

end Arm

/-- A place in a byte string : how far it is from the start, and the bytes from there on. -/
structure Cursor where
  pos : ℕ
  rest : PackedByteArray

/-- What a packet claims to hold. -/
inductive Claim
  | field
  | elements (count : ℕ)

namespace Claim

def fields : Claim → ℕ
  | field => 1
  | elements _ => 0

def count : Claim → ℕ
  | field => 0
  | elements count => count

end Claim

/-- What is wrong with a packet : a varint without its last byte, a field without an end. -/
inductive Flaw
  | truncated
  | beyond
deriving DecidableEq

abbrev Scan := Logged Claim Flaw

variable {M : Type}

namespace Cursor

/-- The varint in front of the bytes, added to `result` from bit `shift` on. -/
def varintLoop : PackedByteArray → Int64 → Int64 → ℕ → Scan (Int64 × Cursor)
  | [], _, _, _ => fail .truncated
  | b :: rest, result, shift, pos =>
    let result := result ||| ((b.toUInt64.toInt64 &&& 0x7F) <<< shift)
    if b.toUInt64.toInt64 &&& 0x80 = 0 then return (result, ⟨pos + 1, rest⟩)
    else varintLoop rest result (shift + 7) (pos + 1)

def varint (c : Cursor) : Scan (Int64 × Cursor) := varintLoop c.rest 0 0 c.pos

/-- `size` bytes further, which need not be there. -/
def pass (size : ℕ) (c : Cursor) : Scan Cursor :=
  if c.pos + size < 2 ^ 63 then return ⟨c.pos + size, c.rest.drop size⟩ else fail .beyond

/-- A length is unsigned. -/
def size (length : Int64) : ℕ := length.toUInt64.toNat

def skip (wireType : Int64) (c : Cursor) : Scan Cursor :=
  if wireType = wireTypeVarint then do
    let (_, c) ← c.varint
    return c
  else if wireType = wireTypeFixed64 then c.pass 8
  else if wireType = wireTypeLengthDelimited then do
    let (length, c) ← c.varint
    c.pass (size length)
  else if wireType = wireTypeFixed32 then c.pass 4
  else return c

/-- One field after the other, `n` at most. -/
def fields (onField : Int64 → Int64 → Cursor → Scan Cursor) : ℕ → Cursor → Scan Unit
  | 0, _ => return ()
  | n + 1, c =>
    if c.rest = [] then return ()
    else do
      tell .field
      let (tag, c) ← c.varint
      let c ← onField (tag >>> 3) (tag &&& 0x07) c
      fields onField n c

def onArm : Arm → Int64 → Cursor → Scan Cursor
  | .scalar, _, c => do
    let (_, c) ← c.varint
    return c
  | .packedDoubles, _, c => do
    let (length, c) ← c.varint
    let count := (length / 8).toInt.toNat
    tell (.elements count)
    c.pass (8 * count)
  | .message arms, _, c => do
    let (length, c) ← c.varint
    let part := c.rest.take (size length)
    let c ← c.pass (size length)
    fields (fun n => onArm (arms n)) part.length ⟨0, part⟩
    tell (.elements 1)
    return c
  | .unknown, wireType, c => c.skip wireType

end Cursor

def scan (arms : Int64 → Arm) (bytes : PackedByteArray) : Scan Unit :=
  Cursor.fields (fun n => Cursor.onArm (arms n)) bytes.length ⟨0, bytes⟩

/-! ## A decoder follows what the bytes claim -/

/-- A run against a scan. `short` stands for a run that may not have had the fuel it needs. -/
def against (short : Prop) : Comparison Event Claim Stop Flaw where
  alike l m := (∀ e ∈ l, e.Forward) ∧ weight Event.rounds l = weight Claim.fields m ∧
    weight Event.appended l = weight Claim.count m
  errors e d := e = .outOfRange ∧ d = .truncated
  trap d e := d = .beyond ∧ ¬e.Forward
  cutOff e := e = .outOfFuel ∧ short
  alike_nil := ⟨by simp, rfl, rfl⟩
  alike_append := by
    rintro l₁ l₂ m₁ m₂ ⟨hf, hr, ha⟩ ⟨hf', hr', ha'⟩
    refine ⟨?_, ?_, ?_⟩
    · intro e he
      exact (List.mem_append.1 he).elim (hf e) (hf' e)
    · rw [weight_append, weight_append, hr, hr']
    · rw [weight_append, weight_append, ha, ha']

/-- The reader of `bytes` stands at the cursor, at `first` or after it. -/
structure At (bytes : PackedByteArray) (first : ℕ) (r : ByteReader) (c : Cursor) : Prop where
  bytes_eq : r.bytes = bytes
  pos_eq : r.pos = Int64.ofNat c.pos
  pos_lt : c.pos < 2 ^ 63
  rest_eq : c.rest = bytes.drop c.pos
  le : first ≤ c.pos

namespace At

variable {short : Prop} {fuel first : ℕ} {bytes : PackedByteArray} {r : ByteReader} {c : Cursor}

theorem new (bytes : PackedByteArray) : At bytes 0 (ByteReader.new bytes) ⟨0, bytes⟩ :=
  ⟨rfl, rfl, Nat.two_pow_pos 63, rfl, le_rfl⟩

theorem mono (h : At bytes first r c) {first' : ℕ} (hle : first' ≤ first) : At bytes first' r c :=
  ⟨h.bytes_eq, h.pos_eq, h.pos_lt, h.rest_eq, hle.trans h.le⟩

theorem get? (h : At bytes first r c) : r.bytes.get? r.pos = c.rest.head? := by
  rw [h.bytes_eq, h.pos_eq, h.rest_eq, List.head?_drop]
  simp only [PackedByteArray.get?, if_neg (PackedByteArray.not_ofNat_lt_zero h.pos_lt),
    PackedByteArray.toNat_ofNat h.pos_lt]

theorem hasMore (h : At bytes first r c) (hlen : bytes.length < 2 ^ 63) :
    r.hasMore = true ↔ c.rest ≠ [] := by
  rw [ByteReader.hasMore, decide_eq_true_iff, h.pos_eq, h.bytes_eq, PackedByteArray.size,
    Int64.ofNat_lt_iff_lt h.pos_lt hlen, h.rest_eq, Ne, List.drop_eq_nil_iff, not_le]

/-- Adding `n`, of any sign, takes the reader back or to where a length `n` ends. -/
theorem le_add_iff (h : At bytes first r c) (n : Int64) :
    r.pos ≤ r.pos + n ↔ c.pos + Cursor.size n < 2 ^ 63 := by
  rw [h.pos_eq]
  exact Gdscript.le_add_iff h.pos_lt n

theorem moved (h : At bytes first r c) {n : Int64} (hlt : c.pos + Cursor.size n < 2 ^ 63) :
    At bytes first { r with pos := r.pos + n }
      ⟨c.pos + Cursor.size n, c.rest.drop (Cursor.size n)⟩ := by
  refine ⟨h.bytes_eq, ?_, hlt, ?_, h.le.trans (Nat.le_add_right _ _)⟩
  · rw [Int64.ofNat_add, Cursor.size, Gdscript.ofNat_toNat, h.pos_eq]
  · rw [h.rest_eq, List.drop_drop]

/-- One event, against what the scan has for it. -/
theorem alike_one {e : Event} {claims : List Claim} (hforward : e.Forward)
    (hrounds : e.rounds = weight Claim.fields claims)
    (happended : e.appended = weight Claim.count claims) :
    (against short).alike [e] claims := by
  refine ⟨?_, hrounds, happended⟩
  intro e' he'
  rw [List.mem_singleton.1 he']
  exact hforward

theorem alike_move {before after : Int64} (h : before ≤ after) :
    (against short).alike [.move before after] [] :=
  alike_one h rfl rfl

/-- `_pos += n`. -/
theorem advance (h : At bytes first r c) (n : Int64) :
    SimulatedBy (against short) (At bytes first) (r.advance n)
      (c.pass (Cursor.size n)) := by
  unfold Cursor.pass
  split_ifs with hlt
  · exact .ok rfl rfl (h.moved hlt) (alike_move ((h.le_add_iff n).2 hlt))
  · exact .trap rfl (List.mem_singleton.2 rfl) ⟨rfl, mt (h.le_add_iff n).1 hlt⟩

/-- Past the byte in front of the cursor. -/
theorem tail {b : UInt8} {rest : PackedByteArray} {pos : ℕ} (hlen : bytes.length < 2 ^ 63)
    (h : At bytes first r ⟨pos, b :: rest⟩) :
    r.pos ≤ r.pos + 1 ∧
      At bytes (first + 1) { r with pos := r.pos + 1 } ⟨pos + 1, rest⟩ := by
  have hpos : pos < bytes.length := by
    by_contra hge
    have hrest : b :: rest = bytes.drop pos := h.rest_eq
    rw [List.drop_eq_nil_of_le (not_lt.1 hge)] at hrest
    exact List.cons_ne_nil _ _ hrest
  have hlt : pos + Cursor.size 1 < 2 ^ 63 := Nat.lt_of_le_of_lt hpos hlen
  have hat := h.moved hlt
  exact ⟨(h.le_add_iff 1).2 hlt, hat.bytes_eq, hat.pos_eq, hat.pos_lt, hat.rest_eq,
    Nat.succ_le_succ h.le⟩

/-- The bytes cut out for an embedded message. -/
theorem slice_eq (h : At bytes first r c) (hlen : bytes.length < 2 ^ 63) {length : Int64}
    (hlt : c.pos + Cursor.size length < 2 ^ 63) :
    r.bytes.slice r.pos (r.pos + length) = c.rest.take (Cursor.size length) := by
  have hpos : r.pos + length = Int64.ofNat (c.pos + Cursor.size length) := (h.moved hlt).pos_eq
  rw [hpos, h.bytes_eq, h.pos_eq, PackedByteArray.slice_ofNat hlt hlen, h.rest_eq]

/-- The doubles are read one by one, and claimed at once. -/
theorem log_readDoubles (h : At bytes first r c) {count : ℕ} (result : PackedFloat64Array)
    (hlt : c.pos + 8 * count < 2 ^ 63) :
    ∃ p, (readDoubles count result r).result = .ok p ∧
      At bytes first p.2 ⟨c.pos + 8 * count, c.rest.drop (8 * count)⟩ ∧
      (against short).alike (readDoubles count result r).log [.elements count] := by
  induction count generalizing r c result with
  | zero =>
    refine ⟨(result, r), rfl, h, ?_, rfl, rfl⟩
    simp [WireCodec.readDoubles]
  | succ count ih =>
    have h8 : c.pos + Cursor.size 8 < 2 ^ 63 :=
      lt_of_le_of_lt (show c.pos + 8 ≤ c.pos + 8 * (count + 1) by omega) hlt
    have hat := h.moved h8
    obtain ⟨p, hp, hat', hforward, hrounds, happended⟩ :=
      ih hat (result ++ [r.bytes.decodeDouble r.pos]) (show c.pos + 8 + 8 * count < 2 ^ 63 by omega)
    have hsum : 8 + 8 * count = 8 * (count + 1) := by omega
    rw [log_readDoubles_succ]
    refine ⟨p, hp, ?_, ?_, ?_, ?_⟩
    · have hpos : c.pos + Cursor.size 8 + 8 * count = c.pos + 8 * (count + 1) := by
        rw [← hsum, ← Nat.add_assoc]
        rfl
      have hdrop : (c.rest.drop (Cursor.size 8)).drop (8 * count) =
          c.rest.drop (8 * (count + 1)) := by
        rw [List.drop_drop, ← hsum]
        rfl
      rw [← hpos, ← hdrop]
      exact hat'
    · intro e he
      rcases List.mem_cons.1 he with rfl | he
      · exact (h.le_add_iff 8).2 h8
      · rcases List.mem_cons.1 he with rfl | he
        · trivial
        · exact hforward e he
    · rw [weight_cons, weight_cons, hrounds]
      rfl
    · rw [weight_cons, weight_cons, happended, ← Nat.add_assoc]
      exact Nat.add_comm 1 count

/-- Doubles that end too far : reading them takes the reader back on the way. -/
theorem exists_not_forward (h : At bytes first r c) {count : ℕ} (result : PackedFloat64Array)
    (hge : ¬c.pos + 8 * count < 2 ^ 63) :
    ∃ e ∈ (readDoubles count result r).log, ¬e.Forward := by
  induction count generalizing r c result with
  | zero => exact absurd h.pos_lt hge
  | succ count ih =>
    rw [log_readDoubles_succ]
    by_cases h8 : c.pos + Cursor.size 8 < 2 ^ 63
    · obtain ⟨e, he, hbad⟩ := ih (h.moved h8) (result ++ [r.bytes.decodeDouble r.pos])
        (show ¬c.pos + 8 + 8 * count < 2 ^ 63 by omega)
      exact ⟨e, List.mem_cons_of_mem _ (List.mem_cons_of_mem _ he), hbad⟩
    · exact ⟨_, List.mem_cons_self, mt (h.le_add_iff 8).1 h8⟩

theorem readDoubles (h : At bytes first r c) (count : ℕ) (result : PackedFloat64Array) :
    SimulatedBy (against short) (fun p c' => At bytes first p.2 c')
      (WireCodec.readDoubles count result r)
      (Logged.tell (.elements count) >>= fun _ => c.pass (8 * count)) := by
  unfold Cursor.pass
  split_ifs with hlt
  · obtain ⟨p, hp, hat, halike⟩ := h.log_readDoubles result hlt
    exact .ok hp rfl hat halike
  · obtain ⟨e, he, hbad⟩ := h.exists_not_forward result hlt
    exact .trap rfl he ⟨rfl, hbad⟩

theorem varintLoop {rest : PackedByteArray} {result shift : Int64} {pos : ℕ}
    (hlen : bytes.length < 2 ^ 63) (hfuel : rest.length < fuel ∨ short)
    (h : At bytes first r ⟨pos, rest⟩) :
    SimulatedBy (against short) (fun p q => p.1 = q.1 ∧ At bytes (first + 1) p.2 q.2)
      (ByteReader.readVarintLoop fuel result shift r)
      (Cursor.varintLoop rest result shift pos) := by
  induction rest generalizing fuel result shift pos r first with
  | nil =>
    cases fuel with
    | zero => exact .cutOff rfl ⟨rfl, hfuel.resolve_left (Nat.not_lt_zero _)⟩
    | succ fuel =>
      rw [ByteReader.readVarintLoop_succ]
      rw [h.get?]
      exact .error rfl rfl ⟨rfl, rfl⟩ (against short).alike_nil
  | cons b rest ih =>
    cases fuel with
    | zero => exact .cutOff rfl ⟨rfl, hfuel.resolve_left (Nat.not_lt_zero _)⟩
    | succ fuel =>
      obtain ⟨hle, htail⟩ := h.tail hlen
      rw [ByteReader.readVarintLoop_succ, Cursor.varintLoop]
      rw [h.get?]
      refine .bind_left rfl (against short).alike_nil (.bind_left rfl (alike_move hle) ?_)
      by_cases hlast : b.toUInt64.toInt64 &&& 0x80 = 0
      · simp only [if_pos hlast]
        exact .pure ⟨rfl, htail⟩
      · simp only [if_neg hlast]
        have hfuel' : rest.length < fuel ∨ short := hfuel.imp_left Nat.lt_of_succ_lt_succ
        refine (ih hfuel' htail).mono fun p q hpq => ?_
        exact ⟨hpq.1, hpq.2.mono (Nat.le_succ _)⟩

section decoding

variable (hlen : bytes.length < 2 ^ 63) (hfuel : bytes.length < fuel ∨ short)
include hlen hfuel

theorem varint (h : At bytes first r c) :
    SimulatedBy (against short) (fun p q => p.1 = q.1 ∧ At bytes (first + 1) p.2 q.2)
      (r.readVarint fuel) c.varint := by
  refine h.varintLoop hlen (hfuel.imp_left fun hlt => ?_)
  rw [h.rest_eq, List.length_drop]
  omega

theorem readTag (h : At bytes first r c) :
    SimulatedBy (against short)
      (fun (p : (Int64 × Int64) × ByteReader) (q : Int64 × Cursor) =>
        p.1 = (q.1 >>> 3, q.1 &&& 0x07) ∧ At bytes (first + 1) p.2 q.2)
      (r.readTag fuel) c.varint := by
  refine (h.varint hlen hfuel).map_left ?_
  rintro ⟨tag, r'⟩ ⟨-, c'⟩ ⟨rfl, hat⟩
  exact ⟨rfl, hat⟩

theorem skipField (h : At bytes first r c) (wireType : Int64) :
    SimulatedBy (against short) (At bytes first) (r.skipField fuel wireType)
      (c.skip wireType) := by
  unfold ByteReader.skipField Cursor.skip
  split_ifs
  · exact (h.varint hlen hfuel).bind fun _ _ hpq => .pure (hpq.2.mono (Nat.le_succ _))
  · exact h.advance 8
  · refine (h.varint hlen hfuel).bind ?_
    rintro ⟨length, r'⟩ ⟨-, c'⟩ ⟨rfl, hat⟩
    exact (hat.mono (Nat.le_succ _)).advance length
  · exact h.advance 4
  · exact .pure h

/-! A field : its branch in the decoder, and what the arm claims. -/

theorem readScalar (h : At bytes first r c) (set : Int64 → M) (wireType : Int64) :
    SimulatedBy (against short) (fun p c' => At bytes first p.2 c') (readScalar fuel set r)
      (Cursor.onArm .scalar wireType c) :=
  (h.varint hlen hfuel).bind fun _ _ hpq => .pure (hpq.2.mono (Nat.le_succ _))

theorem readDoublesField (h : At bytes first r c) (set : PackedFloat64Array → M)
    (wireType : Int64) :
    SimulatedBy (against short) (fun p c' => At bytes first p.2 c')
      (readDoublesField fuel set r) (Cursor.onArm .packedDoubles wireType c) := by
  refine SimulatedBy.map_left ((h.varint hlen hfuel).bind ?_) fun _ _ hat => hat
  rintro ⟨length, r'⟩ ⟨-, c'⟩ ⟨rfl, hat⟩
  exact (hat.mono (Nat.le_succ _)).readDoubles _ []

theorem skip (h : At bytes first r c) (msg : M) (wireType : Int64) :
    SimulatedBy (against short) (fun p c' => At bytes first p.2 c') (skip fuel wireType msg r)
      (Cursor.onArm .unknown wireType c) :=
  (h.skipField hlen hfuel wireType).map_left fun _ _ hat => hat

end decoding

end At

/-- The reader follows what the arms claim of the fields of `bytes`. -/
def Follows (short : Prop) (bytes : PackedByteArray) (onField : OnField M)
    (arms : Int64 → Arm) : Prop :=
  ∀ number wireType msg first r c, At bytes first r c →
    SimulatedBy (against short) (fun p c' => At bytes first p.2 c')
      (onField number wireType msg r) (Cursor.onArm (arms number) wireType c)

section decoding

variable {short : Prop} {fuel : ℕ} {bytes : PackedByteArray} {onField : OnField M}
  {arms : Int64 → Arm} (hlen : bytes.length < 2 ^ 63) (hfuel : bytes.length < fuel ∨ short)
include hlen hfuel

/-- The loop of a decoder, field by field. -/
theorem Follows.decodeLoop (hfield : Follows short bytes onField arms) {first n rounds : ℕ}
    {r : ByteReader} {c : Cursor} (hn : bytes.length - c.pos ≤ n)
    (hrounds : bytes.length - c.pos ≤ rounds ∨ short) (msg : M) (h : At bytes first r c) :
    SimulatedBy (against short) (fun _ _ => True) (decodeLoop onField fuel rounds msg r)
      (Cursor.fields (fun number => Cursor.onArm (arms number)) n c) := by
  induction n generalizing rounds r c first msg with
  | zero =>
    have hdone : c.rest = [] := by
      rw [h.rest_eq]
      exact List.drop_eq_nil_of_le (by omega)
    rw [decodeLoop_done (mt (h.hasMore hlen).1 (not_not.2 hdone))]
    exact .pure trivial
  | succ n ih =>
    by_cases hdone : c.rest = []
    · rw [Cursor.fields, if_pos hdone,
        decodeLoop_done (mt (h.hasMore hlen).1 (not_not.2 hdone))]
      exact .pure trivial
    · have hmore : r.hasMore = true := (h.hasMore hlen).2 hdone
      have hpos : c.pos < bytes.length := by
        rwa [h.rest_eq, List.drop_eq_nil_iff, not_le] at hdone
      rw [Cursor.fields, if_neg hdone]
      cases rounds with
      | zero =>
        rw [WireCodec.decodeLoop, if_pos hmore]
        exact .cutOff rfl ⟨rfl, hrounds.resolve_left (by omega)⟩
      | succ rounds =>
        rw [WireCodec.decodeLoop, if_pos hmore]
        have hround : (against short).alike [.round] [.field] := At.alike_one trivial rfl rfl
        refine (SimulatedBy.tell hround).bind fun _ _ _ => ?_
        have hhere : At bytes c.pos r c := ⟨h.bytes_eq, h.pos_eq, h.pos_lt, h.rest_eq, le_rfl⟩
        refine (hhere.readTag hlen hfuel).bind ?_
        rintro ⟨-, r₁⟩ ⟨tag, c₁⟩ ⟨rfl, h₁⟩
        refine (hfield _ _ msg _ r₁ c₁ h₁).bind fun p c₂ h₂ => ?_
        have hlt : r.pos < p.2.pos := by
          rw [h.pos_eq, h₂.pos_eq, Int64.ofNat_lt_iff_lt h.pos_lt h₂.pos_lt]
          exact h₂.le
        have hle := h₂.le
        exact .bind_left rfl (At.alike_one hlt rfl rfl)
          (ih (by omega) (hrounds.imp_left fun hr => by omega) p.1 h₂)

/-- A decoder, from the first byte on. -/
theorem Follows.scan (hfield : Follows short bytes onField arms) (msg : M) :
    SimulatedBy (against short) (fun _ _ => True)
      (WireCodec.decodeLoop onField fuel fuel msg (ByteReader.new bytes)) (scan arms bytes) :=
  hfield.decodeLoop hlen hfuel le_rfl (hfuel.imp_left le_of_lt) msg (At.new bytes)

theorem follows_serverWelcome :
    Follows short bytes (onServerWelcomeField fuel) Arm.serverWelcome := by
  intro number wireType msg first r c hat
  unfold onServerWelcomeField Arm.serverWelcome
  split_ifs
  · exact hat.readScalar hlen hfuel _ wireType
  · exact hat.readScalar hlen hfuel _ wireType
  · exact hat.readScalar hlen hfuel _ wireType
  · exact hat.readScalar hlen hfuel _ wireType
  · exact hat.skip hlen hfuel msg wireType

theorem follows_entitySnapshotProto :
    Follows short bytes (onEntitySnapshotProtoField fuel) Arm.entitySnapshotProto := by
  intro number wireType msg first r c hat
  unfold onEntitySnapshotProtoField Arm.entitySnapshotProto
  split_ifs
  · exact hat.readScalar hlen hfuel _ wireType
  · exact hat.readDoublesField hlen hfuel _ wireType
  · exact hat.readDoublesField hlen hfuel _ wireType
  · exact hat.skip hlen hfuel msg wireType

theorem At.readEntity {first : ℕ} {r : ByteReader} {c : Cursor} (h : At bytes first r c)
    (entities : List EntitySnapshotProto) (set : List EntitySnapshotProto → M)
    (wireType : Int64) :
    SimulatedBy (against short) (fun p c' => At bytes first p.2 c')
      (readEntity fuel entities set r)
      (Cursor.onArm (.message Arm.entitySnapshotProto) wireType c) := by
  refine (h.varint hlen hfuel).bind ?_
  rintro ⟨length, r'⟩ ⟨-, c'⟩ ⟨rfl, hat⟩
  by_cases hlt : c'.pos + Cursor.size length < 2 ^ 63
  · have hpart := hat.slice_eq hlen hlt
    have hpartlen : (c'.rest.take (Cursor.size length)).length ≤ bytes.length := by
      rw [hat.rest_eq, List.length_take, List.length_drop]
      omega
    have hlen' := lt_of_le_of_lt hpartlen hlen
    have hfuel' := hfuel.imp_left (lt_of_le_of_lt hpartlen)
    have hentity := (follows_entitySnapshotProto hlen' hfuel').scan hlen' hfuel'
      EntitySnapshotProto.new
    have hread : r'.readBytes length = ⟨[.move r'.pos (r'.pos + length)],
        .ok (c'.rest.take (Cursor.size length), { r' with pos := r'.pos + length })⟩ := by
      rw [← hpart]
      rfl
    dsimp only
    rw [hread]
    simp only [Cursor.pass, if_pos hlt, Logged.pure_bind]
    refine .bind_left rfl (alike_move ((hat.le_add_iff length).2 hlt)) ?_
    refine hentity.bind fun entity _ _ => ?_
    have happend : (against short).alike [.append] [.elements 1] := alike_one trivial rfl rfl
    rw [append_bind]
    exact (SimulatedBy.tell happend).bind fun _ _ _ =>
      .pure ((hat.moved hlt).mono (Nat.le_succ _))
  · simp only [Cursor.pass, if_neg hlt, fail_bind]
    exact .trap rfl List.mem_cons_self ⟨rfl, mt (hat.le_add_iff length).1 hlt⟩

theorem follows_joinBaseline :
    Follows short bytes (onJoinBaselineField fuel) Arm.joinBaseline := by
  intro number wireType msg first r c hat
  unfold onJoinBaselineField Arm.joinBaseline
  split_ifs
  · exact hat.readScalar hlen hfuel _ wireType
  · exact hat.readEntity hlen hfuel _ _ wireType
  · exact hat.readScalar hlen hfuel _ wireType
  · exact hat.skip hlen hfuel msg wireType

theorem follows_inputCmdProto :
    Follows short bytes (onInputCmdProtoField fuel) Arm.inputCmdProto := by
  intro number wireType msg first r c hat
  unfold onInputCmdProtoField Arm.inputCmdProto
  split_ifs
  · exact hat.readScalar hlen hfuel _ wireType
  · exact hat.readScalar hlen hfuel _ wireType
  · exact hat.readDoublesField hlen hfuel _ wireType
  · exact hat.skip hlen hfuel msg wireType

theorem follows_snapshotProto :
    Follows short bytes (onSnapshotProtoField fuel) Arm.snapshotProto := by
  intro number wireType msg first r c hat
  unfold onSnapshotProtoField Arm.snapshotProto
  split_ifs
  · exact hat.readScalar hlen hfuel _ wireType
  · exact hat.readEntity hlen hfuel _ _ wireType
  · exact hat.readScalar hlen hfuel _ wireType
  · exact hat.readScalar hlen hfuel _ wireType
  · exact hat.skip hlen hfuel msg wireType

end decoding

/-! ## A packet has no more fields than bytes -/

namespace Cursor

/-- A varint takes a byte at least, and is no field. -/
theorem spends_varintLoop (rest : PackedByteArray) (result shift : Int64) (pos : ℕ) :
    Spends Claim.fields (rest.length - 1) (varintLoop rest result shift pos)
      fun q => q.2.rest.length := by
  induction rest generalizing result shift pos with
  | nil => exact .fail
  | cons b rest ih =>
    unfold varintLoop
    dsimp only
    split_ifs
    · exact .pure le_rfl
    · exact (ih _ _ _).mono (Nat.sub_le _ _) fun _ => le_rfl

theorem spends_varint (c : Cursor) :
    Spends Claim.fields (c.rest.length - 1) c.varint fun q => q.2.rest.length :=
  spends_varintLoop _ _ _ _

theorem spends_varint' (c : Cursor) :
    Spends Claim.fields c.rest.length c.varint fun q => q.2.rest.length :=
  c.spends_varint.mono (Nat.sub_le _ _) fun _ => le_rfl

theorem spends_pass (size : ℕ) (c : Cursor) :
    Spends Claim.fields c.rest.length (c.pass size) fun c' => c'.rest.length := by
  unfold pass
  split_ifs
  · exact .pure (by rw [List.length_drop]; omega)
  · exact .fail

theorem spends_dropVarint (c : Cursor) :
    Spends Claim.fields c.rest.length (c.varint >>= fun q => (pure q.2 : Scan Cursor))
      fun c' => c'.rest.length :=
  c.spends_varint'.bind fun _ _ => .pure le_rfl

theorem spends_skip (wireType : Int64) (c : Cursor) :
    Spends Claim.fields c.rest.length (c.skip wireType) fun c' => c'.rest.length := by
  unfold skip
  split_ifs
  · exact c.spends_dropVarint
  · exact c.spends_pass 8
  · exact c.spends_varint'.bind fun q _ => q.2.spends_pass _
  · exact c.spends_pass 4
  · exact .pure le_rfl

theorem spends_fields {onField : Int64 → Int64 → Cursor → Scan Cursor}
    (h : ∀ number wireType c, Spends Claim.fields c.rest.length (onField number wireType c)
      fun c' => c'.rest.length) (n : ℕ) (c : Cursor) :
    Spends Claim.fields c.rest.length (fields onField n c) fun _ => 0 := by
  induction n generalizing c with
  | zero => exact .pure (Nat.zero_le _)
  | succ n ih =>
    unfold fields
    split_ifs with hdone
    · exact .pure (Nat.zero_le _)
    · have hpos := List.length_pos_iff.2 hdone
      refine .tell_bind hpos (c.spends_varint.bind fun q _ => ?_)
      exact (h _ _ q.2).bind fun c' _ => ih c'

theorem spends_onArm (arm : Arm) (wireType : Int64) (c : Cursor) :
    Spends Claim.fields c.rest.length (onArm arm wireType c) fun c' => c'.rest.length := by
  induction arm generalizing wireType c with
  | scalar => exact c.spends_dropVarint
  | packedDoubles =>
    exact c.spends_varint'.bind fun q _ => .tell_bind (Nat.zero_le _) (q.2.spends_pass _)
  | unknown => exact c.spends_skip wireType
  | message arms ih =>
    refine c.spends_varint'.bind fun q _ => ?_
    obtain ⟨length, c₁⟩ := q
    -- what the embedded message may spend is in front of what is left
    have hpart : Spends Claim.fields (c₁.rest.take (size length)).length
        (fields (fun n => onArm (arms n)) (c₁.rest.take (size length)).length
          ⟨0, c₁.rest.take (size length)⟩) fun _ => 0 :=
      spends_fields ih _ _
    unfold pass
    split_ifs with hlt
    · have hsum : (c₁.rest.take (size length)).length + (c₁.rest.drop (size length)).length =
          c₁.rest.length := by
        rw [← List.length_append, List.take_append_drop]
      have hframe := hpart.frame (c₁.rest.drop (size length)).length
      rw [hsum] at hframe
      exact hframe.bind fun _ _ => .tell_bind (Nat.zero_le _) (.pure (Nat.le_add_left _ _))
    · exact .fail

end Cursor

theorem fields_scan_le (arms : Int64 → Arm) (bytes : PackedByteArray) :
    weight Claim.fields (scan arms bytes).log ≤ bytes.length :=
  (Cursor.spends_fields (fun number => Cursor.spends_onArm (arms number)) bytes.length
    ⟨0, bytes⟩).1

/-! ## Decoders that finish -/

/-- A run over `size` bytes that comes to their end, with a message or with a read out of
range. On its way no reader moves back and every field takes a byte, and it goes through no
more fields and appends no more elements than there are bytes. What the message holds was
appended. -/
structure Orderly (held : M → ℕ) (size : ℕ) (run : Run M) : Prop where
  ends : (∃ msg, run.result = .ok msg) ∨ run.result = .error .outOfRange
  forward : ∀ e ∈ run.log, e.Forward
  rounds_le : weight Event.rounds run.log ≤ size
  appended_le : weight Event.appended run.log ≤ size
  held_le : ∀ msg, run.result = .ok msg → held msg ≤ weight Event.appended run.log

/-- The decoder has an orderly run : the same one with any fuel that is enough for it. -/
def Finishes (decode : ℕ → PackedByteArray → Run M) (held : M → ℕ) (bytes : PackedByteArray) :
    Prop :=
  ∃ run, (∃ enough, ∀ fuel, enough ≤ fuel → decode fuel bytes = run) ∧
    Orderly held bytes.length run

/-- Every field, at the place where the one before it ends, ends before 2^63 itself, and all
of them claim no more elements than there are bytes. -/
structure Bounded (arms : Int64 → Arm) (bytes : PackedByteArray) : Prop where
  extent : (scan arms bytes).result ≠ .error .beyond
  elements : weight Claim.count (scan arms bytes).log ≤ bytes.length

section orderly

variable {held : M → ℕ} {arms : Int64 → Arm} {bytes : PackedByteArray} {run : Run M}

theorem Orderly.not_outOfFuel (h : Orderly held bytes.length run) :
    run.result ≠ .error .outOfFuel := by
  intro hfuel
  have hends := h.ends
  rw [hfuel] at hends
  exact hends.elim nofun nofun

/-- What a run that follows the arms comes past in order, they claim within bounds. -/
theorem Orderly.bounded (h : Orderly held bytes.length run)
    (hsim : SimulatedBy (against True) (fun _ _ => True) run (scan arms bytes)) :
    Bounded arms bytes := by
  cases hsim with
  | ok hx hy _ hlog =>
    refine ⟨?_, hlog.2.2 ▸ h.appended_le⟩
    rw [hy]
    nofun
  | error hx hy he hlog =>
    refine ⟨?_, hlog.2.2 ▸ h.appended_le⟩
    rw [hy, he.2]
    nofun
  | trap hy hitem ht => exact absurd (h.forward _ hitem) ht.2
  | cutOff hx he => exact absurd (he.1 ▸ hx) h.not_outOfFuel

theorem Bounded.orderly (h : Bounded arms bytes)
    (hsim : SimulatedBy (against False) (fun _ _ => True) run (scan arms bytes))
    (hgains : Gains Event.appended 0 run held) : Orderly held bytes.length run := by
  have hfields := fields_scan_le arms bytes
  have helements := h.elements
  have hheld : ∀ msg, run.result = .ok msg → held msg ≤ weight Event.appended run.log := by
    intro msg hmsg
    have hgain := hgains msg hmsg
    rwa [Nat.zero_add] at hgain
  cases hsim with
  | ok hx hy _ hlog =>
    obtain ⟨hforward, hrounds, happended⟩ := hlog
    exact ⟨.inl ⟨_, hx⟩, hforward, hrounds ▸ hfields, happended ▸ helements, hheld⟩
  | error hx hy he hlog =>
    obtain ⟨hforward, hrounds, happended⟩ := hlog
    exact ⟨.inr (he.1 ▸ hx), hforward, hrounds ▸ hfields, happended ▸ helements, hheld⟩
  | trap hy _ ht => exact absurd (ht.1 ▸ hy) h.extent
  | cutOff _ he => exact he.2.elim

end orderly

/-- A loop that follows the arms, whose run with more fuel is the same, and that appends what
it holds finishes on bounded bytes alone. -/
theorem finishes_iff {held : M → ℕ} {onField : ℕ → OnField M} {arms : Int64 → Arm} {msg : M}
    {bytes : PackedByteArray} (hlen : bytes.length < 2 ^ 63) {decode : ℕ → PackedByteArray → Run M}
    (hdecode : ∀ fuel, decode fuel bytes =
      decodeLoop (onField fuel) fuel fuel msg (ByteReader.new bytes))
    (hfollows : ∀ {short : Prop} {fuel : ℕ}, bytes.length < fuel ∨ short →
      Follows short bytes (onField fuel) arms)
    (hcut : ∀ {fuel fuel' : ℕ}, fuel ≤ fuel' → Cut (decode fuel bytes) (decode fuel' bytes))
    (hgains : ∀ fuel, Gains Event.appended 0 (decode fuel bytes) held) :
    Finishes decode held bytes ↔ Bounded arms bytes := by
  have hsim : ∀ {short : Prop} {fuel : ℕ}, bytes.length < fuel ∨ short →
      SimulatedBy (against short) (fun _ _ => True) (decode fuel bytes) (scan arms bytes) := by
    intro short fuel hfuel
    rw [hdecode]
    exact (hfollows hfuel).scan hlen hfuel msg
  constructor
  · rintro ⟨run, ⟨enough, hrun⟩, horderly⟩
    rw [← hrun enough le_rfl] at horderly
    exact horderly.bounded (hsim (.inr trivial))
  · intro hbounded
    have horderly := hbounded.orderly (hsim (.inl (Nat.lt_succ_self bytes.length))) (hgains _)
    refine ⟨_, ⟨bytes.length + 1, fun fuel hfuel => ?_⟩, horderly⟩
    rcases hcut hfuel with hshort | hsame
    · exact absurd hshort horderly.not_outOfFuel
    · exact hsame.symm

section decoders

variable {bytes : PackedByteArray} (hlen : bytes.length < 2 ^ 63)
include hlen

theorem finishes_serverWelcome_iff :
    Finishes decodeServerWelcome ServerWelcome.held bytes ↔ Bounded Arm.serverWelcome bytes :=
  finishes_iff hlen (fun _ => rfl) (follows_serverWelcome hlen)
    (cut_decodeServerWelcome · bytes) (gains_decodeServerWelcome · bytes)

theorem finishes_entitySnapshotProto_iff :
    Finishes decodeEntitySnapshotProto EntitySnapshotProto.held bytes ↔
      Bounded Arm.entitySnapshotProto bytes :=
  finishes_iff hlen (fun _ => rfl) (follows_entitySnapshotProto hlen)
    (cut_decodeEntitySnapshotProto · bytes) (gains_decodeEntitySnapshotProto · bytes)

theorem finishes_joinBaseline_iff :
    Finishes decodeJoinBaseline JoinBaseline.held bytes ↔ Bounded Arm.joinBaseline bytes :=
  finishes_iff hlen (fun _ => rfl) (follows_joinBaseline hlen)
    (cut_decodeJoinBaseline · bytes) (gains_decodeJoinBaseline · bytes)

theorem finishes_inputCmdProto_iff :
    Finishes decodeInputCmdProto InputCmdProto.held bytes ↔ Bounded Arm.inputCmdProto bytes :=
  finishes_iff hlen (fun _ => rfl) (follows_inputCmdProto hlen)
    (cut_decodeInputCmdProto · bytes) (gains_decodeInputCmdProto · bytes)

theorem finishes_snapshotProto_iff :
    Finishes decodeSnapshotProto SnapshotProto.held bytes ↔ Bounded Arm.snapshotProto bytes :=
  finishes_iff hlen (fun _ => rfl) (follows_snapshotProto hlen)
    (cut_decodeSnapshotProto · bytes) (gains_decodeSnapshotProto · bytes)

end decoders

/-- A decoder finishes on just the packets whose fields, by what they claim, end in time and
hold no more than there are bytes. -/
theorem decoders_finish_iff (bytes : PackedByteArray) (hlen : bytes.length < 2 ^ 63) :
    (Finishes decodeServerWelcome ServerWelcome.held bytes ↔ Bounded Arm.serverWelcome bytes) ∧
    (Finishes decodeEntitySnapshotProto EntitySnapshotProto.held bytes ↔
      Bounded Arm.entitySnapshotProto bytes) ∧
    (Finishes decodeJoinBaseline JoinBaseline.held bytes ↔ Bounded Arm.joinBaseline bytes) ∧
    (Finishes decodeInputCmdProto InputCmdProto.held bytes ↔ Bounded Arm.inputCmdProto bytes) ∧
    (Finishes decodeSnapshotProto SnapshotProto.held bytes ↔
      Bounded Arm.snapshotProto bytes) := by
  refine ⟨?_, ?_, ?_, ?_, ?_⟩
  · exact finishes_serverWelcome_iff hlen
  · exact finishes_entitySnapshotProto_iff hlen
  · exact finishes_joinBaseline_iff hlen
  · exact finishes_inputCmdProto_iff hlen
  · exact finishes_snapshotProto_iff hlen

/-- A tick, an entity with an id, and an unknown field of one byte. -/
theorem decoders_finish_on_snapshot :
    Finishes decodeSnapshotProto SnapshotProto.held
      [0x08, 0x05, 0x12, 0x02, 0x08, 0x07, 0x7A, 0x01, 0xFF] := by
  have hiff := decoders_finish_iff [0x08, 0x05, 0x12, 0x02, 0x08, 0x07, 0x7A, 0x01, 0xFF]
    (by decide)
  refine hiff.2.2.2.2.2 ⟨?_, by decide⟩
  exact fun h => nomatch (h : Except.ok () = _)

/-- Field 15, with a length that leads back to the start : -11. -/
def endless : PackedByteArray :=
  [0x7A, 0xF5, 0xFF, 0xFF, 0xFF, 0xFF, 0xFF, 0xFF, 0xFF, 0xFF, 0x01]

/-- However many rounds it is given, the loop is not through them. -/
theorem decode_endless (fuel : ℕ) :
    (decodeServerWelcome fuel endless).result = .error .outOfFuel := by
  have hshort : ∀ fuel < 11, (decodeServerWelcome fuel endless).result = .error .outOfFuel := by
    decide
  by_cases hfuel : fuel < 11
  · exact hshort fuel hfuel
  · obtain ⟨k, rfl⟩ := Nat.exists_eq_add_of_le' (not_lt.1 hfuel)
    have hloop : ∀ rounds, (decodeLoop (onServerWelcomeField (k + 11)) (k + 11) rounds
        ServerWelcome.new (ByteReader.new endless)).result = .error .outOfFuel := by
      intro rounds
      induction rounds with
      | zero => rfl
      | succ rounds ih =>
        rw [← ih]
        rfl
    exact hloop _

/-- The reader goes round and round; and fifteen doubles come out of two bytes. -/
theorem not_finishes_endless :
    ¬Finishes decodeServerWelcome ServerWelcome.held endless ∧
    ¬Finishes decodeInputCmdProto InputCmdProto.held [0x1A, 0x7F] := by
  constructor
  · rintro ⟨run, ⟨enough, hrun⟩, horderly⟩
    rw [← hrun enough le_rfl] at horderly
    exact horderly.not_outOfFuel (decode_endless enough)
  · intro h
    have hbounded := (finishes_inputCmdProto_iff (by decide)).1 h
    exact absurd hbounded.elements (by decide)

end Flowstate.Godot
