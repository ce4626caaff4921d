import Flowstate.Codec

/-!
# What a run of a decoder says

Fuel decides whether a run is cut off and nothing else : with more of it the run is the same
one, log included. The log has an `append` for every element of the lists in the message, and
none for anything else (`appended_readPackedDoubles`); a message may hold less than was
appended (`gains_decodeSnapshotProto`), as a field that comes twice is set twice.
-/

namespace Flowstate.Godot

open Logged WireFormat WireCodec

namespace Event

/-- No assignment takes the reader back, and no field leaves it where it was. -/
def Forward : Event → Prop
  | move before after => before ≤ after
  | field before after => before < after
  | round => True
  | append => True

def rounds : Event → ℕ
  | round => 1
  | _ => 0

def appended : Event → ℕ
  | append => 1
  | _ => 0

end Event

variable {M : Type}

/-! ## Fuel -/

/-- With less fuel the run is the same one, or was cut off. -/
abbrev Cut (x y : Run M) : Prop := Approximates Stop.outOfFuel x y

section fuel

variable {fuel fuel' : ℕ} (h : fuel ≤ fuel')
include h

theorem ByteReader.cut_readVarintLoop (result shift : Int64) (r : ByteReader) :
    Cut (readVarintLoop fuel result shift r) (readVarintLoop fuel' result shift r) := by
  induction fuel generalizing fuel' result shift r with
  | zero => exact .fail _
  | succ fuel ih =>
    obtain ⟨fuel', rfl⟩ : ∃ k, fuel' = k + 1 := Nat.exists_eq_succ_of_ne_zero (by omega)
    rw [readVarintLoop_succ, readVarintLoop_succ]
    refine (Approximates.refl _).bind fun b => (Approximates.refl _).bind fun r => ?_
    dsimp only
    split_ifs
    · exact .refl _
    · exact ih (Nat.le_of_succ_le_succ h) _ _ r

theorem ByteReader.cut_readVarint (r : ByteReader) :
    Cut (r.readVarint fuel) (r.readVarint fuel') :=
  cut_readVarintLoop h 0 0 r

theorem ByteReader.cut_readTag (r : ByteReader) : Cut (r.readTag fuel) (r.readTag fuel') :=
  (cut_readVarint h r).bind fun _ => .refl _

theorem ByteReader.cut_skipField (wireType : Int64) (r : ByteReader) :
    Cut (r.skipField fuel wireType) (r.skipField fuel' wireType) := by
  unfold skipField
  split_ifs
  · exact (cut_readVarint h r).bind fun _ => .refl _
  · exact .refl _
  · exact (cut_readVarint h r).bind fun _ => .refl _
  · exact .refl _
  · exact .refl _

namespace WireCodec

theorem cut_skip (wireType : Int64) (msg : M) (r : ByteReader) :
    Cut (skip fuel wireType msg r) (skip fuel' wireType msg r) :=
  (r.cut_skipField h wireType).bind fun _ => .refl _

theorem cut_readScalar (set : Int64 → M) (r : ByteReader) :
    Cut (readScalar fuel set r) (readScalar fuel' set r) :=
  (r.cut_readVarint h).bind fun _ => .refl _

theorem cut_readDoublesField (set : PackedFloat64Array → M) (r : ByteReader) :
    Cut (readDoublesField fuel set r) (readDoublesField fuel' set r) :=
  ((r.cut_readVarint h).bind fun _ => .refl _).bind fun _ => .refl _

omit h in
/-- Without bytes left, no round is run. -/
theorem decodeLoop_done {onField : OnField M} {msg : M} {r : ByteReader}
    (hdone : ¬r.hasMore = true) (rounds : ℕ) : decodeLoop onField fuel rounds msg r = pure msg := by
  cases rounds with
  | zero => rw [decodeLoop, if_neg hdone]
  | succ rounds => rw [decodeLoop, if_neg hdone]

theorem cut_decodeLoop {onField onField' : OnField M}
    (hfield : ∀ number wireType msg r,
      Cut (onField number wireType msg r) (onField' number wireType msg r))
    {rounds rounds' : ℕ} (hrounds : rounds ≤ rounds') (msg : M) (r : ByteReader) :
    Cut (decodeLoop onField fuel rounds msg r) (decodeLoop onField' fuel' rounds' msg r) := by
  induction rounds generalizing rounds' msg r with
  | zero =>
    by_cases hmore : r.hasMore = true
    · rw [decodeLoop, if_pos hmore]
      exact .fail _
    · rw [decodeLoop_done hmore, decodeLoop_done hmore]
      exact .refl _
  | succ rounds ih =>
    obtain ⟨rounds', rfl⟩ : ∃ k, rounds' = k + 1 := Nat.exists_eq_succ_of_ne_zero (by omega)
    unfold decodeLoop
    split_ifs
    · refine (Approximates.refl _).bind fun _ => (r.cut_readTag h).bind fun p => ?_
      refine (hfield _ _ _ _).bind fun q => (Approximates.refl _).bind fun _ => ?_
      exact ih (Nat.le_of_succ_le_succ hrounds) q.1 q.2
    · exact .refl _

theorem cut_decodeServerWelcome (bytes : PackedByteArray) :
    Cut (decodeServerWelcome fuel bytes) (decodeServerWelcome fuel' bytes) := by
  refine cut_decodeLoop h (fun number wireType msg r => ?_) h _ _
  unfold onServerWelcomeField
  split_ifs
  · exact cut_readScalar h _ r
  · exact cut_readScalar h _ r
  · exact cut_readScalar h _ r
  · exact cut_readScalar h _ r
  · exact cut_skip h wireType msg r

theorem cut_decodeEntitySnapshotProto (bytes : PackedByteArray) :
    Cut (decodeEntitySnapshotProto fuel bytes) (decodeEntitySnapshotProto fuel' bytes) := by
  refine cut_decodeLoop h (fun number wireType msg r => ?_) h _ _
  unfold onEntitySnapshotProtoField
  split_ifs
  · exact cut_readScalar h _ r
  · exact cut_readDoublesField h _ r
  · exact cut_readDoublesField h _ r
  · exact cut_skip h wireType msg r

theorem cut_readEntity (entities : List EntitySnapshotProto) (set : List EntitySnapshotProto → M)
    (r : ByteReader) : Cut (readEntity fuel entities set r) (readEntity fuel' entities set r) := by
  refine (r.cut_readVarint h).bind fun _ => (Approximates.refl _).bind fun p => ?_
  exact (cut_decodeEntitySnapshotProto h p.1).bind fun _ => .refl _

theorem cut_decodeJoinBaseline (bytes : PackedByteArray) :
    Cut (decodeJoinBaseline fuel bytes) (decodeJoinBaseline fuel' bytes) := by
  refine cut_decodeLoop h (fun number wireType msg r => ?_) h _ _
  unfold onJoinBaselineField
  split_ifs
  · exact cut_readScalar h _ r
  · exact cut_readEntity h _ _ r
  · exact cut_readScalar h _ r
  · exact cut_skip h wireType msg r

theorem cut_decodeInputCmdProto (bytes : PackedByteArray) :
    Cut (decodeInputCmdProto fuel bytes) (decodeInputCmdProto fuel' bytes) := by
  refine cut_decodeLoop h (fun number wireType msg r => ?_) h _ _
  unfold onInputCmdProtoField
  split_ifs
  · exact cut_readScalar h _ r
  · exact cut_readScalar h _ r
  · exact cut_readDoublesField h _ r
  · exact cut_skip h wireType msg r

theorem cut_decodeSnapshotProto (bytes : PackedByteArray) :
    Cut (decodeSnapshotProto fuel bytes) (decodeSnapshotProto fuel' bytes) := by
  refine cut_decodeLoop h (fun number wireType msg r => ?_) h _ _
  unfold onSnapshotProtoField
  split_ifs
  · exact cut_readScalar h _ r
  · exact cut_readEntity h _ _ r
  · exact cut_readScalar h _ r
  · exact cut_readScalar h _ r
  · exact cut_skip h wireType msg r

end WireCodec

end fuel

/-! ## Elements -/

/-- The doubles and entities a message holds : none. -/
def ServerWelcome.held (_ : ServerWelcome) : ℕ := 0

def EntitySnapshotProto.held (e : EntitySnapshotProto) : ℕ :=
  e.position.length + e.velocity.length

/-- Entities, with the doubles they hold. -/
def heldBy : List EntitySnapshotProto → ℕ
  | [] => 0
  | e :: entities => e.held + 1 + heldBy entities

def JoinBaseline.held (b : JoinBaseline) : ℕ := heldBy b.entities

def InputCmdProto.held (c : InputCmdProto) : ℕ := c.moveDir.length

def SnapshotProto.held (s : SnapshotProto) : ℕ := heldBy s.entities

theorem heldBy_concat (entities : List EntitySnapshotProto) (e : EntitySnapshotProto) :
    heldBy (entities ++ [e]) = heldBy entities + (e.held + 1) := by
  induction entities with
  | nil => exact Nat.add_comm ..
  | cons e' entities ih =>
    rw [List.cons_append, heldBy, ih, heldBy, Nat.add_assoc (e'.held + 1)]

namespace WireCodec

theorem append_bind {α : Type} (xs : List α) (x : α) (f : List α → Run M) :
    append xs x >>= f = Logged.tell .append >>= fun _ => f (xs ++ [x]) := rfl

/-- A varint appends nothing. -/
theorem spends_readVarint (fuel : ℕ) (r : ByteReader) :
    Spends Event.appended 0 (r.readVarint fuel) fun _ => 0 := by
  have hloop : ∀ (result shift : Int64) (r : ByteReader),
      Spends Event.appended 0 (r.readVarintLoop fuel result shift) fun _ => 0 := by
    induction fuel with
    | zero => exact fun _ _ _ => .fail
    | succ fuel ih =>
      intro result shift r
      rw [ByteReader.readVarintLoop_succ]
      have hbyte : Spends Event.appended 0
          (ofOption Stop.outOfRange (r.bytes.get? r.pos)) fun _ => 0 :=
        ⟨le_rfl, fun _ _ => le_rfl⟩
      have hmove : Spends Event.appended 0 (r.advance 1) fun _ => 0 :=
        ⟨le_rfl, fun _ _ => le_rfl⟩
      refine hbyte.bind fun b _ => hmove.bind fun r' _ => ?_
      dsimp only
      split_ifs
      · exact .pure le_rfl
      · exact ih _ _ _
  exact hloop 0 0 r

theorem log_readDoubles_succ (count : ℕ) (result : PackedFloat64Array) (r : ByteReader) :
    (readDoubles (count + 1) result r).log = .move r.pos (r.pos + 8) :: .append ::
      (readDoubles count (result ++ [r.bytes.decodeDouble r.pos])
        { r with pos := r.pos + 8 }).log := rfl

theorem length_readDoubles (count : ℕ) (result : PackedFloat64Array) (r : ByteReader) :
    ∃ p, (readDoubles count result r).result = .ok p ∧ p.1.length =
      result.length + weight Event.appended (readDoubles count result r).log := by
  induction count generalizing result r with
  | zero => exact ⟨(result, r), rfl, rfl⟩
  | succ count ih =>
    obtain ⟨p, hp, hlength⟩ := ih (result ++ [r.bytes.decodeDouble r.pos])
      { r with pos := r.pos + 8 }
    refine ⟨p, hp, ?_⟩
    rw [hlength, log_readDoubles_succ, weight_cons, weight_cons, List.length_append,
      List.length_singleton]
    exact (Nat.add_assoc _ _ _).trans (congrArg _ (Nat.zero_add _).symm)

/-- A list of doubles has an `append` for each of them. -/
theorem appended_readPackedDoubles {fuel : ℕ} {r : ByteReader}
    {p : PackedFloat64Array × ByteReader} (h : (readPackedDoubles fuel r).result = .ok p) :
    weight Event.appended (readPackedDoubles fuel r).log = p.1.length := by
  unfold readPackedDoubles at h ⊢
  have hquiet := (spends_readVarint fuel r).1
  cases hlength : (r.readVarint fuel).result with
  | error e =>
    rw [bind_of_error hlength] at h
    exact nomatch h
  | ok q =>
    obtain ⟨length, r₁⟩ := q
    rw [bind_of_ok hlength] at h ⊢
    obtain ⟨p', hp', hlist⟩ := length_readDoubles (length / 8).toInt.toNat [] r₁
    obtain rfl : p' = p := Except.ok.inj (hp'.symm.trans h)
    rw [weight_append, hlist, Nat.le_zero.1 hquiet, List.length_nil]

theorem gains_readDoublesField {held : M → ℕ} {n fuel : ℕ} {set : PackedFloat64Array → M}
    (h : ∀ values, held (set values) ≤ n + values.length) (r : ByteReader) :
    Gains Event.appended n (readDoublesField fuel set r) fun p => held p.1 := by
  have hread : Gains Event.appended n (readPackedDoubles fuel r) fun p => n + p.1.length := by
    intro p hp
    rw [appended_readPackedDoubles hp]
  exact hread.bind fun p => .pure (h p.1)

theorem gains_readScalar {held : M → ℕ} {n fuel : ℕ} {set : Int64 → M}
    (h : ∀ v, held (set v) = n) (r : ByteReader) :
    Gains Event.appended n (readScalar fuel set r) fun p => held p.1 :=
  (Gains.const _).bind fun p => .pure (h p.1).le

theorem gains_skip {held : M → ℕ} {fuel : ℕ} (wireType : Int64) (msg : M) (r : ByteReader) :
    Gains Event.appended (held msg) (skip fuel wireType msg r) fun p => held p.1 :=
  (Gains.const _).bind fun _ => .pure le_rfl

/-- What a message holds beyond `held msg` was appended, if that is so for its fields. -/
theorem gains_decodeLoop {held : M → ℕ} {onField : OnField M} {fuel : ℕ}
    (hfield : ∀ number wireType msg r, Gains Event.appended (held msg)
      (onField number wireType msg r) fun p => held p.1) (rounds : ℕ) (msg : M) (r : ByteReader) :
    Gains Event.appended (held msg) (decodeLoop onField fuel rounds msg r) held := by
  induction rounds generalizing msg r with
  | zero =>
    unfold decodeLoop
    split_ifs
    · exact .fail
    · exact .pure le_rfl
  | succ rounds ih =>
    unfold decodeLoop
    split_ifs
    · refine .tell_bind ?_
      refine (Gains.const _).bind fun p => (hfield _ _ msg _).bind fun q => .tell_bind ?_
      exact ih q.1 q.2
    · exact .pure le_rfl

variable (fuel : ℕ) (bytes : PackedByteArray)

theorem gains_decodeServerWelcome :
    Gains Event.appended 0 (decodeServerWelcome fuel bytes) ServerWelcome.held :=
  Gains.zero _

theorem gains_decodeEntitySnapshotProto :
    Gains Event.appended 0 (decodeEntitySnapshotProto fuel bytes) EntitySnapshotProto.held := by
  have hnew : EntitySnapshotProto.new.held = 0 := rfl
  rw [← hnew]
  refine gains_decodeLoop (fun number wireType msg r => ?_) _ _ _
  unfold onEntitySnapshotProtoField
  split_ifs
  · exact gains_readScalar (fun _ => by rfl) r
  · refine gains_readDoublesField (fun values => ?_) r
    show values.length + msg.velocity.length ≤ msg.position.length + msg.velocity.length + _
    omega
  · refine gains_readDoublesField (fun values => ?_) r
    show msg.position.length + values.length ≤ msg.position.length + msg.velocity.length + _
    omega
  · exact gains_skip wireType msg r

theorem gains_readEntity {held : M → ℕ} {entities : List EntitySnapshotProto}
    {set : List EntitySnapshotProto → M} (h : ∀ es, held (set es) = heldBy es) (r : ByteReader) :
    Gains Event.appended (heldBy entities) (readEntity fuel entities set r)
      fun p => held p.1 := by
  refine (Gains.const _).bind fun p => (Gains.const _).bind fun q => ?_
  have hentity := (gains_decodeEntitySnapshotProto fuel q.1).frame (heldBy entities)
  rw [Nat.zero_add] at hentity
  refine hentity.bind fun e => ?_
  rw [append_bind]
  refine .tell_bind (.pure ?_)
  rw [h, heldBy_concat, ← Nat.add_assoc, Nat.add_comm (heldBy entities)]
  rfl

theorem gains_decodeJoinBaseline :
    Gains Event.appended 0 (decodeJoinBaseline fuel bytes) JoinBaseline.held := by
  have hnew : JoinBaseline.new.held = 0 := rfl
  rw [← hnew]
  refine gains_decodeLoop (fun number wireType msg r => ?_) _ _ _
  unfold onJoinBaselineField
  split_ifs
  · exact gains_readScalar (fun _ => by rfl) r
  · exact gains_readEntity fuel (fun _ => by rfl) r
  · exact gains_readScalar (fun _ => by rfl) r
  · exact gains_skip wireType msg r

theorem gains_decodeInputCmdProto :
    Gains Event.appended 0 (decodeInputCmdProto fuel bytes) InputCmdProto.held := by
  have hnew : InputCmdProto.new.held = 0 := rfl
  rw [← hnew]
  refine gains_decodeLoop (fun number wireType msg r => ?_) _ _ _
  unfold onInputCmdProtoField
  split_ifs
  · exact gains_readScalar (fun _ => by rfl) r
  · exact gains_readScalar (fun _ => by rfl) r
  · refine gains_readDoublesField (fun values => ?_) r
    exact Nat.le_add_left values.length _
  · exact gains_skip wireType msg r

theorem gains_decodeSnapshotProto :
    Gains Event.appended 0 (decodeSnapshotProto fuel bytes) SnapshotProto.held := by
  have hnew : SnapshotProto.new.held = 0 := rfl
  rw [← hnew]
  refine gains_decodeLoop (fun number wireType msg r => ?_) _ _ _
  unfold onSnapshotProtoField
  split_ifs
  · exact gains_readScalar (fun _ => by rfl) r
  · exact gains_readEntity fuel (fun _ => by rfl) r
  · exact gains_readScalar (fun _ => by rfl) r
  · exact gains_readScalar (fun _ => by rfl) r
  · exact gains_skip wireType msg r

end WireCodec

end Flowstate.Godot
