import Flowstate.Gdscript
import Flowstate.Sim

/-!
# What the digest sees of a world

`World.stateDigest` feeds a hasher piece by piece. `World.feed` are the same calls for a
hasher of any type, and with one that keeps its input they give the bytes that are fed
(`World.digestBytes`). A character is a record of 40 bytes, so the records can be cut out of
the stream without a length or a separator, and the bytes of two worlds agree exactly if
tick, ids and canonical coordinates do (`stateDigest_canonical`). A step of the hash can be
undone, in the state and in the byte, so one changed byte changes the digest
(`digest_detects`).
-/

open Rust

namespace Flowstate

variable {F : Type} [F64 F]

/-- The calls `stateDigest` makes of its hasher. -/
def World.feed {H : Type} (update : H → List UInt8 → H) (hasher : H) (w : World F) : H :=
  let hasher := update hasher (toLeBytes w.tick)
  w.characters.foldl (fun hasher c =>
    let hasher := update hasher (toLeBytes c.entityId)
    let hasher := update hasher (toLeBytes (canonicalizeF64 c.position.1))
    let hasher := update hasher (toLeBytes (canonicalizeF64 c.position.2))
    let hasher := update hasher (toLeBytes (canonicalizeF64 c.velocity.1))
    update hasher (toLeBytes (canonicalizeF64 c.velocity.2))) hasher

theorem World.stateDigest_eq_feed (w : World F) :
    w.stateDigest = (w.feed Fnv1a64.update Fnv1a64.new).finish := rfl

/-- All bytes fed to the hasher, in order. -/
def World.digestBytes (w : World F) : List UInt8 := w.feed (· ++ ·) []

/-- The bytes of one character. -/
def Character.digestBytes (c : Character F) : List UInt8 :=
  toLeBytes c.entityId ++ (toLeBytes (canonicalizeF64 c.position.1) ++
    (toLeBytes (canonicalizeF64 c.position.2) ++ (toLeBytes (canonicalizeF64 c.velocity.1) ++
      toLeBytes (canonicalizeF64 c.velocity.2))))

/-! ## One pass over the bytes -/

/-- A hasher whose updates add up gets the bytes in one update. -/
theorem World.feed_eq {H : Type} {update : H → List UInt8 → H} (hasher : H)
    (happend : ∀ h a b, update (update h a) b = update h (a ++ b)) (w : World F) :
    w.feed update hasher =
      update hasher (toLeBytes w.tick ++ w.characters.flatMap Character.digestBytes) := by
  have hfold : ∀ (characters : List (Character F)) (bytes : List UInt8),
      characters.foldl (fun hasher c => update hasher c.digestBytes) (update hasher bytes) =
        update hasher (bytes ++ characters.flatMap Character.digestBytes) := by
    intro characters
    induction characters with
    | nil => simp
    | cons c characters ih =>
      intro bytes
      rw [List.foldl_cons, happend, ih, List.flatMap_cons, List.append_assoc]
  unfold feed
  simp only [happend, List.append_assoc]
  exact hfold w.characters (toLeBytes w.tick)

theorem World.digestBytes_eq (w : World F) :
    w.digestBytes = toLeBytes w.tick ++ w.characters.flatMap Character.digestBytes :=
  w.feed_eq [] fun h a b => List.append_assoc h a b

/-- The digest is the FNV-1a hash of the bytes. -/
theorem World.stateDigest_eq_update (w : World F) :
    w.stateDigest = (Fnv1a64.new.update w.digestBytes).finish := by
  rw [stateDigest_eq_feed, digestBytes_eq, w.feed_eq]
  intro h a b
  rw [Fnv1a64.update, Fnv1a64.update, Fnv1a64.update, List.foldl_append]

/-! ## Records of fixed width -/

theorem toLeBytes_injective : Function.Injective toLeBytes :=
  Function.LeftInverse.injective PackedByteArray.ofLeBytes_toLeBytes

/-- Numbers in front of the rest are read back one by one. -/
theorem toLeBytes_append_inj {a b : UInt64} {as bs : List UInt8} :
    toLeBytes a ++ as = toLeBytes b ++ bs ↔ a = b ∧ as = bs := by
  have hlen : (toLeBytes a).length = (toLeBytes b).length := by
    rw [PackedByteArray.length_toLeBytes, PackedByteArray.length_toLeBytes]
  rw [List.append_eq_append_iff_of_size_eq_left hlen, toLeBytes_injective.eq_iff]

/-- Records of one width, none of them empty, are cut out of their concatenation. -/
theorem flatMap_eq_iff {α β : Type} {f : α → List β} {k : ℕ} (hf : ∀ x, (f x).length = k + 1) :
    ∀ {l l' : List α}, l.flatMap f = l'.flatMap f ↔ List.Forall₂ (fun x y => f x = f y) l l'
  | [], [] => by simp
  | [], y :: l' => by
    have hne : f y ≠ [] := List.ne_nil_of_length_eq_add_one (hf y)
    simp [hne]
  | x :: l, [] => by
    have hne : f x ≠ [] := List.ne_nil_of_length_eq_add_one (hf x)
    simp [hne]
  | x :: l, y :: l' => by
    rw [List.flatMap_cons, List.flatMap_cons,
      List.append_eq_append_iff_of_size_eq_left ((hf x).trans (hf y).symm), flatMap_eq_iff hf,
      List.forall₂_cons]

theorem Character.length_digestBytes (c : Character F) : c.digestBytes.length = 39 + 1 := by
  simp only [digestBytes, List.length_append, PackedByteArray.length_toLeBytes]

theorem Character.digestBytes_eq_iff {c d : Character F} :
    c.digestBytes = d.digestBytes ↔ c.entityId = d.entityId ∧
      canonicalizeF64 c.position.1 = canonicalizeF64 d.position.1 ∧
      canonicalizeF64 c.position.2 = canonicalizeF64 d.position.2 ∧
      canonicalizeF64 c.velocity.1 = canonicalizeF64 d.velocity.1 ∧
      canonicalizeF64 c.velocity.2 = canonicalizeF64 d.velocity.2 := by
  rw [digestBytes, digestBytes, toLeBytes_append_inj, toLeBytes_append_inj, toLeBytes_append_inj,
    toLeBytes_append_inj, toLeBytes_injective.eq_iff]

/-! ## Canonical coordinates -/

variable {ar : F64.Arithmetic}

/-- One pattern, or both zeros, or both NaNs. -/
def SameNumber (x y : F64.Pattern ar) : Prop :=
  x.bits = y.bits ∨ (x.isZero = true ∧ y.isZero = true) ∨ (x.isNan = true ∧ y.isNan = true)

/-- Two characters the digest does not tell apart. -/
structure SameCharacter (c d : Character (F64.Pattern ar)) : Prop where
  entityId : c.entityId = d.entityId
  x : SameNumber c.position.1 d.position.1
  y : SameNumber c.position.2 d.position.2
  vx : SameNumber c.velocity.1 d.velocity.1
  vy : SameNumber c.velocity.2 d.velocity.2

theorem canonicalizeF64_eq (x : F64.Pattern ar) :
    canonicalizeF64 x = if x.isNan then 0x7ff8000000000000 else if x.isZero then 0 else x.bits := by
  rw [canonicalizeF64, F64.Pattern.eq_lit_zero]
  rfl

/-- The canonical pattern of the NaNs is one, and that of the zeros is one. -/
theorem canonicalizeF64_eq_iff {x y : F64.Pattern ar} :
    canonicalizeF64 x = canonicalizeF64 y ↔ SameNumber x y := by
  have hnan : ∀ z : F64.Pattern ar, z.bits = 0x7ff8000000000000 → z.isNan = true := by
    intro z hz
    unfold F64.Pattern.isNan F64.Pattern.magnitude
    rw [hz]
    decide
  have hzero : ∀ z : F64.Pattern ar, z.bits = 0 → z.isZero = true := fun z hz => by
    simp [F64.Pattern.isZero, hz]
  have hexcl : ∀ z : F64.Pattern ar, z.isZero = true → z.isNan = false :=
    fun z => F64.Pattern.isNan_of_isZero
  have hnan₀ : (0x7ff8000000000000 : UInt64) ≠ 0 := by decide
  have hbits : x.bits = y.bits → x.isNan = y.isNan ∧ x.isZero = y.isZero := by
    intro h
    unfold F64.Pattern.isNan F64.Pattern.isZero F64.Pattern.magnitude
    rw [h]
    exact ⟨rfl, rfl⟩
  rw [canonicalizeF64_eq, canonicalizeF64_eq, SameNumber]
  grind

/-! ## Both directions -/

/-- The bytes agree exactly if the worlds agree up to the sign of zeros and the payload of NaNs,
and then the digests agree, which are one pass over the bytes. -/
theorem stateDigest_canonical (w w' : World (F64.Pattern ar)) :
    (w.digestBytes = w'.digestBytes ↔
      w.tick = w'.tick ∧ List.Forall₂ SameCharacter w.characters w'.characters) ∧
    (w.tick = w'.tick → List.Forall₂ SameCharacter w.characters w'.characters →
      w.stateDigest = w'.stateDigest) ∧
    w.stateDigest = (Fnv1a64.new.update w.digestBytes).finish := by
  have hrecord : ∀ c d : Character (F64.Pattern ar),
      c.digestBytes = d.digestBytes ↔ SameCharacter c d := by
    intro c d
    simp only [Character.digestBytes_eq_iff, canonicalizeF64_eq_iff]
    constructor
    · rintro ⟨hid, hx, hy, hvx, hvy⟩
      exact ⟨hid, hx, hy, hvx, hvy⟩
    · rintro ⟨hid, hx, hy, hvx, hvy⟩
      exact ⟨hid, hx, hy, hvx, hvy⟩
  have hiff : w.digestBytes = w'.digestBytes ↔
      w.tick = w'.tick ∧ List.Forall₂ SameCharacter w.characters w'.characters := by
    rw [World.digestBytes_eq, World.digestBytes_eq, toLeBytes_append_inj,
      flatMap_eq_iff Character.length_digestBytes]
    simp only [hrecord]
  refine ⟨hiff, fun htick hsame => ?_, w.stateDigest_eq_update⟩
  rw [w.stateDigest_eq_update, w'.stateDigest_eq_update, hiff.2 ⟨htick, hsame⟩]

/-! ## One changed byte -/

section Fold

variable {α β : Type*} {step : β → α → β}

/-- Steps that lose nothing of the state lose nothing in a row. -/
theorem foldl_injective (hstate : ∀ x, Function.Injective fun b => step b x) (l : List α) :
    Function.Injective fun b => l.foldl step b := by
  induction l with
  | nil => exact fun _ _ h => h
  | cons x l ih => exact fun b b' h => hstate x (ih h)

/-- Two lists that differ in one position. -/
structure DifferInOne (l l' : List α) : Prop where
  length : l.length = l'.length
  position : ∃! i : ℕ, l[i]? ≠ l'[i]?

theorem DifferInOne.mid {x y : α} (hxy : x ≠ y) (before after : List α) :
    DifferInOne (before ++ x :: after) (before ++ y :: after) := by
  refine ⟨by simp, before.length, by simpa using hxy, fun i hi => ?_⟩
  rcases lt_trichotomy i before.length with hlt | rfl | hgt
  · exact absurd (by rw [List.getElem?_append_left hlt, List.getElem?_append_left hlt]) hi
  · rfl
  · obtain ⟨k, rfl⟩ : ∃ k, i = before.length + (k + 1) := ⟨i - before.length - 1, by omega⟩
    refine absurd ?_ hi
    rw [List.getElem?_append_right (by omega), List.getElem?_append_right (by omega)]
    simp

/-- What two such lists have in common stands around the position. -/
theorem DifferInOne.split {l l' : List α} (h : DifferInOne l l') :
    ∃ before x y after, l = before ++ x :: after ∧ l' = before ++ y :: after ∧ x ≠ y := by
  obtain ⟨hlen, i, hi, hunique⟩ := h
  have heq : ∀ j, j ≠ i → l[j]? = l'[j]? := fun j hj => not_not.1 fun hne => hj (hunique j hne)
  have hlt : i < l.length := by
    by_contra hge
    have hle := not_lt.1 hge
    exact hi (by rw [List.getElem?_eq_none hle, List.getElem?_eq_none (hlen ▸ hle)])
  have hlt' : i < l'.length := hlen ▸ hlt
  have hbefore : l.take i = l'.take i := by
    refine List.ext_getElem? fun j => ?_
    rw [List.getElem?_take, List.getElem?_take]
    split_ifs with hj
    · exact heq j hj.ne
    · rfl
  have hafter : l.drop (i + 1) = l'.drop (i + 1) := by
    refine List.ext_getElem? fun j => ?_
    rw [List.getElem?_drop, List.getElem?_drop]
    exact heq _ (by omega)
  refine ⟨l.take i, l[i], l'[i], l.drop (i + 1), ?_, ?_, fun hxy => hi ?_⟩
  · rw [List.getElem_cons_drop, List.take_append_drop]
  · rw [hbefore, hafter, List.getElem_cons_drop, List.take_append_drop]
  · rw [List.getElem?_eq_getElem hlt, List.getElem?_eq_getElem hlt', hxy]

/-- Steps that lose nothing of the state, nor of the element, tell such lists apart. -/
theorem foldl_ne_of_differInOne (hstate : ∀ x, Function.Injective fun b => step b x)
    (helement : ∀ b, Function.Injective (step b)) {l l' : List α} (h : DifferInOne l l') (b : β) :
    l.foldl step b ≠ l'.foldl step b := by
  obtain ⟨before, x, y, after, rfl, rfl, hxy⟩ := h.split
  rw [List.foldl_append, List.foldl_append, List.foldl_cons, List.foldl_cons]
  intro heq
  exact hxy (helement _ (foldl_injective hstate after heq))

end Fold

/-- The prime is odd, and so has an inverse. -/
theorem Fnv1a64.mul_prime_injective : Function.Injective fun x : UInt64 => x * prime := by
  have hinv : prime * 0xce965057aff6957b = 1 := by decide
  refine Function.LeftInverse.injective (g := fun x => x * 0xce965057aff6957b) fun x => ?_
  calc x * prime * 0xce965057aff6957b = x * (prime * 0xce965057aff6957b) := UInt64.mul_assoc ..
    _ = x := by rw [hinv, UInt64.mul_one]

theorem xor_injective (a : UInt64) : Function.Injective fun b => a ^^^ b := by
  refine Function.LeftInverse.injective (g := fun b => a ^^^ b) fun b => ?_
  calc a ^^^ (a ^^^ b) = a ^^^ a ^^^ b := (UInt64.xor_assoc ..).symm
    _ = b := by rw [UInt64.xor_self, UInt64.zero_xor]

/-- The hash of bytes tells them from those with one byte changed, whatever came before. -/
theorem Fnv1a64.update_ne {as bs : List UInt8} (h : DifferInOne as bs) (hasher : Fnv1a64) :
    (hasher.update as).finish ≠ (hasher.update bs).finish := by
  let step : Fnv1a64 → UInt8 → Fnv1a64 := fun h byte => ⟨(h.state ^^^ byte.toUInt64) * prime⟩
  have hstep : ∀ {x y : UInt64}, (⟨x * prime⟩ : Fnv1a64) = ⟨y * prime⟩ → x = y := fun heq =>
    mul_prime_injective (Fnv1a64.mk.inj heq)
  have hstate : ∀ byte, Function.Injective fun h => step h byte := by
    rintro byte ⟨x⟩ ⟨y⟩ heq
    have hxor := hstep heq
    rw [UInt64.xor_comm x, UInt64.xor_comm y] at hxor
    exact congrArg Fnv1a64.mk (xor_injective _ hxor)
  have hbyte : ∀ h, Function.Injective (step h) := fun h a b heq =>
    UInt8.toUInt64_inj.1 (xor_injective _ (hstep heq))
  have hne := foldl_ne_of_differInOne hstate hbyte h hasher
  exact fun heq => hne (congrArg Fnv1a64.mk heq)

/-- One changed byte changes the hash, and one changed byte of what is fed changes the digest. -/
theorem digest_detects (hasher : Fnv1a64) :
    (∀ as bs, DifferInOne as bs → (hasher.update as).finish ≠ (hasher.update bs).finish) ∧
    ∀ w w' : World F, DifferInOne w.digestBytes w'.digestBytes →
      w.stateDigest ≠ w'.stateDigest := by
  refine ⟨fun as bs h => Fnv1a64.update_ne h hasher, fun w w' h => ?_⟩
  rw [w.stateDigest_eq_update, w'.stateDigest_eq_update]
  exact Fnv1a64.update_ne h Fnv1a64.new

/-- Two worlds that are one tick apart. -/
theorem digest_detects_tick : ∃ w w' : World ℚ,
    World.new 0 60 = .ok w ∧ w' = { w with tick := 1 } ∧ w.stateDigest ≠ w'.stateDigest := by
  have hmid : DifferInOne (toLeBytes 0) (toLeBytes 1) :=
    DifferInOne.mid (x := 0) (y := 1) (by decide) [] (List.replicate 7 0)
  exact ⟨_, _, rfl, rfl, (digest_detects Fnv1a64.new).2 _ _ hmid⟩

end Flowstate
