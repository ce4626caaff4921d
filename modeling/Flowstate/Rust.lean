import Mathlib.Algebra.Group.Nat.Defs
import Mathlib.Data.List.AList
import Mathlib.Data.List.Sort
import Mathlib.Tactic.Common

/-!
# What Rust code takes from its language

A function that can panic returns `Except Panic`. Addition on machine integers is checked
(`addU64`, `addU8`) : the overflow that panics under overflow checks is an error here, so
a run that succeeds is also the run of a build without the checks, since nothing in it
wraps. `HashMap` is Mathlib's association list with one entry per key; `retain` and
`insertAll` are its filter and its insertion of one value at many keys. `sortByKey` is the
stable sort, `rangeU64` the values a `for` loop over a range takes.
-/

namespace Rust

universe u

variable {α β ε : Type*}

/-- A panic, with its message. -/
structure Panic where
  message : String
deriving DecidableEq, Repr

theorem bind_eq_ok {α β : Type u} {x : Except ε α} {f : α → Except ε β} {b : β} :
    (x >>= f) = .ok b ↔ ∃ a, x = .ok a ∧ f a = .ok b := by
  rcases x with e | a <;> simp [bind, Except.bind]

theorem map_eq_ok {f : α → β} {x : Except ε α} {b : β} :
    x.map f = .ok b ↔ ∃ a, x = .ok a ∧ f a = b := by
  rcases x with e | a <;> simp [Except.map]

theorem forM_eq_ok {f : α → Except ε PUnit} {l : List α} :
    l.forM f = .ok ⟨⟩ ↔ ∀ x ∈ l, f x = .ok ⟨⟩ := by
  induction l with
  | nil => simp [List.forM, pure, Except.pure]
  | cons x l ih =>
    rw [List.forM, List.forall_mem_cons, ← ih, bind_eq_ok]
    constructor
    · rintro ⟨⟨⟩, hx, hl⟩
      exact ⟨hx, hl⟩
    · rintro ⟨hx, hl⟩
      exact ⟨⟨⟩, hx, hl⟩

/-! ## Checked integer arithmetic -/

/-- The panic of an addition that overflows. -/
def addOverflow : Panic := ⟨"attempt to add with overflow"⟩

def addU64 (a b : UInt64) : Except Panic UInt64 :=
  if a.toNat + b.toNat < 2 ^ 64 then .ok (a + b) else .error addOverflow

def addU8 (a b : UInt8) : Except Panic UInt8 :=
  if a.toNat + b.toNat < 2 ^ 8 then .ok (a + b) else .error addOverflow

theorem addU64_eq_ok {a b c : UInt64} : addU64 a b = .ok c ↔ c.toNat = a.toNat + b.toNat := by
  have hc := c.toNat_lt
  unfold addU64
  split_ifs with h
  · rw [Except.ok.injEq, ← UInt64.toNat_inj, UInt64.toNat_add, Nat.mod_eq_of_lt h, eq_comm]
  · simp only [false_iff]
    omega

theorem addU8_eq_ok {a b c : UInt8} : addU8 a b = .ok c ↔ c.toNat = a.toNat + b.toNat := by
  have hc := c.toNat_lt
  unfold addU8
  split_ifs with h
  · rw [Except.ok.injEq, ← UInt8.toNat_inj, UInt8.toNat_add, Nat.mod_eq_of_lt h, eq_comm]
  · simp only [false_iff]
    omega

theorem addU64_of_lt {a b : UInt64} (h : a.toNat + b.toNat < 2 ^ 64) :
    ∃ c, addU64 a b = .ok c ∧ c.toNat = a.toNat + b.toNat := by
  refine ⟨a + b, if_pos h, ?_⟩
  rw [UInt64.toNat_add, Nat.mod_eq_of_lt h]

theorem addU64_eq_error {a b : UInt64} {e : Panic} (h : addU64 a b = .error e) :
    e = addOverflow ∧ 2 ^ 64 ≤ a.toNat + b.toNat := by
  unfold addU64 at h
  split_ifs at h with hlt
  exact ⟨(Except.error.inj h).symm, Nat.le_of_not_lt hlt⟩

/-- The values of `a..b`, in order. -/
def rangeU64 (a b : UInt64) : List UInt64 :=
  (List.range' a.toNat (b.toNat - a.toNat)).map UInt64.ofNat

theorem mem_rangeU64 {a b t : UInt64} :
    t ∈ rangeU64 a b ↔ a.toNat ≤ t.toNat ∧ t.toNat < b.toNat := by
  have hb : b.toNat < UInt64.size := b.toNat_lt_size
  simp only [rangeU64, List.mem_map, List.mem_range'_1]
  constructor
  · rintro ⟨n, hn, rfl⟩
    rw [UInt64.toNat_ofNat_of_lt' (by omega)]
    omega
  · intro h
    exact ⟨t.toNat, by omega, UInt64.ofNat_toNat⟩

theorem length_rangeU64 (a b : UInt64) : (rangeU64 a b).length = b.toNat - a.toNat := by
  simp [rangeU64]

/-- Extending the range by one appends its old end. -/
theorem rangeU64_succ {a b c : UInt64} (hab : a.toNat ≤ b.toNat) (hc : c.toNat = b.toNat + 1) :
    rangeU64 a c = rangeU64 a b ++ [b] := by
  have h : c.toNat - a.toNat = (b.toNat - a.toNat) + 1 := by omega
  have hb : a.toNat + 1 * (b.toNat - a.toNat) = b.toNat := by omega
  rw [rangeU64, rangeU64, h, List.range'_concat, List.map_append, hb, List.map_singleton,
    UInt64.ofNat_toNat]

/-- The first `k` values of a range are a range. -/
theorem take_rangeU64 {a b c : UInt64} (hac : a.toNat ≤ c.toNat) (hcb : c.toNat ≤ b.toNat) :
    (rangeU64 a b).take (c.toNat - a.toNat) = rangeU64 a c := by
  have h : b.toNat - a.toNat = (c.toNat - a.toNat) + (b.toNat - c.toNat) := by omega
  rw [rangeU64, rangeU64, ← List.map_take, h, ← List.range'_append_1,
    List.take_left' (List.length_range' ..)]

/-- The eight bytes of `n`, least significant first. -/
def toLeBytes (n : UInt64) : List UInt8 :=
  (List.range 8).map fun i => (n >>> UInt64.ofNat (8 * i)).toUInt8

theorem toNat_shiftRight (n : UInt64) {k : ℕ} (hk : k < 64) :
    (n >>> UInt64.ofNat k).toNat = n.toNat / 2 ^ k := by
  have hsize : k < UInt64.size := lt_trans hk (by decide)
  rw [UInt64.toNat_shiftRight, UInt64.toNat_ofNat_of_lt' hsize, Nat.mod_eq_of_lt hk,
    Nat.shiftRight_eq_div_pow]

/-! ## Hash maps -/

/-- A hash map : its entries in some order, one per key. -/
abbrev HashMap (K V : Type) := AList fun _ : K => V

namespace HashMap

variable {K V : Type} [DecidableEq K]

/-- Keep the entries that satisfy `p`. -/
def retain (p : K → V → Bool) (m : HashMap K V) : HashMap K V :=
  ⟨m.entries.filter fun e => p e.1 e.2, m.nodupKeys.sublist List.filter_sublist⟩

/-- Insert `v` at every key of `ks`. -/
def insertAll (ks : List K) (v : V) (m : HashMap K V) : HashMap K V :=
  ks.foldl (fun m k => m.insert k v) m

theorem lookup_insert (m : HashMap K V) (k k' : K) (v : V) :
    AList.lookup k' (AList.insert k v m) = if k' = k then some v else m.lookup k' := by
  by_cases hk : k' = k
  · subst hk
    simp
  · simp [hk, AList.lookup_insert_ne hk]

theorem lookup_erase (m : HashMap K V) (k k' : K) :
    AList.lookup k' (AList.erase k m) = if k' = k then none else m.lookup k' := by
  by_cases hk : k' = k
  · subst hk
    simp
  · simp [hk, AList.lookup_erase_ne hk]

/-- A table whose entry for `k` is already `v` needs no change. -/
theorem lookup_eq_ite {m : HashMap K V} {k : K} {v : Option V} (h : m.lookup k = v) (k' : K) :
    m.lookup k' = if k' = k then v else m.lookup k' := by
  by_cases hk : k' = k
  · subst hk
    simp [h]
  · simp [hk]

theorem lookup_retain (p : K → V → Bool) (m : HashMap K V) (k : K) :
    (retain p m).lookup k = (m.lookup k).filter (p k) := by
  ext v
  rw [← Option.mem_def, AList.mem_lookup_iff, Option.filter_eq_some_iff, ← Option.mem_def,
    AList.mem_lookup_iff]
  simp [retain]

theorem lookup_insertAll (ks : List K) (v : V) (m : HashMap K V) (k : K) :
    (insertAll ks v m).lookup k = if k ∈ ks then some v else m.lookup k := by
  induction ks generalizing m with
  | nil => simp [insertAll]
  | cons k' ks ih =>
    rw [insertAll, List.foldl_cons, ← insertAll, ih, lookup_insert]
    by_cases hk : k = k' <;> simp [hk]

/-- The same entries, in whatever order. -/
def Same (m m' : HashMap K V) : Prop := ∀ k, m.lookup k = m'.lookup k

/-- The entries in the opposite order. -/
def reverse (m : HashMap K V) : HashMap K V :=
  ⟨m.entries.reverse, (List.perm_nodupKeys m.entries.reverse_perm).2 m.nodupKeys⟩

theorem same_reverse (m : HashMap K V) : m.Same m.reverse := fun _ =>
  AList.perm_lookup m.entries.reverse_perm.symm

namespace Same

variable {m m' : HashMap K V}

theorem mem_iff (h : m.Same m') (k : K) : k ∈ m ↔ k ∈ m' := by
  rw [← AList.lookup_isSome, ← AList.lookup_isSome, h k]

theorem keys_perm (h : m.Same m') : m.keys.Perm m'.keys :=
  (List.perm_ext_iff_of_nodup m.keys_nodup m'.keys_nodup).2 h.mem_iff

theorem trans {m'' : HashMap K V} (h : m.Same m') (h' : m'.Same m'') : m.Same m'' :=
  fun k => (h k).trans (h' k)

theorem insert (h : m.Same m') (k : K) (v : V) :
    HashMap.Same (AList.insert k v m) (AList.insert k v m') := fun k' => by
  rw [lookup_insert, lookup_insert, h k']

theorem erase (h : m.Same m') (k : K) : HashMap.Same (AList.erase k m) (AList.erase k m') :=
  fun k' => by
    rw [lookup_erase, lookup_erase, h k']

theorem retain (h : m.Same m') (p : K → V → Bool) :
    HashMap.Same (HashMap.retain p m) (HashMap.retain p m') := fun k => by
  rw [lookup_retain, lookup_retain, h k]

/-- Inserting one value at many keys is the same in any order of the keys. -/
theorem insertAll (h : m.Same m') {ks ks' : List K} (hks : ks.Perm ks') (v : V) :
    HashMap.Same (HashMap.insertAll ks v m) (HashMap.insertAll ks' v m') := fun k => by
  rw [lookup_insertAll, lookup_insertAll, h k]
  simp only [hks.mem_iff]

end Same

end HashMap

/-! ## Stable sorting and in-place updates -/

/-- Stable sort by an integer key. -/
def sortByKey (key : α → ℕ) (l : List α) : List α :=
  l.insertionSort fun a b => key a ≤ key b

theorem perm_sortByKey (key : α → ℕ) (l : List α) : (sortByKey key l).Perm l :=
  List.perm_insertionSort _ l

theorem pairwise_sortByKey (key : α → ℕ) (l : List α) :
    (sortByKey key l).Pairwise fun a b => key a ≤ key b :=
  have : Std.Total fun a b : α => key a ≤ key b := ⟨fun a b => Nat.le_total (key a) (key b)⟩
  have : IsTrans α fun a b => key a ≤ key b := ⟨fun _ _ _ => Nat.le_trans⟩
  List.pairwise_insertionSort _ l

theorem sortByKey_of_pairwise {key : α → ℕ} {l : List α}
    (h : l.Pairwise fun a b => key a ≤ key b) : sortByKey key l = l :=
  h.insertionSort_eq

/-- Elements with distinct keys are sorted alike, in whatever order they come. -/
theorem sortByKey_eq_of_perm {key : α → ℕ} {l l' : List α} (h : l.Perm l')
    (hnodup : (l.map key).Nodup) : sortByKey key l = sortByKey key l' := by
  have hperm := ((perm_sortByKey key l).trans h).trans (perm_sortByKey key l').symm
  refine hperm.eq_of_pairwise ?_ (pairwise_sortByKey key l) (pairwise_sortByKey key l')
  intro x y hx hy hxy hyx
  have hx : x ∈ l := (perm_sortByKey key l).subset hx
  have hy : y ∈ l := h.symm.subset ((perm_sortByKey key l').subset hy)
  exact List.inj_on_of_nodup_map hnodup hx hy (Nat.le_antisymm hxy hyx)

/-- A list with distinct keys finds each of its elements by key. -/
theorem find?_key_eq {K : Type*} [DecidableEq K] {key : α → K} {l : List α} {x : α}
    (hnodup : (l.map key).Nodup) (hx : x ∈ l) : (l.find? fun y => key y == key x) = some x := by
  rcases hfind : l.find? fun y => key y == key x with _ | y
  · rw [List.find?_eq_none] at hfind
    exact absurd (beq_self_eq_true (key x)) (hfind x hx)
  · have hy : key y = key x := by simpa using List.find?_some hfind
    rw [List.inj_on_of_nodup_map hnodup (List.mem_of_find?_eq_some hfind) hx hy]

/-- A list with distinct keys finds the same element by key in any order. -/
theorem find?_key_perm {K : Type*} [DecidableEq K] {key : α → K} {l l' : List α} (h : l.Perm l')
    (hnodup : (l.map key).Nodup) (k : K) :
    (l.find? fun y => key y == k) = l'.find? fun y => key y == k := by
  rcases hfind : l.find? fun y => key y == k with _ | x
  · rw [List.find?_eq_none] at hfind
    exact (List.find?_eq_none.2 fun y hy => hfind y (h.mem_iff.2 hy)).symm
  · obtain rfl : key x = k := by simpa using List.find?_some hfind
    have hx := h.mem_iff.1 (List.mem_of_find?_eq_some hfind)
    exact (find?_key_eq ((h.map key).nodup_iff.1 hnodup) hx).symm

/-- Apply `f` to the first element that satisfies `p`, if any. -/
def modifyFirst (p : α → Bool) (f : α → α) : List α → List α
  | [] => []
  | x :: xs => if p x then f x :: xs else x :: modifyFirst p f xs

/-- If at most one element satisfies `p`, updating the first is updating every one. -/
theorem modifyFirst_eq_map {p : α → Bool} {f : α → α} :
    ∀ {l : List α}, (l.Pairwise fun a b => ¬(p a ∧ p b)) →
      modifyFirst p f l = l.map fun x => if p x then f x else x
  | [], _ => rfl
  | x :: xs, h => by
    obtain ⟨hx, hxs⟩ := List.pairwise_cons.1 h
    rw [modifyFirst, List.map_cons]
    cases hp : p x with
    | true =>
      have hrest : xs.map (fun y => if p y then f y else y) = xs := by
        refine (List.map_congr_left fun y hy => ?_).trans xs.map_id
        have hpy : p y = false := by simpa [hp] using hx y hy
        simp [hpy]
      simp [hrest]
    | false => simp [modifyFirst_eq_map hxs]

end Rust
