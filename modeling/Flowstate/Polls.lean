import Flowstate.Client
import Flowstate.Format
import Flowstate.Frames
import Flowstate.Machine

/-!
# Polls of the test client

Which snapshot the test client holds after any polls. A drain keeps the newest of its
snapshots (`tick_pollSnapshot`), but a later poll overwrites the one held, whatever its tick
(`trackedTick_concat`) : nothing guards the client between two polls, where the match state
of the Godot client refuses a stale tick. So the client follows the newest snapshot, and the
Godot client, just when every poll that brings anything brings something as new as all before
it (`tracks_iff`).
-/

namespace Flowstate

variable {F : Type}

/-! ## The greatest tick -/

/-- The greatest tick of the packets. -/
def greatestTick (packets : List (SnapshotProto F)) : Option ℕ :=
  (packets.map fun p => p.tick.toNat).max?

variable {packets : List (SnapshotProto F)} {p : SnapshotProto F} {t : ℕ}

theorem greatestTick_eq_none : greatestTick packets = none ↔ packets = [] := by
  rw [greatestTick, List.max?_eq_none_iff, List.map_eq_nil_iff]

theorem exists_greatestTick (h : packets ≠ []) : ∃ t, greatestTick packets = some t :=
  Option.ne_none_iff_exists'.1 fun h0 => h (greatestTick_eq_none.1 h0)

theorem greatestTick_eq_some : greatestTick packets = some t ↔
    (∃ p ∈ packets, p.tick.toNat = t) ∧ ∀ p ∈ packets, p.tick.toNat ≤ t := by
  rw [greatestTick, List.max?_eq_some_iff]
  simp only [List.mem_map, forall_exists_index, and_imp, forall_apply_eq_imp_iff₂]

theorem greatestTick_concat (packets : List (SnapshotProto F)) (p : SnapshotProto F) :
    greatestTick (packets ++ [p]) = some (max ((greatestTick packets).getD 0) p.tick.toNat) := by
  rw [greatestTick_eq_some]
  rcases h : greatestTick packets with - | t
  · obtain rfl := greatestTick_eq_none.1 h
    simp
  · obtain ⟨⟨q, hq, rfl⟩, hle⟩ := greatestTick_eq_some.1 h
    constructor
    · rcases le_total q.tick.toNat p.tick.toNat with hqp | hqp
      · exact ⟨p, by simp, (max_eq_right hqp).symm⟩
      · exact ⟨q, by simp [hq], (max_eq_left hqp).symm⟩
    · intro r hr
      rcases List.mem_append.1 hr with hr | hr
      · exact (hle r hr).trans (le_max_left _ _)
      · rw [List.mem_singleton.1 hr]
        exact le_max_right _ _

/-! ## A drain -/

/-- `p` converts to a snapshot. -/
def SnapshotProto.WellFormed (p : SnapshotProto F) : Prop := ∃ s, Snapshot.tryFrom p = .ok s

theorem Snapshot.tick_of_tryFrom {s : Snapshot F} (h : Snapshot.tryFrom p = .ok s) :
    s.tick = p.tick := by
  obtain ⟨entities, -, h⟩ := Rust.bind_eq_ok.1 h
  rw [← Except.ok.inj h]

/-- A drain keeps a snapshot of the greatest tick. -/
theorem tick_pollSnapshot (hwf : ∀ p ∈ packets, p.WellFormed) :
    (pollSnapshot packets).map (fun x => x.1.tick.toNat) = greatestTick packets := by
  induction packets using List.reverseRecOn with
  | nil => rfl
  | append_singleton packets p ih =>
    have ⟨hpackets, hp⟩ := List.forall_mem_append.1 hwf
    obtain ⟨s, hs⟩ := hp p (List.mem_singleton_self p)
    have htick := Snapshot.tick_of_tryFrom hs
    rw [greatestTick_concat, ← ih hpackets, pollSnapshot, List.foldl_concat, ← pollSnapshot,
      drainSnapshot, hs]
    rcases pollSnapshot packets with - | ⟨latest, floor⟩
    · simp [isNewer, htick]
    · simp only [isNewer, Option.map_some, Option.getD_some, decide_eq_true_eq, htick,
        UInt64.lt_iff_toNat_lt]
      split_ifs with h
      · simp [htick, max_eq_right h.le]
      · simp [max_eq_left (not_lt.1 h)]

/-! ## Polls -/

variable {welcome : ServerWelcome} {polls : List (List (SnapshotProto F))}

/-- The tick of the snapshot that a client holds after `polls`. -/
def trackedTick (welcome : ServerWelcome) (polls : List (List (SnapshotProto F))) : Option ℕ :=
  (polls.foldl TestClient.pollSnapshot (TestClient.connect welcome)).snapshot.map fun s =>
    s.tick.toNat

/-- A poll that brings anything overwrites the snapshot held. -/
theorem trackedTick_concat {poll : List (SnapshotProto F)} (hwf : ∀ p ∈ poll, p.WellFormed) :
    trackedTick welcome (polls ++ [poll]) =
      (greatestTick poll).or (trackedTick welcome polls) := by
  rw [trackedTick, List.foldl_concat, TestClient.pollSnapshot, ← tick_pollSnapshot hwf]
  rcases pollSnapshot poll with - | ⟨s, floor⟩ <;> rfl

/-- Every poll that brings anything brings something as new as all before it. -/
def Ascending (polls : List (List (SnapshotProto F))) : Prop :=
  polls.Pairwise fun a b => b ≠ [] → ∀ p ∈ a, ∃ q ∈ b, p.tick.toNat ≤ q.tick.toNat

theorem ascending_concat {poll : List (SnapshotProto F)} :
    Ascending (polls ++ [poll]) ↔ Ascending polls ∧
      (poll ≠ [] → ∀ p ∈ polls.flatten, ∃ q ∈ poll, p.tick.toNat ≤ q.tick.toNat) := by
  have hlast : (∀ a ∈ polls, poll ≠ [] → ∀ p ∈ a, ∃ q ∈ poll, p.tick.toNat ≤ q.tick.toNat) ↔
      (poll ≠ [] → ∀ p ∈ polls.flatten, ∃ q ∈ poll, p.tick.toNat ≤ q.tick.toNat) := by
    constructor
    · intro h hne p hp
      obtain ⟨a, ha, hp⟩ := List.mem_flatten.1 hp
      exact h a ha hne p hp
    · intro h a ha hne p hp
      exact h hne p (List.mem_flatten.2 ⟨a, ha, hp⟩)
  rw [Ascending, List.pairwise_append, ← hlast]
  simp [Ascending]

/-- The greatest tick of a poll as new as `packets` is the greatest tick of both. -/
theorem or_greatestTick {poll : List (SnapshotProto F)}
    (hnew : poll ≠ [] → ∀ p ∈ packets, ∃ q ∈ poll, p.tick.toNat ≤ q.tick.toNat) :
    (greatestTick poll).or (greatestTick packets) = greatestTick (packets ++ poll) := by
  rcases h : greatestTick poll with - | t
  · obtain rfl := greatestTick_eq_none.1 h
    simp
  · obtain ⟨⟨q, hq, rfl⟩, hle⟩ := greatestTick_eq_some.1 h
    rw [Option.some_or, eq_comm, greatestTick_eq_some]
    refine ⟨⟨q, List.mem_append_right packets hq, rfl⟩, fun p hp => ?_⟩
    rcases List.mem_append.1 hp with hp | hp
    · obtain ⟨r, hr, hpr⟩ := hnew (List.ne_nil_of_mem hq) p hp
      exact hpr.trans (hle r hr)
    · exact hle p hp

/-- Ascending polls end at the greatest tick they brought. -/
theorem Ascending.trackedTick (hwf : ∀ p ∈ polls.flatten, p.WellFormed) (h : Ascending polls) :
    trackedTick welcome polls = greatestTick polls.flatten := by
  induction polls using List.reverseRecOn with
  | nil => rfl
  | append_singleton polls poll ih =>
    rw [List.flatten_concat] at hwf ⊢
    have ⟨hpolls, hpoll⟩ := List.forall_mem_append.1 hwf
    obtain ⟨hasc, hnew⟩ := ascending_concat.1 h
    rw [trackedTick_concat hpoll, ih hpolls hasc]
    exact or_greatestTick hnew

/-- The snapshot held is at no poll replaced by an older one. -/
def Rises (welcome : ServerWelcome) (polls : List (List (SnapshotProto F))) : Prop :=
  ∀ before poll after, polls = before ++ poll :: after →
    ∀ t, trackedTick welcome before = some t →
      ∃ u, trackedTick welcome (before ++ [poll]) = some u ∧ t ≤ u

theorem rises_concat {poll : List (SnapshotProto F)} :
    Rises welcome (polls ++ [poll]) ↔ Rises welcome polls ∧
      ∀ t, trackedTick welcome polls = some t →
        ∃ u, trackedTick welcome (polls ++ [poll]) = some u ∧ t ≤ u := by
  constructor
  · intro h
    refine ⟨fun before b after hsplit => ?_, h polls poll [] rfl⟩
    exact h before b (after ++ [poll]) (by rw [hsplit]; simp)
  · rintro ⟨hpolls, hlast⟩ before b after hsplit
    rcases Machine.split_concat hsplit with ⟨rfl, rfl, rfl⟩ | ⟨after', rfl, hpolls'⟩
    · exact hlast
    · exact hpolls before b after' hpolls'

theorem rises_iff (hwf : ∀ p ∈ polls.flatten, p.WellFormed) :
    Rises welcome polls ↔ Ascending polls := by
  induction polls using List.reverseRecOn with
  | nil => simp [Rises, Ascending]
  | append_singleton polls poll ih =>
    rw [List.flatten_concat] at hwf
    have ⟨hpolls, hpoll⟩ := List.forall_mem_append.1 hwf
    rw [rises_concat, ascending_concat, ih hpolls]
    refine and_congr_right fun hasc => ?_
    rw [trackedTick_concat hpoll, hasc.trackedTick hpolls]
    constructor
    · intro h hne p hp
      obtain ⟨t, ht⟩ := exists_greatestTick (List.ne_nil_of_mem hp)
      obtain ⟨u, hu⟩ := exists_greatestTick hne
      obtain ⟨v, hv, htv⟩ := h t ht
      obtain rfl : u = v := Option.some.inj ((Option.or_eq_some_iff.2 (.inl hu)).symm.trans hv)
      obtain ⟨q, hq, rfl⟩ := (greatestTick_eq_some.1 hu).1
      exact ⟨q, hq, ((greatestTick_eq_some.1 ht).2 p hp).trans htv⟩
    · intro hnew t ht
      obtain ⟨⟨p, hp, rfl⟩, -⟩ := greatestTick_eq_some.1 ht
      rw [or_greatestTick hnew]
      obtain ⟨u, hu⟩ := exists_greatestTick
        (List.ne_nil_of_mem (List.mem_append_left poll hp))
      exact ⟨u, hu, (greatestTick_eq_some.1 hu).2 p (List.mem_append_left poll hp)⟩

/-! ## Beside the Godot client -/

/-- The match state of a Godot client to which the packets were delivered. -/
def mirrored [F64 F] (packets : List (SnapshotProto F)) : Godot.MatchState :=
  packets.foldl (fun m p => (m.applySnapshot p.toGodot).1) Godot.MatchState.new

/-- A tick that an `int` can hold is mirrored as it is. -/
theorem latestTick_mirrored [F64 F] (h : ∀ p ∈ packets, p.tick.toNat < 2 ^ 63) :
    (mirrored packets).latestTick.toInt =
      match greatestTick packets with
      | some t => (t : ℤ)
      | none => -1 := by
  induction packets using List.reverseRecOn with
  | nil => rfl
  | append_singleton packets p ih =>
    have ⟨hpackets, hp⟩ := List.forall_mem_append.1 h
    have htick : p.toGodot.tick.toInt = p.tick.toNat :=
      toInt_toInt64 (hp p (List.mem_singleton_self p))
    rw [mirrored, List.foldl_concat, Godot.MatchState.toInt_latestTick_applySnapshot, ← mirrored,
      ih hpackets, htick, greatestTick_concat]
    rcases greatestTick packets with - | t
    · simp
    · simp

/-- What the test client promises over `polls` : the snapshot it holds is never replaced by an
older one and ends at the greatest tick delivered, as it would after a single poll of
everything, and as the Godot client does. -/
structure Tracks [F64 F] (welcome : ServerWelcome) (polls : List (List (SnapshotProto F))) :
    Prop where
  rises : Rises welcome polls
  newest : trackedTick welcome polls = greatestTick polls.flatten
  batched : trackedTick welcome polls = trackedTick welcome [polls.flatten]
  mirrored : (mirrored polls.flatten).latestTick.toInt =
    match trackedTick welcome polls with
    | some t => (t : ℤ)
    | none => -1

/-- The client tracks the newest state just when every poll that brings anything brings
something as new as all before it, and the ticks fit the `int` of the Godot client. -/
theorem tracks_iff [F64 F] (hwf : ∀ p ∈ polls.flatten, p.WellFormed) :
    Tracks welcome polls ↔ Ascending polls ∧ ∀ p ∈ polls.flatten, p.tick.toNat < 2 ^ 63 := by
  constructor
  · intro h
    refine ⟨(rises_iff hwf).1 h.rises, fun p hp => ?_⟩
    obtain ⟨t, ht⟩ := exists_greatestTick (List.ne_nil_of_mem hp)
    have hint : (Flowstate.mirrored polls.flatten).latestTick.toInt = t := by
      rw [h.mirrored, h.newest, ht]
    have hle := (greatestTick_eq_some.1 ht).2 p hp
    have hlt := (Flowstate.mirrored polls.flatten).latestTick.toInt_lt
    omega
  · rintro ⟨hasc, hlt⟩
    have hnewest : trackedTick welcome polls = greatestTick polls.flatten := hasc.trackedTick hwf
    refine ⟨(rises_iff hwf).2 hasc, hnewest, ?_, ?_⟩
    · rw [hnewest, ← List.nil_append [polls.flatten], trackedTick_concat hwf]
      exact (Option.or_none ..).symm
    · rw [hnewest, latestTick_mirrored hlt]

/-- A snapshot without entities. -/
def emptySnapshot (tick : Tick) : SnapshotProto F64.Binary64 := ⟨tick, [], 0, 0⟩

theorem wellFormed_emptySnapshot (tick : Tick) : (emptySnapshot tick).WellFormed :=
  ⟨⟨tick, [], 0⟩, rfl⟩

theorem tracks_of_ascending :
    Tracks ⟨0, 60, 0, 1⟩ [[emptySnapshot 5, emptySnapshot 3], [], [emptySnapshot 6]] := by
  refine (tracks_iff ?_).2 ⟨?_, ?_⟩
  · simp [wellFormed_emptySnapshot]
  · simp [Ascending, emptySnapshot]
  · simp [emptySnapshot]

/-- A snapshot that arrives a poll late takes the place of a newer one. -/
theorem not_tracks_late :
    (∀ p ∈ [[emptySnapshot 5], [emptySnapshot 3]].flatten, p.WellFormed) ∧
      ¬Tracks ⟨0, 60, 0, 1⟩ [[emptySnapshot 5], [emptySnapshot 3]] := by
  refine ⟨by simp [wellFormed_emptySnapshot], fun h => ?_⟩
  have htick : trackedTick ⟨0, 60, 0, 1⟩ [[emptySnapshot 5], [emptySnapshot 3]] = some 3 := rfl
  have hgreatest : greatestTick [emptySnapshot 5, emptySnapshot 3] = some 5 := rfl
  have h35 := htick.symm.trans (h.newest.trans hgreatest)
  cases h35

end Flowstate
