import Flowstate.Lockstep
import Flowstate.TickLoop

/-!
# Peers and their sessions

`peerSessions` binds each connection that has said hello to the session it opened, and to no
other, as long as the loop hears of every disconnect of a bound peer (`Bindings`). The paced
loop does. The loop that waits for the first session drops every event but a hello, so a
connection that says hello and ends within one drain leaves its binding behind, for the next
connection of the same peer to be taken for it (`stale_binding`). Where no such disconnect
is drained, nothing is ever stale (`neverStale_of_heeds`). A hello is then also answered :
the host's peer limit leaves room for its session, and the server's counters are the number
of sessions opened so far (`Server.Numbered`).
-/

set_option linter.unusedSectionVars false

open Rust

namespace Flowstate

variable {F : Type} [F64 F]

/-- The peer and the session of an output that opens one. -/
def LoopOut.opens : LoopOut F → Option (PeerId × SessionId)
  | .opened peer sid _ _ => some (peer, sid)
  | _ => none

/-- The peer does not disconnect in this part of a history. -/
def Stays (peer : PeerId) (h : List (Service × LoopOut F)) : Prop :=
  ∀ x ∈ h, x.1 ≠ .event (.disconnect peer)

/-- The peer's current connection has opened the session. -/
def OpenedSince (h : List (Service × LoopOut F)) (peer : PeerId) (sid : SessionId) : Prop :=
  ∃ before x after, h = before ++ x :: after ∧ x.2.opens = some (peer, sid) ∧ Stays peer after

/-- The loop is not waiting for its first session when a bound peer disconnects. -/
def Edge.Heeds (s : Edge F) (x : Service) : Prop :=
  s.loop.phase = .waiting → ∀ peer, x = .event (.disconnect peer) → peer ∉ s.loop.peerSessions

/-- The bindings, the sessions and the connections belong together. -/
structure Bindings (h : List (Service × LoopOut F)) (s : Edge F) : Prop where
  injective : ∀ peer peer' sid, s.loop.peerSessions.lookup peer = some sid →
    s.loop.peerSessions.lookup peer' = some sid → peer = peer'
  range : ∀ sid, sid ∈ s.loop.server.sessions ↔ ∃ peer, s.loop.peerSessions.lookup peer = some sid
  domain : ∀ peer, peer ∈ s.loop.peerSessions ↔ s.host.connections.lookup peer = some true
  since : ∀ peer sid, s.loop.peerSessions.lookup peer = some sid → OpenedSince h peer sid
  owner : ∀ x ∈ h, ∀ peer sid, x.2.opens = some (peer, sid) → sid ∈ s.loop.server.sessions →
    s.loop.peerSessions.lookup peer = some sid
  /-- No session outlives the connection that opened it. -/
  survives : ∀ before x after peer sid, h = before ++ x :: after →
    x.2.opens = some (peer, sid) → sid ∈ s.loop.server.sessions → Stays peer after
  below : ∀ x ∈ h, ∀ peer sid, x.2.opens = some (peer, sid) →
    sid < s.loop.server.nextSessionId
  limit : s.host.connections.keys.length ≤ s.host.peerLimit

/-! ## What one event does -/

/-- `Steps d s x s' o` : the ways `x` can take `s` to `s'` with output `o`. -/
inductive Edge.Steps (d : Decoder F) (s : Edge F) : Service → Edge F → LoopOut F → Prop
  | connect {peer : PeerId} (hnew : peer ∉ s.host.connections)
      (hroom : s.host.connections.keys.length < s.host.peerLimit) :
    Steps d s (.event (.connect peer))
      { s with host := { s.host with connections := s.host.connections.insert peer false } }
      .ignored
  | hello {peer : PeerId} {channelId : UInt8} {packet : Protobuf.Bytes} {greeted : Bool}
      {server server' : Server F} {sid : SessionId} {p : PlayerId} {e : EntityId}
      {welcome : ServerWelcome} (hpeer : s.host.connections.lookup peer = some greeted)
      (hhello : d.isHello channelId packet = true) (hnew : peer ∉ s.loop.peerSessions)
      (haccept : s.loop.server.acceptSession = .ok (server, sid, p, e))
      (hwelcome : server.welcomeFor sid = .ok (server', welcome)) :
    Steps d s (.event (.receive peer channelId packet))
      ⟨{ s.host with connections := s.host.connections.insert peer true },
        { s.loop with
          server := server'
          peerSessions := s.loop.peerSessions.insert peer sid }⟩
      (.opened peer sid welcome server'.baselineProto)
  | command {peer : PeerId} {channelId : UInt8} {packet : Protobuf.Bytes} {greeted : Bool}
      {sid : SessionId} {server : Server F} {input : InputCmdProto F} {result : ValidationResult}
      (hpeer : s.host.connections.lookup peer = some greeted)
      (hsid : s.loop.peerSessions.lookup peer = some sid)
      (hs : s.loop.server.receiveInput sid input = .ok (server, result)) :
    Steps d s (.event (.receive peer channelId packet))
      ⟨{ s.host with
          connections := s.host.connections.insert peer (greeted || d.isHello channelId packet) },
        { s.loop with server }⟩
      (.attributed peer sid result)
  | packet {peer : PeerId} {channelId : UInt8} {packet : Protobuf.Bytes} {greeted : Bool}
      (hpeer : s.host.connections.lookup peer = some greeted)
      (hold : d.isHello channelId packet = true → peer ∈ s.loop.peerSessions) :
    Steps d s (.event (.receive peer channelId packet))
      { s with host := { s.host with
        connections := s.host.connections.insert peer (greeted || d.isHello channelId packet) } }
      .ignored
  | close {peer : PeerId} {sid : SessionId} (hpeer : peer ∈ s.host.connections)
      (hsid : s.loop.peerSessions.lookup peer = some sid) :
    Steps d s (.event (.disconnect peer))
      ⟨{ s.host with connections := s.host.connections.erase peer },
        { s.loop with
          peerSessions := s.loop.peerSessions.erase peer
          server := s.loop.server.disconnectSession sid }⟩
      (.closed peer sid)
  | part {peer : PeerId} (hpeer : peer ∈ s.host.connections)
      (hunbound : s.loop.phase = .waiting ∨ peer ∉ s.loop.peerSessions) :
    Steps d s (.event (.disconnect peer))
      { s with host := { s.host with connections := s.host.connections.erase peer } } .ignored
  | quiet {x : Service} {phase : Phase} {consecutiveErrors : UInt32} {o : LoopOut F}
      (hx : ∀ e, x ≠ .event e) (ho : o = .ignored ∨ o = .waited) :
    Steps d s x { s with loop := { s.loop with phase, consecutiveErrors } } o
  | tick {x : Service} {server : Server F} {snapshot : Snapshot F} {floor : Tick}
      {bytes : Protobuf.Bytes} {phase : Phase} {consecutiveErrors : UInt32}
      (hx : ∀ e, x ≠ .event e) (hs : s.loop.server.step = .ok (server, snapshot, floor, bytes)) :
    Steps d s x { s with loop := { s.loop with server, phase, consecutiveErrors } }
      (.broadcast bytes)

theorem liftLoop_eq_ok {α : Type} {x : Except Panic α} {a : α} :
    liftLoop x = .ok a ↔ x = .ok a := by
  rcases x with e | b <;> simp [liftLoop]

namespace TickLoop

variable {l l' : TickLoop F} {o : LoopOut F}

theorem acceptAndWelcome_eq_ok {peer : PeerId} (h : l.acceptAndWelcome peer = .ok (l', o)) :
    ∃ server sid p e server' welcome, l.server.acceptSession = .ok (server, sid, p, e) ∧
      server.welcomeFor sid = .ok (server', welcome) ∧
      l' = { l with server := server', peerSessions := l.peerSessions.insert peer sid } ∧
      o = .opened peer sid welcome server'.baselineProto := by
  simp only [acceptAndWelcome, bind_eq_ok, pure, Except.pure, Except.ok.injEq, Prod.mk.injEq,
    Prod.exists] at h
  obtain ⟨server, sid, p, e, haccept, server', welcome, hwelcome, rfl, rfl⟩ := h
  exact ⟨server, sid, p, e, server', welcome, haccept, hwelcome, rfl, rfl⟩

theorem drained_eq_ok {late : Bool} (h : l.drained late = .ok (l', o)) :
    (∃ phase consecutiveErrors, l' = { l with phase, consecutiveErrors } ∧ o = .waited) ∨
      ∃ server snapshot floor bytes phase consecutiveErrors,
        l.server.step = .ok (server, snapshot, floor, bytes) ∧
        l' = { l with server, phase, consecutiveErrors } ∧ o = .broadcast bytes := by
  unfold drained at h
  split at h
  · by_cases hcount : l.server.sessionCount < 1
    · rw [if_pos hcount] at h
      obtain ⟨rfl, rfl⟩ := Prod.mk.inj (Except.ok.inj h)
      exact .inl ⟨_, _, rfl, rfl⟩
    · rw [if_neg hcount] at h
      obtain ⟨rfl, rfl⟩ := Prod.mk.inj (Except.ok.inj h)
      exact .inl ⟨_, _, rfl, rfl⟩
  · obtain ⟨⟨server, snapshot, floor, bytes⟩, hs, h⟩ := bind_eq_ok.1 h
    obtain ⟨rfl, rfl⟩ := Prod.mk.inj (Except.ok.inj h)
    exact .inr ⟨server, snapshot, floor, bytes, _, _, liftLoop_eq_ok.1 hs, rfl, rfl⟩
  · cases h

end TickLoop

/-- The loop's answer to a packet, in either phase. -/
theorem Edge.steps_of_receive {d : Decoder F} {s s' : Edge F} {peer : PeerId} {channelId : UInt8}
    {packet : Protobuf.Bytes} {o : LoopOut F}
    (h : s.exec d (.event (.receive peer channelId packet)) = .ok (s', o)) :
    s.Steps d (.event (.receive peer channelId packet)) s' o := by
  obtain ⟨host, hhost, h⟩ := bind_eq_ok.1 h
  obtain ⟨⟨loop, o'⟩, hloop, h⟩ := bind_eq_ok.1 h
  obtain ⟨rfl, rfl⟩ := Prod.mk.inj (Except.ok.inj h)
  rcases hpeer : s.host.connections.lookup peer with _ | greeted
  · simp [Host.yields, hpeer] at hhost
  · obtain rfl : _ = host := by simpa [Host.yields, hpeer] using hhost
    by_cases hhello : d.isHello channelId packet = true ∧ peer ∉ s.loop.peerSessions
    · -- Both phases accept.
      have hopen : s.loop.acceptAndWelcome peer = .ok (loop, o') := by
        unfold TickLoop.exec at hloop
        dsimp only at hloop
        split at hloop
        · simpa [TickLoop.waitForFirst, hhello, liftLoop_eq_ok] using hloop
        · simpa [TickLoop.handle, hhello, liftLoop_eq_ok] using hloop
        · cases hloop
      obtain ⟨server, sid, p, e, server', welcome, haccept, hwelcome, rfl, rfl⟩ :=
        TickLoop.acceptAndWelcome_eq_ok hopen
      rw [hhello.1, Bool.or_true]
      exact .hello hpeer hhello.1 hhello.2 haccept hwelcome
    · have hold : d.isHello channelId packet = true → peer ∈ s.loop.peerSessions := by
        simpa using hhello
      unfold TickLoop.exec at hloop
      dsimp only at hloop
      split at hloop
      · rw [TickLoop.waitForFirst, if_neg hhello] at hloop
        obtain ⟨rfl, rfl⟩ := Prod.mk.inj (Except.ok.inj hloop)
        exact .packet hpeer hold
      · rw [TickLoop.handle, if_neg hhello, liftLoop_eq_ok] at hloop
        split at hloop
        · split at hloop
          · rename_i sid input hsid _
            obtain ⟨⟨server, result⟩, hs, hloop⟩ := bind_eq_ok.1 hloop
            obtain ⟨rfl, rfl⟩ := Prod.mk.inj (Except.ok.inj hloop)
            exact .command hpeer hsid hs
          · obtain ⟨rfl, rfl⟩ := Prod.mk.inj (Except.ok.inj hloop)
            exact .packet hpeer hold
        · obtain ⟨rfl, rfl⟩ := Prod.mk.inj (Except.ok.inj hloop)
          exact .packet hpeer hold
      · cases hloop

/-- The loop's answer to a disconnect, in either phase. -/
theorem Edge.steps_of_disconnect {d : Decoder F} {s s' : Edge F} {peer : PeerId} {o : LoopOut F}
    (h : s.exec d (.event (.disconnect peer)) = .ok (s', o)) :
    s.Steps d (.event (.disconnect peer)) s' o := by
  obtain ⟨host, hhost, h⟩ := bind_eq_ok.1 h
  obtain ⟨⟨loop, o'⟩, hloop, h⟩ := bind_eq_ok.1 h
  obtain ⟨rfl, rfl⟩ := Prod.mk.inj (Except.ok.inj h)
  by_cases hpeer : peer ∈ s.host.connections
  · obtain rfl : _ = host := by simpa [Host.yields, hpeer] using hhost
    unfold TickLoop.exec at hloop
    dsimp only at hloop
    split at hloop
    · rename_i hphase
      obtain ⟨rfl, rfl⟩ := Prod.mk.inj (Except.ok.inj hloop)
      exact .part hpeer (.inl hphase)
    · rw [liftLoop_eq_ok] at hloop
      rcases hsid : s.loop.peerSessions.lookup peer with _ | sid
      · simp only [TickLoop.handle, hsid] at hloop
        obtain ⟨rfl, rfl⟩ := Prod.mk.inj (Except.ok.inj hloop)
        exact .part hpeer (.inr (AList.lookup_eq_none.1 hsid))
      · simp only [TickLoop.handle, hsid] at hloop
        obtain ⟨rfl, rfl⟩ := Prod.mk.inj (Except.ok.inj hloop)
        exact .close hpeer hsid
    · cases hloop
  · simp [Host.yields, hpeer] at hhost

theorem Edge.steps_of_drained {d : Decoder F} {s : Edge F} {x : Service} (hx : ∀ e, x ≠ .event e)
    {late : Bool} {loop : TickLoop F} {o : LoopOut F} (h : s.loop.drained late = .ok (loop, o)) :
    s.Steps d x ⟨s.host, loop⟩ o := by
  rcases TickLoop.drained_eq_ok h with ⟨phase, consecutiveErrors, rfl, rfl⟩ |
    ⟨server, snapshot, floor, bytes, phase, consecutiveErrors, hs, rfl, rfl⟩
  · exact .quiet hx (.inr rfl)
  · exact .tick hx hs

theorem Edge.steps_of_exec {d : Decoder F} {s s' : Edge F} {x : Service} {o : LoopOut F}
    (h : s.exec d x = .ok (s', o)) : s.Steps d x s' o := by
  cases x with
  | event e =>
    cases e with
    | connect peer =>
      obtain ⟨host, hhost, h⟩ := bind_eq_ok.1 h
      obtain ⟨⟨loop, o'⟩, hloop, h⟩ := bind_eq_ok.1 h
      obtain ⟨rfl, rfl⟩ := Prod.mk.inj (Except.ok.inj h)
      by_cases hfull : peer ∈ s.host.connections ∨
        s.host.peerLimit ≤ s.host.connections.keys.length
      · simp [Host.yields, hfull] at hhost
      · obtain rfl : _ = host := by simpa [Host.yields, hfull] using hhost
        have hloop : loop = s.loop ∧ o' = .ignored := by
          unfold TickLoop.exec at hloop
          dsimp only at hloop
          split at hloop
          · obtain ⟨rfl, rfl⟩ := Prod.mk.inj (Except.ok.inj hloop)
            exact ⟨rfl, rfl⟩
          · obtain ⟨rfl, rfl⟩ := Prod.mk.inj (Except.ok.inj hloop)
            exact ⟨rfl, rfl⟩
          · cases hloop
        obtain ⟨rfl, rfl⟩ := hloop
        rw [not_or] at hfull
        exact .connect hfull.1 (Nat.not_le.1 hfull.2)
    | receive peer channelId packet => exact Edge.steps_of_receive h
    | disconnect peer => exact Edge.steps_of_disconnect h
  | idle late =>
    obtain ⟨host, hhost, h⟩ := bind_eq_ok.1 h
    obtain rfl := Except.ok.inj hhost
    obtain ⟨⟨loop, o'⟩, hloop, h⟩ := bind_eq_ok.1 h
    obtain ⟨rfl, rfl⟩ := Prod.mk.inj (Except.ok.inj h)
    exact Edge.steps_of_drained (fun e he => by cases he) hloop
  | error late =>
    obtain ⟨host, hhost, h⟩ := bind_eq_ok.1 h
    obtain rfl := Except.ok.inj hhost
    obtain ⟨⟨loop, o'⟩, hloop, h⟩ := bind_eq_ok.1 h
    obtain ⟨rfl, rfl⟩ := Prod.mk.inj (Except.ok.inj h)
    unfold TickLoop.exec at hloop
    dsimp only at hloop
    split_ifs at hloop
    · exact Edge.steps_of_drained (fun e he => by cases he) hloop
    · obtain ⟨rfl, rfl⟩ := Prod.mk.inj (Except.ok.inj hloop)
      exact .quiet (fun e he => by cases he) (.inl rfl)

/-! ## What one event keeps -/

theorem length_keys_insert_of_mem {m : HashMap PeerId Bool} {peer : PeerId} (h : peer ∈ m)
    (b : Bool) : (m.insert peer b).keys.length = m.keys.length := by
  have hmem : peer ∈ m.keys := AList.mem_keys.1 h
  rw [AList.keys_insert, List.length_cons, List.length_erase_of_mem hmem,
    Nat.sub_add_cancel (List.length_pos_of_mem hmem)]

theorem stays_concat {peer : PeerId} {h : List (Service × LoopOut F)} {x : Service}
    {o : LoopOut F} :
    Stays peer (h ++ [(x, o)]) ↔ Stays peer h ∧ x ≠ .event (.disconnect peer) := by
  simp only [Stays, List.forall_mem_append, List.forall_mem_singleton]

namespace Bindings

variable {h : List (Service × LoopOut F)} {s s' : Edge F} {x : Service} {o : LoopOut F}

/-- A session that has been opened has a smaller number than the next. -/
theorem lt_of_bound (hb : Bindings h s) {peer : PeerId} {sid : SessionId}
    (hsid : s.loop.peerSessions.lookup peer = some sid) :
    sid < s.loop.server.nextSessionId := by
  obtain ⟨before, y, after, rfl, hy, -⟩ := hb.since peer sid hsid
  exact hb.below y (by simp) peer sid hy

/-- An event keeps the bindings if a peer bound after it was bound before and is not the one it
disconnects, or is the one it opens a new session for. -/
theorem extend (hb : Bindings h s)
    (hopens : ∀ peer sid, o.opens = some (peer, sid) →
      s'.loop.peerSessions.lookup peer = some sid ∧ s.loop.server.nextSessionId ≤ sid ∧
        sid < s'.loop.server.nextSessionId)
    (hbound : ∀ peer sid, s'.loop.peerSessions.lookup peer = some sid →
      o.opens = some (peer, sid) ∨
        s.loop.peerSessions.lookup peer = some sid ∧ x ≠ .event (.disconnect peer))
    (hrange : ∀ sid, sid ∈ s'.loop.server.sessions ↔
      ∃ peer, s'.loop.peerSessions.lookup peer = some sid)
    (hdomain : ∀ peer, peer ∈ s'.loop.peerSessions ↔
      s'.host.connections.lookup peer = some true)
    (hnext : s.loop.server.nextSessionId ≤ s'.loop.server.nextSessionId)
    (hlimit : s'.host.connections.keys.length ≤ s'.host.peerLimit) :
    Bindings (h ++ [(x, o)]) s' := by
  -- A session below the old number, bound now, was bound before.
  have hold : ∀ {peer sid}, s'.loop.peerSessions.lookup peer = some sid →
      sid < s.loop.server.nextSessionId →
      s.loop.peerSessions.lookup peer = some sid ∧ x ≠ .event (.disconnect peer) :=
    fun hpeer hlt => (hbound _ _ hpeer).resolve_left fun hopen =>
      absurd (UInt64.lt_of_lt_of_le hlt (hopens _ _ hopen).2.1) (UInt64.lt_irrefl _)
  have hinjective : ∀ peer peer' sid, s'.loop.peerSessions.lookup peer = some sid →
      s'.loop.peerSessions.lookup peer' = some sid → peer = peer' := by
    intro p q sid hp hq
    rcases hbound p sid hp with hopen | ⟨hp', -⟩
    · rcases hbound q sid hq with hopen' | ⟨hq', -⟩
      · exact congrArg Prod.fst (Option.some.inj (hopen.symm.trans hopen'))
      · exact absurd (UInt64.lt_of_lt_of_le (hb.lt_of_bound hq') (hopens p sid hopen).2.1)
          (UInt64.lt_irrefl _)
    · exact hb.injective p q sid hp' (hold hq (hb.lt_of_bound hp')).1
  -- The owner of an earlier session that lives on keeps it.
  have hkeeps : ∀ y ∈ h, ∀ peer sid, y.2.opens = some (peer, sid) →
      sid ∈ s'.loop.server.sessions → s'.loop.peerSessions.lookup peer = some sid ∧
        s.loop.peerSessions.lookup peer = some sid ∧ x ≠ .event (.disconnect peer) := by
    intro y hy peer sid hopen hlive
    obtain ⟨peer', hpeer'⟩ := (hrange sid).1 hlive
    obtain ⟨hbefore, hx⟩ := hold hpeer' (hb.below y hy peer sid hopen)
    have howner := hb.owner y hy peer sid hopen ((hb.range sid).2 ⟨peer', hbefore⟩)
    obtain rfl := hb.injective peer peer' sid howner hbefore
    exact ⟨hpeer', howner, hx⟩
  refine ⟨hinjective, hrange, hdomain, fun peer sid hsid => ?_, fun y hy peer sid hopen hlive => ?_,
    fun before y after peer sid hsplit hopen hlive => ?_, fun y hy peer sid hopen => ?_, hlimit⟩
  · rcases hbound peer sid hsid with hopen | ⟨hbefore, hx⟩
    · exact ⟨h, (x, o), [], rfl, hopen, fun z hz => absurd hz List.not_mem_nil⟩
    · obtain ⟨before, y, after, rfl, hy, hstay⟩ := hb.since peer sid hbefore
      refine ⟨before, y, after ++ [(x, o)], by simp, hy, ?_⟩
      exact stays_concat.2 ⟨hstay, hx⟩
  · rcases List.mem_append.1 hy with hy | hy
    · exact (hkeeps y hy peer sid hopen hlive).1
    · obtain rfl := List.mem_singleton.1 hy
      exact (hopens peer sid hopen).1
  · rcases Machine.split_concat hsplit with ⟨rfl, -, -⟩ | ⟨after', rfl, rfl⟩
    · exact fun z hz => absurd hz List.not_mem_nil
    · obtain ⟨-, howner, hx⟩ := hkeeps y (by simp) peer sid hopen hlive
      exact stays_concat.2 ⟨hb.survives before y after' peer sid rfl hopen
        ((hb.range sid).2 ⟨peer, howner⟩), hx⟩
  · rcases List.mem_append.1 hy with hy | hy
    · exact UInt64.lt_of_lt_of_le (hb.below y hy peer sid hopen) hnext
    · obtain rfl := List.mem_singleton.1 hy
      exact (hopens peer sid hopen).2.2

/-- An event that opens and closes no session keeps the bindings, unless it is the disconnect of
a bound peer. -/
theorem frame (hb : Bindings h s) (hopens : o.opens = none)
    (hsessions : s'.loop.server.sessions = s.loop.server.sessions)
    (hnext : s'.loop.server.nextSessionId = s.loop.server.nextSessionId)
    (hpeers : s'.loop.peerSessions = s.loop.peerSessions)
    (hgreeted : ∀ peer, s'.host.connections.lookup peer = some true ↔
      s.host.connections.lookup peer = some true)
    (hlimit : s'.host.connections.keys.length ≤ s'.host.peerLimit)
    (hstays : ∀ peer, x = .event (.disconnect peer) → peer ∉ s.loop.peerSessions) :
    Bindings (h ++ [(x, o)]) s' := by
  refine hb.extend (fun peer sid hopen => ?_) (fun peer sid hsid => .inr ?_) (fun sid => ?_)
    (fun peer => ?_) (by rw [hnext]; exact UInt64.le_refl _) hlimit
  · exact absurd (hopens.symm.trans hopen) (by simp)
  · rw [hpeers] at hsid
    exact ⟨hsid, fun hx => hstays peer hx (AList.lookup_isSome.1 (by rw [hsid]; rfl))⟩
  · rw [hsessions, hpeers]
    exact hb.range sid
  · rw [hpeers, hgreeted]
    exact hb.domain peer

/-- A hello of an unbound peer opens a session of its own. -/
theorem hello (hb : Bindings h s) {peer : PeerId} {greeted : Bool} {sid : SessionId}
    (hpeer : s.host.connections.lookup peer = some greeted) (hnew : peer ∉ s.loop.peerSessions)
    (hsid : sid = s.loop.server.nextSessionId)
    (hnext : sid < s'.loop.server.nextSessionId)
    (hsessions : ∀ sid', sid' ∈ s'.loop.server.sessions ↔
      sid' = sid ∨ sid' ∈ s.loop.server.sessions)
    (hpeers : s'.loop.peerSessions = s.loop.peerSessions.insert peer sid)
    (hhost : s'.host = { s.host with connections := s.host.connections.insert peer true })
    (hopens : o.opens = some (peer, sid)) (hx : ∀ peer', x ≠ .event (.disconnect peer')) :
    Bindings (h ++ [(x, o)]) s' := by
  have hlookup : ∀ peer', s'.loop.peerSessions.lookup peer' =
      if peer' = peer then some sid else s.loop.peerSessions.lookup peer' := fun peer' => by
    rw [hpeers, HashMap.lookup_insert]
  have hother : ∀ peer' sid', s.loop.peerSessions.lookup peer' = some sid' → peer' ≠ peer := by
    rintro peer' sid' h' rfl
    exact hnew (AList.lookup_isSome.1 (by rw [h']; rfl))
  refine hb.extend (fun peer' sid' hopen => ?_) (fun peer' sid' h' => ?_) (fun sid' => ?_)
    (fun peer' => ?_) (hsid ▸ UInt64.le_of_lt hnext) ?_
  · obtain ⟨rfl, rfl⟩ := Prod.mk.inj (Option.some.inj (hopens.symm.trans hopen))
    exact ⟨by rw [hlookup, if_pos rfl], hsid ▸ UInt64.le_refl _, hnext⟩
  · rw [hlookup] at h'
    split_ifs at h' with heq
    · obtain rfl := Option.some.inj h'
      exact .inl (heq ▸ hopens)
    · exact .inr ⟨h', hx peer'⟩
  · rw [hsessions, hb.range]
    constructor
    · rintro (rfl | ⟨peer', h'⟩)
      · exact ⟨peer, by rw [hlookup, if_pos rfl]⟩
      · exact ⟨peer', by rw [hlookup, if_neg (hother peer' sid' h'), h']⟩
    · rintro ⟨peer', h'⟩
      rw [hlookup] at h'
      split_ifs at h' with heq
      · exact .inl (Option.some.inj h').symm
      · exact .inr ⟨peer', h'⟩
  · rw [hpeers, hhost, AList.mem_insert, HashMap.lookup_insert]
    split_ifs with heq
    · simp [heq]
    · simpa [heq] using hb.domain peer'
  · rw [hhost, length_keys_insert_of_mem (AList.lookup_isSome.1 (by rw [hpeer]; rfl))]
    exact hb.limit

/-- The disconnect of a bound peer closes its session, and only that. -/
theorem close (hb : Bindings h s) {peer : PeerId} {sid : SessionId}
    (hbound : s.loop.peerSessions.lookup peer = some sid) (hopens : o.opens = none)
    (hsessions : ∀ sid', sid' ∈ s'.loop.server.sessions ↔
      sid' ≠ sid ∧ sid' ∈ s.loop.server.sessions)
    (hnext : s'.loop.server.nextSessionId = s.loop.server.nextSessionId)
    (hpeers : s'.loop.peerSessions = s.loop.peerSessions.erase peer)
    (hhost : s'.host = { s.host with connections := s.host.connections.erase peer }) :
    Bindings (h ++ [(.event (.disconnect peer), o)]) s' := by
  have hother : ∀ peer' sid', s.loop.peerSessions.lookup peer' = some sid' →
      (peer' = peer ↔ sid' = sid) := by
    intro peer' sid' h'
    constructor
    · rintro rfl
      exact Option.some.inj (h'.symm.trans hbound)
    · rintro rfl
      exact hb.injective peer' peer sid' h' hbound
  have hlookup : ∀ peer', s'.loop.peerSessions.lookup peer' =
      if peer' = peer then none else s.loop.peerSessions.lookup peer' := fun peer' => by
    rw [hpeers, HashMap.lookup_erase]
  refine hb.extend (fun peer' sid' hopen => ?_) (fun peer' sid' h' => .inr ?_) (fun sid' => ?_)
    (fun peer' => ?_) (by rw [hnext]; exact UInt64.le_refl _) ?_
  · exact absurd (hopens.symm.trans hopen) (by simp)
  · rw [hlookup] at h'
    split_ifs at h' with heq
    exact ⟨h', fun hx => heq (Event.disconnect.inj (Service.event.inj hx)).symm⟩
  · rw [hsessions, hb.range]
    constructor
    · rintro ⟨hne, peer', h'⟩
      exact ⟨peer', by rw [hlookup, if_neg (mt (hother peer' sid' h').1 hne), h']⟩
    · rintro ⟨peer', h'⟩
      rw [hlookup] at h'
      split_ifs at h' with heq
      exact ⟨mt (hother peer' sid' h').2 heq, peer', h'⟩
  · rw [hpeers, hhost, AList.mem_erase, HashMap.lookup_erase]
    split_ifs with heq
    · simp [heq]
    · simpa [heq] using hb.domain peer'
  · rw [hhost, AList.keys_erase]
    exact (List.length_erase_le ..).trans hb.limit

/-- What a bound peer has said does not change with a packet. -/
theorem greeted_iff (hb : Bindings h s) {peer : PeerId} {greeted hello : Bool}
    (hpeer : s.host.connections.lookup peer = some greeted)
    (hold : hello = true → peer ∈ s.loop.peerSessions) (peer' : PeerId) :
    (s.host.connections.insert peer (greeted || hello)).lookup peer' = some true ↔
      s.host.connections.lookup peer' = some true := by
  rw [HashMap.lookup_insert]
  split_ifs with heq
  · subst heq
    cases hello with
    | false => rw [Bool.or_false, hpeer]
    | true => simpa using (hb.domain peer').1 (hold rfl)
  · exact Iff.rfl

/-- A packet keeps the number of connections. -/
theorem limit_insert (hb : Bindings h s) {peer : PeerId} {greeted : Bool}
    (hpeer : s.host.connections.lookup peer = some greeted) (b : Bool) :
    (s.host.connections.insert peer b).keys.length ≤ s.host.peerLimit := by
  rw [length_keys_insert_of_mem (AList.lookup_isSome.1 (by rw [hpeer]; rfl))]
  exact hb.limit

theorem exec {d : Decoder F} (hb : Bindings h s) (hheeds : s.Heeds x)
    (hexec : s.exec d x = .ok (s', o)) : Bindings (h ++ [(x, o)]) s' := by
  cases Edge.steps_of_exec hexec with
  | @connect peer hnew hroom =>
    refine hb.frame rfl rfl rfl rfl (fun peer' => ?_) ?_ nofun
    · rw [HashMap.lookup_insert]
      split_ifs with heq
      · subst heq
        simp [AList.lookup_eq_none.2 hnew]
      · exact Iff.rfl
    · rw [AList.keys_insert, List.erase_of_not_mem (mt AList.mem_keys.2 hnew)]
      exact hroom
  | hello hpeer hhello hnew haccept hwelcome =>
    obtain ⟨-, hsid, -, nextSid, nextPid, world, hnext, -, -, rfl⟩ :=
      Server.acceptSession_eq_ok.1 haccept
    obtain ⟨session, -, floor, -, rfl, -⟩ := Server.welcomeFor_eq_ok.1 hwelcome
    refine hb.hello hpeer hnew hsid ?_ (fun sid' => AList.mem_insert _) rfl rfl rfl nofun
    rw [UInt64.lt_iff_toNat_lt, hsid]
    change _ < nextSid.toNat
    omega
  | @command peer channelId packet greeted sid server input result hpeer hsid hs =>
    have hbound : peer ∈ s.loop.peerSessions := AList.lookup_isSome.1 (by rw [hsid]; rfl)
    have hserver : server.sessions = s.loop.server.sessions ∧
        server.nextSessionId = s.loop.server.nextSessionId := by
      rcases Server.receiveInput_cases hs with rfl | ⟨p, -, -, rfl, -⟩ <;> exact ⟨rfl, rfl⟩
    exact hb.frame rfl hserver.1 hserver.2 rfl (hb.greeted_iff hpeer fun _ => hbound)
      (hb.limit_insert hpeer _) nofun
  | packet hpeer hold =>
    exact hb.frame rfl rfl rfl rfl (hb.greeted_iff hpeer hold) (hb.limit_insert hpeer _) nofun
  | @close peer sid hpeer hsid =>
    obtain ⟨session, hsession⟩ := Option.isSome_iff_exists.1
      (AList.lookup_isSome.2 ((hb.range sid).2 ⟨peer, hsid⟩))
    refine hb.close hsid rfl (fun sid' => ?_) ?_ rfl rfl <;>
      simp only [Server.disconnectSession, hsession]
    exact AList.mem_erase
  | @part peer hpeer hunbound =>
    have hnot : peer ∉ s.loop.peerSessions := hunbound.elim (fun h => hheeds h peer rfl) id
    refine hb.frame rfl rfl rfl rfl (fun peer' => ?_) ?_ fun peer' heq => ?_
    · rw [HashMap.lookup_erase]
      split_ifs with heq
      · subst heq
        simpa using mt (hb.domain peer').2 hnot
      · exact Iff.rfl
    · rw [AList.keys_erase]
      exact (List.length_erase_le ..).trans hb.limit
    · obtain rfl := Event.disconnect.inj (Service.event.inj heq)
      exact hnot
  | quiet hx ho =>
    refine hb.frame ?_ rfl rfl rfl (fun _ => Iff.rfl) hb.limit fun peer heq => absurd heq (hx _)
    rcases ho with rfl | rfl <;> rfl
  | tick hx hs =>
    obtain ⟨next, -, -, rfl, -, -⟩ := Server.step_eq_ok.1 hs
    exact hb.frame rfl rfl rfl rfl (fun _ => Iff.rfl) hb.limit fun peer heq => absurd heq (hx _)

end Bindings

/-! ## The hello that is answered -/

/-- The counters of a server that has accepted `n` sessions. -/
structure Server.Numbered (n : ℕ) (s : Server F) : Prop where
  nextSessionId : s.nextSessionId.toNat = n + 1
  nextPlayerId : s.nextPlayerId.toNat = n
  nextEntityId : s.world.nextEntityId.toNat = n + 1

namespace Server.Numbered

variable {n : ℕ} {s s' : Server F}

theorem new {config : ServerConfig} (h : Server.new config = .ok s) : Numbered 0 s := by
  obtain ⟨-, rfl⟩ := Server.new_eq_ok.1 h
  exact ⟨rfl, rfl, rfl⟩

theorem accept (h : Numbered n s) {sid : SessionId} {p : PlayerId} {e : EntityId}
    (hs : s.acceptSession = .ok (s', sid, p, e)) : Numbered (n + 1) s' := by
  obtain ⟨-, -, -, nextSid, nextPid, world, hsid, hpid, hspawn, rfl⟩ :=
    acceptSession_eq_ok.1 hs
  obtain ⟨-, next, heid, rfl⟩ := World.spawnCharacter_eq_ok.1 hspawn
  exact ⟨by rw [hsid, h.nextSessionId], by rw [hpid, h.nextPlayerId],
    by rw [heid, h.nextEntityId]⟩

/-- Only an accept counts. -/
theorem frame (h : Numbered n s) {op : Op F} {o : Out F} (hexec : s.exec op = .ok (s', o))
    (hop : op ≠ .acceptSession) : Numbered n s' := by
  cases op with
  | acceptSession => exact absurd rfl hop
  | welcomeFor sid =>
    obtain ⟨welcome, hs, rfl⟩ := Server.exec_welcomeFor.1 hexec
    obtain ⟨session, -, floor, -, rfl, -⟩ := Server.welcomeFor_eq_ok.1 hs
    exact ⟨h.nextSessionId, h.nextPlayerId, h.nextEntityId⟩
  | receiveInput sid input =>
    obtain ⟨result, hs, rfl⟩ := Server.exec_receiveInput.1 hexec
    rcases Server.receiveInput_cases hs with rfl | ⟨p, -, -, rfl, -⟩ <;>
      exact ⟨h.nextSessionId, h.nextPlayerId, h.nextEntityId⟩
  | disconnectSession sid =>
    obtain ⟨rfl, rfl⟩ := Server.exec_disconnectSession.1 hexec
    unfold Server.disconnectSession
    rcases s.sessions.lookup sid with _ | session <;>
      exact ⟨h.nextSessionId, h.nextPlayerId, h.nextEntityId⟩
  | step =>
    obtain ⟨snapshot, floor, bytes, hs, rfl⟩ := Server.exec_step.1 hexec
    obtain ⟨next, -, -, rfl, -, -⟩ := Server.step_eq_ok.1 hs
    exact ⟨h.nextSessionId, h.nextPlayerId, h.nextEntityId⟩

/-- Below the cap, a server that has accepted fewer than 255 sessions accepts another, if the
test ids suffice. -/
theorem exists_accept (h : Numbered n s) (hcap : s.sessionCount < s.config.maxSessions)
    (hn : n < 255) (hids : ∀ ids, s.config.testPlayerIds = some ids → n < ids.length) :
    ∃ s' sid p e, s.acceptSession = .ok (s', sid, p, e) := by
  obtain ⟨p, hassign⟩ : ∃ p, s.assignPlayerId s.nextPlayerId = .ok p := by
    rcases htest : s.config.testPlayerIds with _ | ids
    · exact ⟨_, assignPlayerId_of_none htest⟩
    · obtain ⟨q, hq⟩ : ∃ q, ids[n]? = some q := ⟨_, List.getElem?_eq_getElem (hids ids htest)⟩
      exact ⟨q, by simp only [assignPlayerId, htest, h.nextPlayerId, hq]⟩
  obtain ⟨s', sid, e, hs⟩ := Server.exists_accept hcap (by rw [h.nextSessionId]; omega)
    (by rw [h.nextPlayerId]; omega) (by rw [h.nextEntityId]; omega) hassign
  exact ⟨s', sid, p, e, hs⟩

end Server.Numbered

/-- Only an event that opens a session counts. -/
theorem Edge.Steps.numbered {d : Decoder F} {s s' : Edge F} {x : Service} {o : LoopOut F} {n : ℕ}
    (h : s.Steps d x s' o) (hn : s.loop.server.Numbered n) :
    s'.loop.server.Numbered (n + o.opens.toList.length) := by
  cases h with
  | connect | packet | part => exact hn
  | quiet _ ho => rcases ho with rfl | rfl <;> exact hn
  | hello _ _ _ haccept hwelcome =>
    exact (hn.accept haccept).frame (Server.exec_welcomeFor.2 ⟨_, hwelcome, rfl⟩) nofun
  | command _ _ hs => exact hn.frame (Server.exec_receiveInput.2 ⟨_, hs, rfl⟩) nofun
  | close => exact hn.frame (Server.exec_disconnectSession.2 ⟨rfl, rfl⟩) nofun
  | tick _ hs => exact hn.frame (Server.exec_step.2 ⟨_, _, _, hs, rfl⟩) nofun

/-- A hello of an unbound peer that the server can accept and welcome is answered with a
session. -/
theorem Edge.exists_opened {d : Decoder F} {s : Edge F} {peer : PeerId} {channelId : UInt8}
    {packet : Protobuf.Bytes} {greeted : Bool} {server : Server F} {sid : SessionId} {p : PlayerId}
    {e : EntityId} (hpeer : s.host.connections.lookup peer = some greeted)
    (hhello : d.isHello channelId packet = true) (hnew : peer ∉ s.loop.peerSessions)
    (hphase : s.loop.phase = .waiting ∨ s.loop.phase = .ticking)
    (haccept : s.loop.server.acceptSession = .ok (server, sid, p, e))
    (hfloor : s.loop.server.world.tick.toNat + s.loop.server.config.inputLeadTicks.toNat <
      2 ^ 64) :
    ∃ s' welcome baseline, s.exec d (.event (.receive peer channelId packet)) =
        .ok (s', .opened peer sid welcome baseline) ∧
      s'.loop.peerSessions.lookup peer = some sid ∧ sid ∈ s'.loop.server.sessions := by
  have hopens : d.isHello channelId packet = true ∧ peer ∉ s.loop.peerSessions := ⟨hhello, hnew⟩
  obtain ⟨-, -, -, nextSid, nextPid, world, -, -, hspawn, hserver⟩ :=
    Server.acceptSession_eq_ok.1 haccept
  obtain ⟨-, next, -, rfl⟩ := World.spawnCharacter_eq_ok.1 hspawn
  obtain ⟨floor, -, hadd⟩ := addU64_of_lt hfloor
  obtain ⟨server', welcome, hwelcome⟩ : ∃ server' welcome,
      server.welcomeFor sid = .ok (server', welcome) := by
    refine ⟨_, _, Server.welcomeFor_eq_ok.2 ⟨Session.new sid p e, ?_, floor, ?_, rfl, rfl⟩⟩
    · rw [hserver]
      exact AList.lookup_insert _
    · rw [hserver]
      exact hadd
  have hlive : sid ∈ server'.sessions := by
    obtain ⟨session, hsession, floor, -, rfl, -⟩ := Server.welcomeFor_eq_ok.1 hwelcome
    exact AList.lookup_isSome.1 (by rw [hsession]; rfl)
  have hloop : s.loop.acceptAndWelcome peer = .ok
      ({ s.loop with server := server', peerSessions := s.loop.peerSessions.insert peer sid },
        .opened peer sid welcome server'.baselineProto) := by
    simp only [TickLoop.acceptAndWelcome, haccept, hwelcome, bind, Except.bind, pure, Except.pure]
  have hexec : s.loop.exec d (.event (.receive peer channelId packet)) =
      liftLoop (s.loop.acceptAndWelcome peer) := by
    rcases hphase with hphase | hphase
    · simp only [TickLoop.exec, hphase, TickLoop.waitForFirst, hopens, and_self, if_true,
        not_false_eq_true]
    · simp only [TickLoop.exec, hphase, TickLoop.handle, hopens, and_self, if_true,
        not_false_eq_true]
  refine ⟨⟨{ s.host with
      connections := s.host.connections.insert peer (greeted || d.isHello channelId packet) },
    { s.loop with server := server', peerSessions := s.loop.peerSessions.insert peer sid }⟩,
    welcome, server'.baselineProto, ?_, AList.lookup_insert _, hlive⟩
  rw [Edge.exec, hexec, hloop]
  simp only [Host.yields, hpeer, Option.elim, liftLoop, bind, Except.bind, pure, Except.pure]

/-! ## Runs -/

/-- No event changes the host's limit or the server's configuration. -/
theorem Edge.Steps.frame {d : Decoder F} {s s' : Edge F} {x : Service} {o : LoopOut F}
    (h : s.Steps d x s' o) : s'.host.peerLimit = s.host.peerLimit ∧
      s'.loop.server.config = s.loop.server.config := by
  cases h with
  | connect | packet | part | quiet => exact ⟨rfl, rfl⟩
  | hello _ _ _ haccept hwelcome =>
    exact ⟨rfl, (Server.exec_frame (Server.exec_welcomeFor.2 ⟨_, hwelcome, rfl⟩)).1.trans
      (Server.exec_frame (Server.exec_acceptSession.2 ⟨_, _, _, haccept, rfl⟩)).1⟩
  | command _ _ hs => exact ⟨rfl, (Server.exec_frame (Server.exec_receiveInput.2 ⟨_, hs, rfl⟩)).1⟩
  | close => exact ⟨rfl, (Server.exec_frame (Server.exec_disconnectSession.2 ⟨rfl, rfl⟩)).1⟩
  | tick _ hs => exact ⟨rfl, (Server.exec_frame (Server.exec_step.2 ⟨_, _, _, hs, rfl⟩)).1⟩

/-- How many sessions a history has opened. -/
def openings (h : List (Service × LoopOut F)) : ℕ := (h.filterMap fun x => x.2.opens).length

theorem openings_concat (h : List (Service × LoopOut F)) (x : Service) (o : LoopOut F) :
    openings (h ++ [(x, o)]) = openings h + o.opens.toList.length := by
  rw [openings, List.filterMap_append, List.length_append, ← openings]
  rcases ho : o.opens <;> simp [ho]

/-- In the state that `h` has led to, nothing is stale. -/
structure NeverStale (d : Decoder F) (h : List (Service × LoopOut F)) (s : Edge F) : Prop where
  injective : ∀ peer peer' sid, s.loop.peerSessions.lookup peer = some sid →
    s.loop.peerSessions.lookup peer' = some sid → peer = peer'
  range : ∀ sid, sid ∈ s.loop.server.sessions ↔ ∃ peer, s.loop.peerSessions.lookup peer = some sid
  /-- The bound peers are those whose current connection has said hello. -/
  domain : ∀ peer, peer ∈ s.loop.peerSessions ↔ s.host.connections.lookup peer = some true
  survives : ∀ before x after peer sid, h = before ++ x :: after →
    x.2.opens = some (peer, sid) → sid ∈ s.loop.server.sessions → Stays peer after
  /-- What the first hello of a connection opens is a session that has not been there before. -/
  fresh : ∀ peer channelId packet s' o, s.host.connections.lookup peer = some false →
    d.isHello channelId packet = true →
    s.exec d (.event (.receive peer channelId packet)) = .ok (s', o) →
    ∃ sid, o.opens = some (peer, sid) ∧ ∀ x ∈ h, ∀ peer', x.2.opens ≠ some (peer', sid)
  /-- The first hello of a connection is answered with a session of its own, if it is among the
  first 255 and a player id and a floor are left for it. -/
  own : ∀ peer channelId packet, s.host.connections.lookup peer = some false →
    d.isHello channelId packet = true → s.loop.phase = .waiting ∨ s.loop.phase = .ticking →
    openings h < 255 →
    (∀ ids, s.loop.server.config.testPlayerIds = some ids → openings h < ids.length) →
    s.loop.server.world.tick.toNat + s.loop.server.config.inputLeadTicks.toNat < 2 ^ 64 →
    ∃ s' sid welcome baseline,
      s.exec d (.event (.receive peer channelId packet)) =
        .ok (s', .opened peer sid welcome baseline) ∧
      s'.loop.peerSessions.lookup peer = some sid ∧ sid ∈ s'.loop.server.sessions ∧
      ∀ x ∈ h, ∀ peer', x.2.opens ≠ some (peer', sid)
  attributed : ∀ x s' peer sid result, s.exec d x = .ok (s', .attributed peer sid result) →
    OpenedSince h peer sid
  /-- A connection that has not said hello finds room for its session. -/
  room : ∀ peer, s.host.connections.lookup peer = some false →
    s.loop.server.sessionCount < s.loop.server.config.maxSessions

theorem Bindings.sessionCount_lt {h : List (Service × LoopOut F)} {s : Edge F}
    (hb : Bindings h s) {peer : PeerId}
    (hpeer : s.host.connections.lookup peer = some false) :
    s.loop.server.sessionCount < s.host.peerLimit := by
  -- A live session has a bound peer, which is connected and not this one.
  have hsub : s.loop.server.sessions.keys ⊆
      (s.host.connections.keys.erase peer).filterMap s.loop.peerSessions.lookup := by
    intro sid hsid
    obtain ⟨peer', h'⟩ := (hb.range sid).1 (AList.mem_keys.2 hsid)
    have hgreeted := (hb.domain peer').1 (AList.lookup_isSome.1 (by rw [h']; rfl))
    have hne : peer' ≠ peer := by
      rintro rfl
      rw [hpeer] at hgreeted
      cases hgreeted
    refine List.mem_filterMap.2 ⟨peer', ?_, h'⟩
    refine (List.mem_erase_of_ne hne).2 (AList.mem_keys.1 (AList.lookup_isSome.1 ?_))
    rw [hgreeted]
    rfl
  have hmem : peer ∈ s.host.connections.keys :=
    AList.mem_keys.1 (AList.lookup_isSome.1 (by rw [hpeer]; rfl))
  have hlength := (s.loop.server.sessions.keys_nodup.subperm hsub).length_le.trans
    (List.length_filterMap_le ..)
  rw [List.length_erase_of_mem hmem] at hlength
  have hpos := List.length_pos_of_mem hmem
  have hlimit := hb.limit
  unfold Server.sessionCount
  omega

theorem Bindings.new {config : ServerConfig} {s : Edge F} (h : Edge.new config = .ok s) :
    Bindings [] s ∧ s.host.peerLimit = s.loop.server.config.maxSessions ∧
      s.loop.server.Numbered 0 := by
  obtain ⟨loop, hloop, heq⟩ := bind_eq_ok.1 h
  obtain rfl := Except.ok.inj heq
  obtain ⟨server, hserver, heq⟩ := bind_eq_ok.1 hloop
  obtain rfl := Except.ok.inj heq
  have hnumbered := Server.Numbered.new hserver
  obtain ⟨-, rfl⟩ := Server.new_eq_ok.1 hserver
  refine ⟨⟨?_, fun sid => ?_, fun peer => ?_, ?_, fun x hx => absurd hx List.not_mem_nil,
    fun before x after peer sid hsplit => ?_, fun x hx => absurd hx List.not_mem_nil,
    Nat.zero_le _⟩, rfl, hnumbered⟩
  · intro peer peer' sid hsid
    cases hsid
  · refine ⟨fun hmem => absurd hmem (AList.notMem_empty sid), fun ⟨peer, hsid⟩ => ?_⟩
    cases hsid
  · exact ⟨fun hmem => absurd hmem (AList.notMem_empty peer), fun hpeer => by cases hpeer⟩
  · intro peer sid hsid
    cases hsid
  · exact absurd hsplit.symm (List.append_ne_nil_of_right_ne_nil before (List.cons_ne_nil _ _))

/-- If no disconnect of a bound peer is drained while the loop waits for its first session,
nothing is ever stale. -/
theorem neverStale_of_heeds {d : Decoder F} {config : ServerConfig} {xs : List Service}
    {s : Edge F} {outs : List (LoopOut F)} (hrun : runEdge d config xs = .ok (s, outs))
    (hheeds : ∀ before x after u os, xs = before ++ x :: after →
      runEdge d config before = .ok (u, os) → u.Heeds x) : NeverStale d (xs.zip outs) s := by
  obtain ⟨s₀, hnew, hrun⟩ := bind_eq_ok.1 hrun
  have hstart := Bindings.new (liftLoop_eq_ok.1 hnew)
  have hrun' := Machine.run_history_of (M := edgeMachine d) (A := fun u x => u.Heeds x)
    (P := fun h u => Bindings h u ∧ u.host.peerLimit = u.loop.server.config.maxSessions ∧
      u.loop.server.Numbered (openings h))
    (fun h u x v o hu hheeds hexec => by
      have hsteps := Edge.steps_of_exec hexec
      have hframe := hsteps.frame
      exact ⟨hu.1.exec hheeds hexec, by rw [hframe.1, hframe.2, hu.2.1],
        openings_concat h x o ▸ hsteps.numbered hu.2.2⟩)
    hstart hrun fun before x after u os hsplit hbefore =>
      hheeds before x after u os hsplit (bind_eq_ok.2 ⟨s₀, hnew, hbefore⟩)
  obtain ⟨hb, hlimit, hnumbered⟩ := hrun'
  rw [List.nil_append] at hb hnumbered
  have hunbound : ∀ peer, s.host.connections.lookup peer = some false →
      peer ∉ s.loop.peerSessions := by
    intro peer hpeer
    rw [hb.domain, hpeer]
    exact nofun
  have hroom : ∀ peer, s.host.connections.lookup peer = some false →
      s.loop.server.sessionCount < s.loop.server.config.maxSessions := fun peer hpeer =>
    hlimit ▸ hb.sessionCount_lt hpeer
  refine ⟨hb.injective, hb.range, hb.domain, hb.survives, ?_, ?_, ?_, hroom⟩
  · intro peer channelId packet s' o hpeer hhello hexec
    have hunbound := hunbound peer hpeer
    cases Edge.steps_of_exec hexec with
    | hello _ _ _ haccept _ =>
      obtain ⟨-, rfl, -⟩ := Server.acceptSession_eq_ok.1 haccept
      exact ⟨_, rfl, fun x hx peer' hopen =>
        absurd (hb.below x hx peer' _ hopen) (UInt64.lt_irrefl _)⟩
    | command _ hsid _ =>
      exact absurd (AList.lookup_isSome.1 (by rw [hsid]; rfl)) hunbound
    | packet _ hold => exact absurd (hold hhello) hunbound
    | quiet hx | tick hx => exact absurd rfl (hx _)
  · intro peer channelId packet hpeer hhello hphase hopenings hids hfloor
    obtain ⟨server, sid, p, e, haccept⟩ :=
      hnumbered.exists_accept (hroom peer hpeer) hopenings hids
    obtain ⟨s', welcome, baseline, hexec, hbound, hlive⟩ :=
      Edge.exists_opened hpeer hhello (hunbound peer hpeer) hphase haccept hfloor
    refine ⟨s', sid, welcome, baseline, hexec, hbound, hlive, fun x hx peer' hopen => ?_⟩
    obtain ⟨-, rfl, -⟩ := Server.acceptSession_eq_ok.1 haccept
    exact absurd (hb.below x hx peer' _ hopen) (UInt64.lt_irrefl _)
  · intro x s' peer sid result hexec
    cases Edge.steps_of_exec hexec with
    | command _ hsid _ => exact hb.since peer sid hsid
    | quiet _ ho => rcases ho with ho | ho <;> cases ho

theorem runEdge_append {d : Decoder F} {config : ServerConfig} {xs xs' : List Service} {t : Edge F}
    {outs : List (LoopOut F)} (hrun : runEdge d config (xs ++ xs') = .ok (t, outs)) :
    ∃ s os os', runEdge d config xs = .ok (s, os) ∧ (edgeMachine d).run s xs' = .ok (t, os') ∧
      outs = os ++ os' ∧ os.length = xs.length := by
  obtain ⟨s₀, hnew, hrun⟩ := bind_eq_ok.1 hrun
  obtain ⟨s, os, os', hfirst, hrest, rfl⟩ := Machine.run_append_eq_ok.1 hrun
  exact ⟨s, os, os', bind_eq_ok.2 ⟨s₀, hnew, hfirst⟩, hrest, rfl, Machine.length_of_run hfirst⟩

/-- A decoder of the empty hello and of one command. -/
def oneCommand : Decoder ℚ where
  clientHello packet := packet == []
  inputCmd packet :=
    if packet = [8, 1, 16, 1, 26, 16, 0, 0, 0, 0, 0, 0, 0, 0, 0, 0, 0, 0, 0, 0, 0, 0] then
      some ⟨1, 1, [0, 0]⟩
    else none

/-- A peer says hello and leaves within the first drain. Its session stays, the next connection
of the peer gets none, and what it sends is the first connection's. -/
theorem stale_binding : ∃ s outs,
    runEdge oneCommand {} [.event (.connect 0), .event (.receive 0 channelControl []),
      .event (.disconnect 0)] = .ok (s, outs) ∧
    0 ∈ s.loop.peerSessions ∧ 1 ∈ s.loop.server.sessions ∧
    s.host.connections.lookup 0 = none ∧
    ∃ t outs', (edgeMachine oneCommand).run s [.idle false, .event (.connect 0),
      .event (.receive 0 channelControl []), .event (.receive 0 channelRealtime
        [8, 1, 16, 1, 26, 16, 0, 0, 0, 0, 0, 0, 0, 0, 0, 0, 0, 0, 0, 0, 0, 0])] = .ok (t, outs') ∧
      outs' = [.waited, .ignored, .ignored, .attributed 0 1 .accepted] := by
  have hfirst : (runEdge oneCommand {} [.event (.connect 0),
      .event (.receive 0 channelControl []), .event (.disconnect 0)]).map (fun x =>
        (x.1.loop.peerSessions.keys, x.1.loop.server.sessions.keys,
          x.1.host.connections.lookup 0)) = .ok ([0], [1], none) := by
    decide +kernel
  have hrest : (runEdge oneCommand {} ([.event (.connect 0),
      .event (.receive 0 channelControl []), .event (.disconnect 0)] ++ [.idle false,
      .event (.connect 0), .event (.receive 0 channelControl []),
      .event (.receive 0 channelRealtime
        [8, 1, 16, 1, 26, 16, 0, 0, 0, 0, 0, 0, 0, 0, 0, 0, 0, 0, 0, 0, 0, 0])])).map (fun x =>
        x.2.drop 3) = .ok [.waited, .ignored, .ignored, .attributed 0 1 .accepted] := by
    decide +kernel
  obtain ⟨⟨s, outs⟩, hs, heq⟩ := map_eq_ok.1 hfirst
  obtain ⟨⟨t, outs'⟩, ht, hdrop⟩ := map_eq_ok.1 hrest
  simp only [Prod.mk.injEq] at heq
  obtain ⟨hpeers, hsessions, hhost⟩ := heq
  obtain ⟨s', os, os', hs', hmore, rfl, hlen⟩ := runEdge_append ht
  obtain ⟨rfl, rfl⟩ := Prod.mk.inj (Except.ok.inj (hs.symm.trans hs'))
  refine ⟨s, outs, hs, AList.mem_keys.2 (hpeers ▸ List.mem_cons_self),
    AList.mem_keys.2 (hsessions ▸ List.mem_cons_self), hhost, t, os', hmore, ?_⟩
  rw [← hdrop]
  exact (List.drop_left' hlen).symm

/-- The same peer leaves once the loop ticks, and comes back. -/
theorem neverStale_of_return : ∃ s outs,
    runEdge oneCommand {} [.event (.connect 0), .event (.receive 0 channelControl []),
      .idle false, .event (.disconnect 0), .event (.connect 0),
      .event (.receive 0 channelControl [])] = .ok (s, outs) ∧
    s.loop.peerSessions.lookup 0 = some 2 ∧
    NeverStale oneCommand ([.event (.connect 0), .event (.receive 0 channelControl []),
      .idle false, .event (.disconnect 0), .event (.connect 0),
      .event (.receive 0 channelControl [])].zip outs) s := by
  have h : (runEdge oneCommand {} [.event (.connect 0), .event (.receive 0 channelControl []),
      .idle false, .event (.disconnect 0), .event (.connect 0),
      .event (.receive 0 channelControl [])]).map (fun x => x.1.loop.peerSessions.lookup 0) =
      .ok (some 2) := by
    decide +kernel
  have hphase : (runEdge oneCommand {} [.event (.connect 0),
      .event (.receive 0 channelControl []), .idle false]).map (fun x => x.1.loop.phase) =
      .ok .ticking := by
    decide +kernel
  obtain ⟨⟨s, outs⟩, hrun, hlookup⟩ := map_eq_ok.1 h
  refine ⟨s, outs, hrun, hlookup, neverStale_of_heeds hrun ?_⟩
  intro before x after u os hsplit hbefore hwaiting peer hx
  -- The only disconnect comes when the loop ticks.
  subst hx
  rcases before with _ | ⟨x₁, _ | ⟨x₂, _ | ⟨x₃, _ | ⟨x₄, _ | ⟨x₅, _ | ⟨x₆, before⟩⟩⟩⟩⟩⟩ <;>
    simp only [List.nil_append, List.cons_append, List.cons.injEq, reduceCtorEq,
      Service.event.injEq, and_false, false_and] at hsplit
  · obtain ⟨rfl, rfl, rfl, -⟩ := hsplit
    rw [hbefore] at hphase
    exact absurd (hwaiting.symm.trans (Except.ok.inj hphase)) nofun
  · exact absurd (congrArg List.length hsplit.2.2.2.2.2.2) (by simp)

end Flowstate
