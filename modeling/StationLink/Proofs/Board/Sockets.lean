import StationLink.Proofs.Board.Wiring

/-!
# Sockets are closed once

A socket that has come into use is the session's and open, or it has been closed once. A session ends
in many ways: by a new call, an order, a failed send, a look at a dead peer, the end of the stream and a
reset. A socket that cannot be switched to not blocking never comes into use and is never closed.
-/

namespace StationLink.Board

open Text Protocol

/-- A socket that this plan brings has not been closed before. -/
def Plan.Fresh : Plan → Prop
  | .answer s => s.closeCalls = 0
  | _ => True

/-- How often a socket is closed in the end. -/
def Socket.closings (s : Socket) : Nat :=
  if s.failsUnblock then 0 else 1

theorem Socket.closeCalls_unblock (s : Socket) : s.unblock.closeCalls = s.closeCalls := by
  rw [unblock]
  split
  · rfl
  · rfl

theorem Socket.failsUnblock_unblock (s : Socket) : s.unblock.failsUnblock = s.failsUnblock := by
  rw [unblock]
  split
  · rfl
  · rfl

/-- What has become of the sockets. -/
structure Tended (b : Board) : Prop where
  plans : ∀ plan ∈ b.dialer.plans, plan.Fresh
  latest : ∀ s, b.session = some s → s.socket + 1 = b.dialer.sockets.length ∧
    b.dialer.calls.getLast? = some (s.host, s.port)
  held : ∀ s socket, b.session = some s → b.dialer.sockets[s.socket]? = some socket →
    socket.failsUnblock = false ∧ socket.closeCalls = 0
  dropped : ∀ i socket, b.dialer.sockets[i]? = some socket →
    (∀ s, b.session = some s → s.socket ≠ i) → socket.closeCalls = socket.closings

namespace Tended

variable {b b' : Board}

theorem of_eq (h : b.Tended) (hdialer : b'.dialer = b.dialer) (hsession : b'.session = b.session) :
    b'.Tended := by
  obtain ⟨plans, latest, held, dropped⟩ := h
  rw [← hdialer, ← hsession] at *
  exact ⟨plans, latest, held, dropped⟩

/-- What is done to a socket without closing it. -/
theorem modify (h : b.Tended) (i : Nat) (f : Socket → Socket)
    (hcalls : ∀ s, (f s).closeCalls = s.closeCalls)
    (hfails : ∀ s, (f s).failsUnblock = s.failsUnblock) :
    Tended { b with dialer := b.dialer.modify i f } := by
  have hkept : ∀ (j : Nat) (socket : Socket), (b.dialer.modify i f).sockets[j]? = some socket →
      ∃ old : Socket, b.dialer.sockets[j]? = some old ∧
        socket.closeCalls = old.closeCalls ∧ socket.failsUnblock = old.failsUnblock := by
    intro j socket hsocket
    simp only [Dialer.modify, List.getElem?_modify] at hsocket
    obtain ⟨old, hold, rfl⟩ := Option.map_eq_some_iff.mp hsocket
    refine ⟨old, hold, ?_⟩
    split
    · exact ⟨hcalls old, hfails old⟩
    · exact ⟨rfl, rfl⟩
  constructor
  · exact h.plans
  · intro s hs
    rw [Dialer.modify, List.length_modify]
    exact h.latest s hs
  · intro s socket hs hsocket
    obtain ⟨old, hold, hcalls, hfails⟩ := hkept s.socket socket hsocket
    rw [hcalls, hfails]
    exact h.held s old hs hold
  · intro j socket hsocket hfree
    obtain ⟨old, hold, hcalls, hfails⟩ := hkept j socket hsocket
    rw [hcalls, Socket.closings, hfails]
    exact h.dropped j old hold hfree

theorem closeSession (h : b.Tended) : b.closeSession.Tended := by
  simp only [Board.closeSession]
  split
  · exact h
  · rename_i s hs
    refine ⟨h.plans, ?_, ?_, ?_⟩
    · intro s hs
      cases hs
    · intro s socket hs
      cases hs
    · intro i socket hsocket _
      simp only [Dialer.modify, List.getElem?_modify] at hsocket
      obtain ⟨old, hold, rfl⟩ := Option.map_eq_some_iff.mp hsocket
      split
      · rename_i hi
        subst hi
        obtain ⟨husable, hopen⟩ := h.held s old hs hold
        simp [Socket.close, Socket.closings, husable, hopen]
      · rename_i hi
        apply h.dropped i old hold
        intro t ht
        obtain rfl := Option.some.inj (ht.symm.trans hs)
        exact hi

/-! ## A call -/

theorem nextPlan (h : b.Tended) : b.dialer.nextPlan.Fresh :=
  b.dialer.forall_nextPlan h.plans rfl

/-- Without a session there is nothing left to close. -/
theorem of_none (hsession : b.session = none) (hplans : ∀ plan ∈ b.dialer.plans, plan.Fresh)
    (hclosed : ∀ socket ∈ b.dialer.sockets, socket.closeCalls = socket.closings) : b.Tended := by
  have hnone : ∀ s, b.session ≠ some s := by simp [hsession]
  constructor
  · exact hplans
  · intro s hs
    exact absurd hs (hnone s)
  · intro s socket hs
    exact absurd hs (hnone s)
  · intro i socket hsocket _
    exact hclosed socket (List.mem_of_getElem? hsocket)

theorem closed (h : b.Tended) (hsession : b.session = none) :
    ∀ socket ∈ b.dialer.sockets, socket.closeCalls = socket.closings := by
  intro socket hmem
  obtain ⟨i, hsocket⟩ := List.mem_iff_getElem?.mp hmem
  apply h.dropped i socket hsocket
  intro s hs
  cases hsession.symm.trans hs

theorem dial (h : b.Tended) (hsession : b.session = none) (host : Text) (port : Int) :
    (b.dial host port).1.Tended := by
  have hnext := h.nextPlan
  have hclosed := h.closed hsession
  have htail : ∀ plan ∈ b.dialer.plans.tail, plan.Fresh :=
    fun plan hp => h.plans plan (List.mem_of_mem_tail hp)
  simp only [Board.dial, Dialer.dial]
  cases hplan : b.dialer.nextPlan with
  | refuse => exact of_none hsession htail hclosed
  | fault => exact of_none hsession htail hclosed
  | answer socket =>
    rw [hplan] at hnext
    have hfresh : socket.unblock.closeCalls = 0 := socket.closeCalls_unblock.trans hnext
    have hlast : (b.dialer.sockets ++ [socket]).modify b.dialer.sockets.length Socket.unblock =
        b.dialer.sockets ++ [socket.unblock] := by
      simp [List.modify_eq_take_cons_drop]
    simp only [Dialer.modify, hlast]
    cases hfails : socket.failsUnblock with
    | true =>
      refine of_none hsession htail (List.forall_mem_append.mpr ⟨hclosed, ?_⟩)
      intro s hs
      obtain rfl := List.mem_singleton.mp hs
      rw [hfresh, Socket.closings, socket.failsUnblock_unblock, hfails]
      rfl
    | false =>
      have husable : socket.unblock.failsUnblock = false := socket.failsUnblock_unblock.trans hfails
      constructor
      · exact htail
      · intro s hs
        obtain rfl := Option.some.inj hs
        exact ⟨by simp [printLine, print], List.getLast?_concat⟩
      · intro s new hs hnew
        obtain rfl := Option.some.inj hs
        obtain rfl := Option.some.inj (List.getElem?_concat_length.symm.trans hnew)
        exact ⟨husable, hfresh⟩
      · intro i old hold hother
        replace hold : (b.dialer.sockets ++ [socket.unblock])[i]? = some old := hold
        have hi : b.dialer.sockets.length ≠ i := hother _ rfl
        have hlt : i < (b.dialer.sockets ++ [socket.unblock]).length :=
          (List.getElem?_eq_some_iff.mp hold).1
        rw [List.length_append, List.length_singleton] at hlt
        rw [List.getElem?_append_left (by omega)] at hold
        exact hclosed old (List.mem_of_getElem? hold)

/-! ## The orders -/

theorem lasting : Lasting Tended where
  of_eq h hdialer hsession := h.of_eq hdialer hsession
  peeked s h := h.modify s.socket _ (fun _ => rfl) fun _ => rfl
  drained s h := h.modify s.socket _ (fun _ => rfl) fun _ => rfl
  sent s _ h := h.modify s.socket _ (fun _ => rfl) fun _ => rfl
  closed h := h.closeSession

theorem execute (h : b.Tended) (o : Order) : (b.execute o).1.Tended :=
  lasting.execute (fun _ host port hb hsession => hb.dial hsession host port) h o

theorem turn (h : b.Tended) : b.turn.1.Tended :=
  lasting.turn (fun _ host port hb hsession => hb.dial hsession host port) h

theorem reset (h : b.Tended) : b.reset.Tended :=
  h.closeSession.of_eq rfl rfl

end Tended

theorem tended_boot (networks : List Network) (plans : List Plan)
    (hplans : ∀ plan ∈ plans, plan.Fresh) : (boot networks plans).Tended := by
  refine Tended.of_none rfl hplans ?_
  intro socket hsocket
  cases hsocket

/-! ## Whatever happens -/

/-- What can happen to a board that is running. -/
inductive Occurrence where
  | feed (bytes : Bytes)
  | poll
  | order (text : Text)
  | read
  | reset
  | deliver (socket : Nat) (events : List PeerEvent)
  | failSends (socket : Nat) (fails : Bool)
  | dropRadio
deriving DecidableEq, Repr

def Occurrence.befall : Occurrence → Board → Board
  | .feed bytes, b => b.feed bytes
  | .poll, b => b.turn.1
  | .order text, b => (b.execute (.ofText text)).1
  | .read, b => { b with output := [] }
  | .reset, b => b.reset
  | .deliver i events, b => { b with dialer := b.dialer.modify i (Socket.deliver events) }
  | .failSends i fails, b =>
    { b with dialer := b.dialer.modify i fun socket => { socket with failsSend := fails } }
  | .dropRadio, b => { b with radio := b.radio.leave }

theorem Tended.befall {b : Board} (h : b.Tended) (o : Occurrence) : (o.befall b).Tended := by
  cases o with
  | feed bytes => exact h.of_eq rfl rfl
  | poll => exact h.turn
  | order text => exact h.execute _
  | read => exact h.of_eq rfl rfl
  | reset => exact h.reset
  | deliver i events => exact h.modify i _ (fun _ => rfl) fun _ => rfl
  | failSends i fails => exact h.modify i _ (fun _ => rfl) fun _ => rfl
  | dropRadio => exact h.of_eq rfl rfl

def befallen (b : Board) (occurrences : List Occurrence) : Board :=
  occurrences.foldl (fun b o => o.befall b) b

theorem Tended.befallen {b : Board} (h : b.Tended) (occurrences : List Occurrence) :
    (b.befallen occurrences).Tended := by
  induction occurrences generalizing b with
  | nil => exact h
  | cons o occurrences ih => exact ih (h.befall o)

/-- The session, if there is one, has the socket of the last call; every other socket has been closed
once. Sockets that cannot be switched to not blocking are apart. -/
structure ClosedOnce (b : Board) : Prop where
  usable : ∀ i socket, b.dialer.sockets[i]? = some socket → socket.failsUnblock = false →
    ((∃ s, b.session = some s ∧ s.socket = i) ∧ socket.closeCalls = 0) ∨
    ((∀ s, b.session = some s → s.socket ≠ i) ∧ socket.closeCalls = 1)
  unusable : ∀ i socket, b.dialer.sockets[i]? = some socket → socket.failsUnblock = true →
    (∀ s, b.session = some s → s.socket ≠ i) ∧ socket.closeCalls = 0
  latest : ∀ s, b.session = some s → s.socket + 1 = b.dialer.sockets.length ∧
    b.dialer.calls.getLast? = some (s.host, s.port)
  unclosed : ∀ i socket, b.dialer.sockets[i]? = some socket → socket.failsUnblock = false →
    socket.closeCalls = 0 → i + 1 = b.dialer.sockets.length

theorem Tended.closedOnce {b : Board} (h : b.Tended) : b.ClosedOnce where
  usable i socket hsocket husable := by
    by_cases hheld : ∃ s, b.session = some s ∧ s.socket = i
    · obtain ⟨s, hs, rfl⟩ := hheld
      exact .inl ⟨⟨s, hs, rfl⟩, (h.held s socket hs hsocket).2⟩
    · have hother : ∀ s, b.session = some s → s.socket ≠ i := fun s hs hi => hheld ⟨s, hs, hi⟩
      refine .inr ⟨hother, ?_⟩
      rw [h.dropped i socket hsocket hother, Socket.closings, husable]
      rfl
  unusable i socket hsocket hfails := by
    have hother : ∀ s, b.session = some s → s.socket ≠ i := by
      rintro s hs rfl
      cases hfails.symm.trans (h.held s socket hs hsocket).1
    refine ⟨hother, ?_⟩
    rw [h.dropped i socket hsocket hother, Socket.closings, hfails]
    rfl
  latest := h.latest
  unclosed i socket hsocket husable hopen := by
    by_cases hheld : ∃ s, b.session = some s ∧ s.socket = i
    · obtain ⟨s, hs, rfl⟩ := hheld
      exact (h.latest s hs).1
    · have hclosed := h.dropped i socket hsocket fun s hs hi => hheld ⟨s, hs, hi⟩
      rw [hopen, Socket.closings, husable] at hclosed
      cases hclosed

/-- Whatever is fed, ordered, polled, reset and delivered, and whatever calls of the sockets fail. -/
theorem sockets_closed_once (networks : List Network) (plans : List Plan)
    (hplans : ∀ plan ∈ plans, plan.Fresh) (occurrences : List Occurrence) :
    ((boot networks plans).befallen occurrences).ClosedOnce :=
  ((tended_boot networks plans hplans).befallen occurrences).closedOnce

/-- Sockets of which each fails in its own way. -/
def brittle : List Plan :=
  [.answer { failsClose := true }, .answer { failsUnblock := true }, .refuse,
    .answer { inbox := [.data 0x78 [], .eof] }, .fault, .answer { failsSend := true }]

/-- A session is lost by a new call, by the end of its stream and by a failed send; one is left. -/
def shuffle : List Occurrence :=
  [.order "TCPCONNECT:a:1".toList, .order "TCPCONNECT:b:2".toList, .order "TCPCONNECT:c:3".toList,
    .feed (Utf8.encode "TCPCONNECT:d:4\n".toList), .poll, .order "TCPCONNECT:e:5".toList,
    .order "TCPCONNECT:f:6".toList, .order "TCPSEND:x".toList, .reset,
    .order "TCPCONNECT:g:7".toList, .deliver 4 [.eof], .dropRadio, .read]

theorem sockets_closed_once_of_brittle :
    (∀ plan ∈ brittle, plan.Fresh) ∧
      ((boot [] brittle).befallen shuffle).session = some ⟨"g".toList, 7, 4⟩ ∧
      ((boot [] brittle).befallen shuffle).dialer.sockets.map Socket.closeCalls = [1, 0, 1, 1, 0] ∧
      ((boot [] brittle).befallen shuffle).ClosedOnce := by
  have hplans : ∀ plan ∈ brittle, plan.Fresh := by simp [brittle, Plan.Fresh]
  refine ⟨hplans, by decide +kernel, by decide +kernel, ?_⟩
  exact sockets_closed_once [] brittle hplans shuffle

end StationLink.Board
