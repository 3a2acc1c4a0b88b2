import StationLink.Board.Tcp

/-!
# What orders about TCP see nothing of

An order about TCP reads dialer and session, and beyond them it only prints. A change of the board that
keeps these two and prints the same is nothing to it: the order comes to the same, and the change may as
well be made afterwards.
-/

namespace StationLink.Board

open Text Protocol

/-- A change of the board that its dialer, its session and its printing have no part in. -/
structure Aloof (f : Board → Board) : Prop where
  dialer : ∀ b, (f b).dialer = b.dialer
  session : ∀ b, (f b).session = b.session
  place : ∀ b dialer session, { f b with dialer, session } = f { b with dialer, session }
  line : ∀ b text, (f b).printLine text = f (b.printLine text)

namespace Aloof

variable {f : Board → Board} (hf : Aloof f) (b : Board)

include hf

theorem withDialer (dialer : Dialer) : { f b with dialer } = f { b with dialer } := by
  have h := hf.place b dialer b.session
  rw [← h, ← hf.session b]

theorem setInbox (s : Session) (inbox : List PeerEvent) :
    (f b).setInbox s inbox = f (b.setInbox s inbox) := by
  rw [Board.setInbox, Board.setInbox, hf.dialer]
  exact hf.withDialer b _

theorem inbox (s : Session) : (f b).inbox s = b.inbox s := by
  rw [Board.inbox, Board.inbox, hf.dialer]

theorem closeSession : (f b).closeSession = f b.closeSession := by
  simp only [Board.closeSession, hf.session]
  split
  · rfl
  · rw [hf.dialer]
    exact hf.place b _ none

theorem dial (host : Text) (port : Int) :
    (f b).dial host port = (f (b.dial host port).1, (b.dial host port).2) := by
  simp only [Board.dial, hf.dialer]
  split
  · rw [hf.withDialer, hf.line]
  · rw [hf.withDialer]
  · split
    · rw [hf.withDialer, hf.line]
    · rw [hf.place, hf.line]

theorem tcpConnect (host : Text) (port : Int) :
    (f b).tcpConnect host port = (f (b.tcpConnect host port).1, (b.tcpConnect host port).2) := by
  simp only [Board.tcpConnect]
  split
  · rfl
  · rw [hf.line, hf.closeSession, hf.dial]

theorem aliveSession : (f b).aliveSession = (b.aliveSession.1, f b.aliveSession.2) := by
  simp only [Board.aliveSession, hf.session]
  split
  · rfl
  · simp only [hf.inbox, hf.setInbox, hf.closeSession]
    split
    · rfl
    · rfl
    · rfl
    · rfl

theorem tcpSend (data : Text) : (f b).tcpSend data = f (b.tcpSend data) := by
  simp only [Board.tcpSend, hf.aliveSession]
  rcases b.aliveSession with ⟨_ | s, b⟩
  · exact hf.line b _
  · simp only [hf.dialer, hf.closeSession, hf.withDialer, hf.line]
    split
    · rfl
    · rfl

theorem tcpClose : (f b).tcpClose = f b.tcpClose := by
  simp only [Board.tcpClose, hf.aliveSession]
  rcases b.aliveSession with ⟨_ | s, b⟩
  · exact hf.line b _
  · simp only [hf.closeSession, hf.line]

theorem forward : (f b).forward = f b.forward := by
  simp only [Board.forward, hf.session]
  split
  · rfl
  · simp only [hf.inbox, hf.setInbox, hf.line]
    split
    · split
      · rw [hf.closeSession]
      · rw [hf.closeSession]
    · split
      · rfl
      · rfl

end Aloof

end StationLink.Board
