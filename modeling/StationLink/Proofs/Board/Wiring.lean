import StationLink.Proofs.Board.WholeLines

/-!
# What is done to dialer and session

Orders look into the inbox of a session, send, end the session, and dial when there is none; forwarding
also takes from the inbox; all else leaves dialer and session alone. What abides by the uses of orders
lasts through every order, and what lasts through forwarding as well lasts through every turn.
-/

namespace StationLink.Board

open Text Protocol

/-- A property of dialer and session that the uses of a session by orders keep. -/
structure Abiding (I : Board → Prop) : Prop where
  of_eq : ∀ {b b' : Board}, I b → b'.dialer = b.dialer → b'.session = b.session → I b'
  peeked : ∀ {b : Board} (s : Session), I b → I (b.setInbox s (peek (b.inbox s)).2)
  sent : ∀ {b : Board} (s : Session) (data : Bytes), I b →
    I { b with dialer := b.dialer.modify s.socket (Socket.send data) }
  closed : ∀ {b : Board}, I b → I b.closeSession

/-- A property that forwarding keeps too. -/
structure Lasting (I : Board → Prop) : Prop extends Abiding I where
  drained : ∀ {b : Board} (s : Session), I b → I (b.setInbox s (drain (b.inbox s)).2.2)

namespace Abiding

variable {I : Board → Prop} {b : Board}

theorem line (hI : Abiding I) (h : I b) (text : Text) : I (b.printLine text) :=
  hI.of_eq h rfl rfl

theorem aliveSession (hI : Abiding I) (h : I b) : I b.aliveSession.2 := by
  simp only [Board.aliveSession]
  split
  · exact h
  · rename_i s _
    have hpeek := hI.peeked s h
    split
    · exact hI.closed hpeek
    · exact hI.closed hpeek
    · exact hpeek
    · exact hpeek

theorem tcpSend (hI : Abiding I) (h : I b) (data : Text) : I (b.tcpSend data) := by
  have halive := hI.aliveSession h
  simp only [Board.tcpSend]
  generalize b.aliveSession = found at halive
  rcases found with ⟨_ | s, b⟩
  · exact hI.line halive _
  · dsimp only
    split
    · exact hI.line (hI.closed (hI.sent s _ halive)) _
    · exact hI.line (hI.sent s _ halive) _

theorem tcpClose (hI : Abiding I) (h : I b) : I b.tcpClose := by
  have halive := hI.aliveSession h
  simp only [Board.tcpClose]
  generalize b.aliveSession = found at halive
  rcases found with ⟨_ | s, b⟩
  · exact hI.line halive _
  · exact hI.line (hI.closed halive) _

theorem byRadio {b' : Board} (hI : Abiding I) (h : I b) (hrun : ByRadio b b') : I b' :=
  hI.of_eq h hrun.dialer hrun.session

variable (hI : Abiding I)
  (hdial : ∀ (b : Board) (host : Text) (port : Int), I b → b.session = none → I (b.dial host port).1)

include hI hdial

theorem tcpConnect (h : I b) (host : Text) (port : Int) : I (b.tcpConnect host port).1 := by
  simp only [Board.tcpConnect]
  split
  · exact h
  · exact hdial _ host port (hI.closed (hI.line h _)) (session_closeSession _)

theorem execute (h : I b) (o : Order) : I (b.execute o).1 := by
  cases o with
  | connect ssid password => exact hI.byRadio h (byRadio_connect ssid password b)
  | connectWithoutPassword => exact hI.line h _
  | status => exact hI.byRadio h (byRadio_reportStatus b)
  | scan => exact hI.byRadio h (byRadio_reportSurvey b)
  | disconnect => exact hI.byRadio h (byRadio_disconnect b)
  | tcpConnect host port => exact hI.tcpConnect hdial h host port
  | tcpConnectWithoutHost => exact hI.line h _
  | tcpSend data => exact hI.tcpSend h data
  | tcpClose => exact hI.tcpClose h
  | address => exact hI.byRadio h (byRadio_reportAddress b)
  | unknown line => exact hI.line h _

theorem executeAll (h : I b) (orders : List Order) : I (Board.executeAll orders b).1 :=
  executeAll_keeps orders b h fun o _ _ hb => hI.execute hdial hb o

end Abiding

namespace Lasting

variable {I : Board → Prop} {b : Board}

theorem forward (hI : Lasting I) (h : I b) : I b.forward := by
  simp only [Board.forward]
  split
  · exact h
  · rename_i s _
    have hdrained := hI.drained s h
    have hprinted : I (if (drain (b.inbox s)).1 = [] then b.setInbox s (drain (b.inbox s)).2.2
        else (b.setInbox s (drain (b.inbox s)).2.2).printLine
          (Mark.tcpData ++ Utf8.decode (drain (b.inbox s)).1)) := by
      split
      · exact hdrained
      · exact hI.line hdrained _
    split
    · exact hI.closed hprinted
    · exact hprinted

theorem turn (hI : Lasting I)
    (hdial : ∀ (b : Board) (host : Text) (port : Int), I b → b.session = none → I (b.dial host port).1)
    (h : I b) : I b.turn.1 := by
  have hframed : I { b with input := (frame b.input).2 } := hI.of_eq h rfl rfl
  have hrun := hI.executeAll hdial hframed ((frame b.input).1.map Order.ofBytes)
  simp only [Board.turn]
  generalize Board.executeAll _ _ = run at hrun
  rcases run with ⟨b', _ | crash⟩
  · exact hI.of_eq (hI.forward hrun) rfl rfl
  · exact hrun

end Lasting

end StationLink.Board
