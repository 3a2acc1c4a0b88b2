import StationLink.Proofs.Board.Inflow
import StationLink.Proofs.Board.Sockets

/-!
# Sessions along a history

What lasts through every turn, and bears deliveries and changes of the sockets' temper, endures
whatever happens. A session has a socket at its place, and a session that is lost is not taken up
again.
-/

namespace StationLink.Board

open Text Protocol

/-- A property that whatever happens to a board keeps. -/
structure Enduring (I : Board → Prop) : Prop extends Lasting I where
  dialled : ∀ {b : Board} (host : Text) (port : Int), I b → b.session = none → I (b.dial host port).1
  delivered : ∀ {b : Board} (i : Nat) (events : List PeerEvent), I b →
    I { b with dialer := b.dialer.modify i (Socket.deliver events) }
  failing : ∀ {b : Board} (i : Nat) (fails : Bool), I b →
    I { b with dialer := b.dialer.modify i fun socket => { socket with failsSend := fails } }

namespace Enduring

variable {I : Board → Prop} {b : Board}

theorem befall (hI : Enduring I) (h : I b) (o : Occurrence) : I (o.befall b) := by
  have hdial (b : Board) (host : Text) (port : Int) (hb : I b) (hsession : b.session = none) :
      I (b.dial host port).1 := hI.dialled host port hb hsession
  cases o with
  | feed bytes => exact hI.of_eq h rfl rfl
  | poll => exact hI.turn hdial h
  | order text => exact hI.execute hdial h _
  | read => exact hI.of_eq h rfl rfl
  | reset => exact hI.of_eq (hI.closed h) rfl rfl
  | deliver i events => exact hI.delivered i events h
  | failSends i fails => exact hI.failing i fails h
  | dropRadio => exact hI.of_eq h rfl rfl

theorem befallen (hI : Enduring I) (h : I b) (occurrences : List Occurrence) :
    I (b.befallen occurrences) := by
  induction occurrences generalizing b with
  | nil => exact h
  | cons o occurrences ih => exact ih (hI.befall h o)

end Enduring

/-! ## The place of a session -/

/-- The session, if there is one, has a socket. -/
def Placed (b : Board) : Prop :=
  ∀ s, b.session = some s → s.socket < b.dialer.sockets.length

namespace Placed

variable {b b' : Board}

theorem of_eq (h : b.Placed) (hlength : b'.dialer.sockets.length = b.dialer.sockets.length)
    (hsession : b'.session = b.session) : b'.Placed := by
  intro s hs
  rw [hlength]
  exact h s (hsession.symm.trans hs)

theorem of_none (hsession : b.session = none) : b.Placed := by
  intro s hs
  cases hsession.symm.trans hs

theorem dial (hsession : b.session = none) (host : Text) (port : Int) : (b.dial host port).1.Placed := by
  simp only [Board.dial, Dialer.dial]
  cases b.dialer.nextPlan with
  | refuse => exact of_none hsession
  | fault => exact of_none hsession
  | answer socket =>
    dsimp only
    split
    · exact of_none hsession
    · intro s hs
      obtain rfl := Option.some.inj hs
      simp [printLine, print, Dialer.modify]

theorem enduring : Enduring Placed where
  of_eq h hdialer hsession := h.of_eq (by rw [hdialer]) hsession
  peeked _ h := h.of_eq (length_sockets_modify _ _ _) rfl
  drained _ h := h.of_eq (length_sockets_modify _ _ _) rfl
  sent _ _ h := h.of_eq (length_sockets_modify _ _ _) rfl
  closed _ := of_none (session_closeSession _)
  dialled host port _ hsession := dial hsession host port
  delivered _ _ h := h.of_eq (length_sockets_modify _ _ _) rfl
  failing _ _ h := h.of_eq (length_sockets_modify _ _ _) rfl

end Placed

theorem placed_befallen (networks : List Network) (plans : List Plan) (occurrences : List Occurrence) :
    ((boot networks plans).befallen occurrences).Placed :=
  Placed.enduring.befallen (.of_none rfl) occurrences

theorem Follows.enduring (a : Board) : Enduring (Follows a) where
  toLasting := Follows.lasting a
  dialled host port h _ := h.trans (.dial host port _)
  delivered _ _ h := h.trans (.of_eq (length_sockets_modify _ _ _) rfl)
  failing _ _ h := h.trans (.of_eq (length_sockets_modify _ _ _) rfl)

theorem Follows.befallen (b : Board) (occurrences : List Occurrence) :
    Follows b (b.befallen occurrences) :=
  (Follows.enduring b).befallen (.of_eq rfl rfl) occurrences

end StationLink.Board
