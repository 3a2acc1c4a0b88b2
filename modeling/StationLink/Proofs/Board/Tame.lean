import StationLink.Proofs.Board.Plain
import StationLink.Proofs.Board.Wiring

/-!
# Peers that send no line feed

A dialer is tame if no remote peer sends a line feed; its calls may be refused and may fault. Through
all turns it stays so. Beside that, nothing but a call changes its plans.
-/

namespace StationLink.Board

open Text Protocol

def Plan.Tame : Plan → Prop
  | .answer s => s.Plain
  | _ => True

theorem Plan.Plain.tame {plan : Plan} (h : plan.Plain) : plan.Tame := by
  cases plan with
  | answer s => exact h
  | refuse => trivial
  | fault => trivial

structure Dialer.Tame (d : Dialer) : Prop where
  plans : ∀ plan ∈ d.plans, plan.Tame
  sockets : ∀ s ∈ d.sockets, s.Plain

namespace Dialer.Tame

variable {d : Dialer}

theorem modify (h : d.Tame) (i : Nat) (f : Socket → Socket) (hf : ∀ s, s.Plain → (f s).Plain) :
    (d.modify i f).Tame :=
  ⟨h.plans, d.forall_modify i f h.sockets hf⟩

theorem nextPlan (h : d.Tame) : d.nextPlan.Tame :=
  d.forall_nextPlan h.plans InboxPlain.nil

theorem deliver (h : d.Tame) (i : Nat) {events : List PeerEvent} (hplain : InboxPlain events) :
    (d.modify i (Socket.deliver events)).Tame :=
  h.modify i _ fun _ hs => hs.append hplain

end Dialer.Tame

namespace Tame

variable {b : Board}

theorem inbox (h : b.dialer.Tame) (s : Session) : InboxPlain (b.inbox s) := by
  rw [Board.inbox]
  cases hsocket : b.dialer.sockets[s.socket]? with
  | none => exact .nil
  | some socket => exact h.sockets socket (List.mem_of_getElem? hsocket)

theorem lasting : Lasting fun b => b.dialer.Tame where
  of_eq h hdialer _ := hdialer ▸ h
  peeked s h := h.modify _ _ fun _ _ => (inbox h s).peek
  drained s h := h.modify _ _ fun _ _ => (inbox h s).drain.2
  sent s data h := h.modify s.socket _ fun _ hplain => hplain
  closed {b} h := by
    simp only [closeSession]
    split
    · exact h
    · exact h.modify _ _ fun _ hplain => hplain

theorem dial (h : b.dialer.Tame) (host : Text) (port : Int) : (b.dial host port).1.dialer.Tame := by
  have hnext := h.nextPlan
  have htail : ∀ plan ∈ b.dialer.plans.tail, plan.Tame :=
    fun plan hp => h.plans plan (List.mem_of_mem_tail hp)
  simp only [Board.dial, Dialer.dial]
  cases hplan : b.dialer.nextPlan with
  | refuse => exact ⟨htail, h.sockets⟩
  | fault => exact ⟨htail, h.sockets⟩
  | answer socket =>
    rw [hplan] at hnext
    have hdialed : Dialer.Tame { b.dialer with
        plans := b.dialer.plans.tail
        calls := b.dialer.calls ++ [(host, port)]
        sockets := b.dialer.sockets ++ [socket] } :=
      ⟨htail, List.forall_mem_append.mpr ⟨h.sockets, List.forall_mem_singleton.mpr hnext⟩⟩
    have hunblocked := hdialed.modify b.dialer.sockets.length Socket.unblock fun s hs => by
      rw [Socket.unblock]
      split
      · exact hs
      · exact hs
    dsimp only
    split
    · exact hunblocked
    · exact hunblocked

theorem execute (h : b.dialer.Tame) (o : Order) : (b.execute o).1.dialer.Tame :=
  lasting.execute (fun _ host port hb _ => dial hb host port) h o

end Tame

/-! ## Plans -/

theorem lasting_plans (plans : List Plan) : Lasting fun b => b.dialer.plans = plans where
  of_eq h hdialer _ := hdialer ▸ h
  peeked _ h := h
  drained _ h := h
  sent _ _ h := h
  closed {b} h := by
    obtain ⟨dialer, hclose, _, hplans, _⟩ := closeSession_eq b
    rw [hclose]
    exact hplans.trans h

theorem plans_dial (host : Text) (port : Int) (b : Board) :
    (b.dial host port).1.dialer.plans = b.dialer.plans.tail := by
  simp only [dial, Dialer.dial]
  cases b.dialer.nextPlan with
  | refuse => rfl
  | fault => rfl
  | answer socket =>
    dsimp only
    split
    · rfl
    · rfl

theorem plans_tcpConnect (host number : Text) (port : Int) (b : Board)
    (hnumber : Numeral.write? port = some number) :
    (b.tcpConnect host port).1.dialer.plans = b.dialer.plans.tail := by
  simp only [tcpConnect, hnumber]
  rw [plans_dial]
  exact congrArg List.tail ((lasting_plans b.dialer.plans).closed rfl)

end StationLink.Board
