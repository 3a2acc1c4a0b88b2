import StationLink.Board.Run

/-!
# Boards around which nothing breaks a line

What a board prints comes in part from outside: the names and addresses of the networks, and the
bytes of the remote peers. A board is plain if none of these holds a line feed, if every signal has a
numeral, and if no call of the dialer faults. Peers may do all else.
-/

namespace StationLink.Board

open Text

/-- Name and address are single lines, and the signal has a numeral. -/
structure Network.Plain (n : Network) : Prop where
  ssid : '\n' ∉ n.ssid
  ip : '\n' ∉ n.ip
  signal : (Nat.toDigits 10 n.rssi.natAbs).length ≤ Numeral.limit

/-- The network that is joined or being joined. -/
def Association.network? : Association → Option Network
  | .idle => none
  | .joining n _ | .associated n => some n

structure Radio.Plain (r : Radio) : Prop where
  networks : ∀ n ∈ r.networks, n.Plain
  association : ∀ n ∈ r.association.network?, n.Plain

def InboxPlain (inbox : List PeerEvent) : Prop :=
  ∀ e ∈ inbox, 0x0A ∉ e.bytes

def Socket.Plain (s : Socket) : Prop :=
  InboxPlain s.inbox

def Plan.Plain : Plan → Prop
  | .refuse => True
  | .fault => False
  | .answer s => s.Plain

structure Dialer.Plain (d : Dialer) : Prop where
  plans : ∀ plan ∈ d.plans, plan.Plain
  sockets : ∀ s ∈ d.sockets, s.Plain

structure Plain (b : Board) : Prop where
  radio : b.radio.Plain
  dialer : b.dialer.Plain

/-! ## The radio -/

/-- A radio over these networks that is on to none but a network of this kind. -/
structure Radio.Onto (P : Network → Prop) (networks : List Network) (r : Radio) : Prop where
  networks : r.networks = networks
  association : ∀ n ∈ r.association.network?, P n

namespace Radio.Onto

variable {P : Network → Prop} {networks : List Network} {r : Radio}

theorem leave (h : r.Onto P networks) : r.leave.Onto P networks :=
  ⟨h.networks, by simp [Radio.leave, Association.network?]⟩

theorem join (ssid password : Text) (h : r.networks = networks)
    (hfind : ∀ n, r.find? ssid = some n → P n) : (r.join ssid password).Onto P networks := by
  simp only [Radio.join]
  split
  · rename_i n hn
    refine ⟨h, ?_⟩
    intro m hm
    cases hadmits : n.admits password with
    | false => simp [hadmits, Association.network?] at hm
    | true =>
      obtain rfl : n = m := by simpa [hadmits, Association.network?] using hm
      exact hfind n hn
  · exact ⟨h, by simp [Association.network?]⟩

theorem poll (h : r.Onto P networks) : r.poll.2.Onto P networks := by
  simp only [Radio.poll]
  split
  · exact h
  · exact h
  · rename_i n left hjoining
    have hn : P n := h.association n (by rw [hjoining]; rfl)
    split
    · exact ⟨h.networks, by simpa [Association.network?] using hn⟩
    · exact ⟨h.networks, by simpa [Association.network?] using hn⟩

theorem network (h : r.Onto P networks) (n : Network) (hn : r.network? = some n) : P n := by
  apply h.association
  simp only [Radio.network?] at hn
  split at hn
  · rename_i m hassociated
    rw [hassociated]
    exact hn
  · cases hn

end Radio.Onto

theorem Radio.Onto.plain {networks : List Network} {r : Radio} (h : r.Onto Network.Plain networks)
    (hn : ∀ n ∈ networks, n.Plain) : r.Plain :=
  ⟨h.networks ▸ hn, h.association⟩

namespace Radio.Plain

variable {r : Radio}

theorem onto (h : r.Plain) : r.Onto Network.Plain r.networks :=
  ⟨rfl, h.association⟩

theorem leave (h : r.Plain) : r.leave.Plain :=
  h.onto.leave.plain h.networks

theorem poll (h : r.Plain) : r.poll.2.Plain :=
  h.onto.poll.plain h.networks

theorem network (h : r.Plain) (n : Network) (hn : r.network? = some n) : n.Plain :=
  h.onto.network n hn

end Radio.Plain

/-! ## Inboxes -/

theorem InboxPlain.nil : InboxPlain [] := by
  simp [InboxPlain]

theorem InboxPlain.cons {e : PeerEvent} {inbox : List PeerEvent} (he : 0x0A ∉ e.bytes)
    (h : InboxPlain inbox) : InboxPlain (e :: inbox) := by
  simpa [InboxPlain] using ⟨he, h⟩

theorem InboxPlain.append {inbox events : List PeerEvent} (h : InboxPlain inbox)
    (h' : InboxPlain events) : InboxPlain (inbox ++ events) :=
  List.forall_mem_append.mpr ⟨h, h'⟩

theorem InboxPlain.receive {inbox : List PeerEvent} (h : InboxPlain inbox) (size : Nat) :
    InboxPlain (receive size inbox).2 ∧
      ∀ bytes, (receive size inbox).1 = .data bytes → 0x0A ∉ bytes := by
  cases inbox with
  | nil => exact ⟨.nil, by simp [Board.receive]⟩
  | cons e inbox =>
    have he : 0x0A ∉ e.bytes := h e List.mem_cons_self
    have hrest : InboxPlain inbox := fun e he => h e (List.mem_cons_of_mem _ he)
    cases e with
    | data b bs =>
      refine ⟨?_, ?_⟩
      · simp only [Board.receive]
        cases hdrop : (b :: bs).drop size with
        | nil => exact hrest
        | cons c cs =>
          refine hrest.cons (e := .data c cs) fun hmem => he ?_
          have hdropped : 0x0A ∈ (b :: bs).drop size := by
            rw [hdrop]
            exact hmem
          exact List.mem_of_mem_drop hdropped
      · intro bytes hbytes hmem
        obtain rfl := Received.data.inj hbytes
        exact he (List.mem_of_mem_take hmem)
    | eof => exact ⟨h, by simp [Board.receive]⟩
    | reset => exact ⟨hrest, by simp [Board.receive]⟩
    | interrupt => exact ⟨hrest, by simp [Board.receive]⟩
    | block => exact ⟨hrest, by simp [Board.receive]⟩

theorem InboxPlain.peek {inbox : List PeerEvent} (h : InboxPlain inbox) :
    InboxPlain (peek inbox).2 := by
  unfold Board.peek
  split
  · exact h
  · exact (h.receive 1).1

theorem InboxPlain.drain {inbox : List PeerEvent} (h : InboxPlain inbox) :
    0x0A ∉ (drain inbox).1 ∧ InboxPlain (drain inbox).2.2 := by
  fun_induction Board.drain inbox with
  | case1 inbox rest hreceive =>
    have hrest := (h.receive readSize).1
    rw [hreceive] at hrest
    exact ⟨by simp, hrest⟩
  | case2 inbox rest hreceive =>
    have hrest := (h.receive readSize).1
    rw [hreceive] at hrest
    exact ⟨by simp, hrest⟩
  | case3 inbox rest hreceive =>
    have hrest := (h.receive readSize).1
    rw [hreceive] at hrest
    exact ⟨by simp, hrest⟩
  | case4 inbox bytes rest hreceive more ended left hdrain ih =>
    obtain ⟨hrest, hbytes⟩ := h.receive readSize
    rw [hreceive] at hrest hbytes
    obtain ⟨hmore, hleft⟩ := ih hrest
    rw [hdrain] at hmore hleft
    refine ⟨?_, hleft⟩
    simpa using ⟨hbytes bytes rfl, hmore⟩

/-! ## The dialer -/

theorem Dialer.forall_modify {P : Socket → Prop} (d : Dialer) (i : Nat) (f : Socket → Socket)
    (h : ∀ s ∈ d.sockets, P s) (hf : ∀ s, P s → P (f s)) : ∀ s ∈ (d.modify i f).sockets, P s := by
  intro s hs
  obtain ⟨j, hj⟩ := List.mem_iff_getElem?.mp hs
  simp only [Dialer.modify, List.getElem?_modify] at hj
  obtain ⟨t, ht, rfl⟩ := Option.map_eq_some_iff.mp hj
  have hold : P t := h t (List.mem_of_getElem? ht)
  split
  · exact hf t hold
  · exact hold

theorem Dialer.forall_nextPlan {P : Plan → Prop} (d : Dialer) (h : ∀ plan ∈ d.plans, P plan)
    (hdefault : P (.answer {})) : P d.nextPlan := by
  rw [Dialer.nextPlan]
  cases hplans : d.plans with
  | nil => exact hdefault
  | cons plan plans => exact h plan (by simp [hplans])

namespace Dialer.Plain

variable {d : Dialer}

theorem modify (h : d.Plain) (i : Nat) (f : Socket → Socket) (hf : ∀ s, s.Plain → (f s).Plain) :
    (d.modify i f).Plain :=
  ⟨h.plans, d.forall_modify i f h.sockets hf⟩

theorem nextPlan (h : d.Plain) : d.nextPlan.Plain :=
  d.forall_nextPlan h.plans InboxPlain.nil

theorem dial (h : d.Plain) (host : Text) (port : Int) :
    (d.dial host port).1.Plain ∧ (d.dial host port).2.Plain := by
  have hnext := h.nextPlan
  have htail : ∀ plan ∈ d.plans.tail, plan.Plain := fun plan hp => h.plans plan (List.mem_of_mem_tail hp)
  simp only [Dialer.dial]
  split
  · rename_i s hs
    rw [hs] at hnext
    refine ⟨hnext, htail, List.forall_mem_append.mpr ⟨h.sockets, ?_⟩⟩
    exact List.forall_mem_singleton.mpr hnext
  · exact ⟨hnext, htail, h.sockets⟩

end Dialer.Plain

/-! ## The board -/

namespace Plain

variable {b : Board}

theorem closeSession (h : b.Plain) : b.closeSession.Plain := by
  simp only [Board.closeSession]
  split
  · exact h
  · exact ⟨h.radio, h.dialer.modify _ _ fun _ hs => hs⟩

theorem inbox (h : b.Plain) (s : Session) : InboxPlain (b.inbox s) := by
  rw [Board.inbox]
  cases hsocket : b.dialer.sockets[s.socket]? with
  | none => exact .nil
  | some socket => exact h.dialer.sockets socket (List.mem_of_getElem? hsocket)

theorem setInbox (h : b.Plain) (s : Session) {inbox : List PeerEvent} (hi : InboxPlain inbox) :
    (b.setInbox s inbox).Plain :=
  ⟨h.radio, h.dialer.modify _ _ fun _ _ => hi⟩

theorem aliveSession (h : b.Plain) : b.aliveSession.2.Plain := by
  simp only [Board.aliveSession]
  split
  · exact h
  · rename_i s hs
    have hpeek : (b.setInbox s (peek (b.inbox s)).2).Plain := h.setInbox s (h.inbox s).peek
    split
    · exact hpeek.closeSession
    · exact hpeek.closeSession
    · exact hpeek
    · exact hpeek

end Plain

theorem plain_boot (networks : List Network) (plans : List Plan) (hn : ∀ n ∈ networks, n.Plain)
    (hp : ∀ plan ∈ plans, plan.Plain) : (boot networks plans).Plain := by
  refine ⟨⟨hn, ?_⟩, hp, ?_⟩
  · intro n hn
    cases hn
  · intro s hs
    cases hs

end StationLink.Board
