import StationLink.Proofs.Board.Wiring
import StationLink.Proofs.Board.Wireless

/-!
# What flows in

While a session stays, each turn takes some chunks from the head of its inbox and prints them in one
line; orders take nothing, and print no line that could be taken for data. A session that is lost does
not come back: the next one has a new socket.
-/

namespace StationLink.Board

open Text Protocol

/-! ## Inboxes -/

/-- The chunks of data in an inbox, in order. -/
def chunks (inbox : List PeerEvent) : List Bytes :=
  (inbox.map PeerEvent.bytes).filter (· ≠ [])

theorem chunks_append (inbox more : List PeerEvent) :
    chunks (inbox ++ more) = chunks inbox ++ chunks more := by
  simp [chunks]

theorem chunks_peek (inbox : List PeerEvent) : chunks (peek inbox).2 = chunks inbox := by
  cases inbox with
  | nil => rfl
  | cons e inbox =>
    cases e with
    | _ => rfl

theorem drain_data (b : UInt8) (bs : Bytes) (inbox : List PeerEvent) :
    drain (.data b bs :: inbox) = (b :: bs ++ (drain inbox).1, (drain inbox).2) := by
  induction hlength : bs.length using Nat.strongRecOn generalizing b bs with
  | ind n ih =>
    have hsplit : (b :: bs).take readSize ++ (b :: bs).drop readSize = b :: bs :=
      List.take_append_drop readSize (b :: bs)
    rw [drain]
    simp only [receive]
    cases hdrop : (b :: bs).drop readSize with
    | nil =>
      rw [hdrop, List.append_nil] at hsplit
      simp only [PeerEvent.chunk?, Option.toList_none, List.nil_append, hsplit]
    | cons c cs =>
      -- The rest is a chunk again, and shorter.
      have hshort : cs.length < n := by
        have hcount := congrArg List.length hdrop
        rw [List.length_drop] at hcount
        simp only [List.length_cons, readSize] at hcount
        omega
      have hbytes : (b :: bs).take readSize ++ (c :: cs ++ (drain inbox).1) =
          b :: bs ++ (drain inbox).1 := by
        rw [← List.append_assoc, ← hdrop, hsplit]
      simp only [PeerEvent.chunk?, Option.toList_some, List.cons_append, List.nil_append,
        ih _ hshort c cs rfl]
      exact congrArg (·, (drain inbox).2) hbytes

/-- What is read at once are the chunks up to some event. -/
theorem drain_chunks (inbox : List PeerEvent) :
    ∃ taken, (drain inbox).1 = taken.flatten ∧ chunks inbox = taken ++ chunks (drain inbox).2.2 := by
  induction inbox with
  | nil => exact ⟨[], by rw [drain]; rfl, by rw [drain]; rfl⟩
  | cons e inbox ih =>
    cases e with
    | data b bs =>
      obtain ⟨taken, hbytes, hchunks⟩ := ih
      refine ⟨(b :: bs) :: taken, ?_, ?_⟩
      · rw [drain_data, hbytes]
        rfl
      · rw [drain_data]
        exact congrArg ((b :: bs) :: ·) hchunks
    | eof => exact ⟨[], by rw [drain]; rfl, by rw [drain]; rfl⟩
    | reset => exact ⟨[], by rw [drain]; rfl, by rw [drain]; rfl⟩
    | interrupt => exact ⟨[], by rw [drain]; rfl, by rw [drain]; rfl⟩
    | block => exact ⟨[], by rw [drain]; rfl, by rw [drain]; rfl⟩

theorem chunks_ne_nil {inbox : List PeerEvent} {chunk : Bytes} (h : chunk ∈ chunks inbox) : chunk ≠ [] := by
  simpa using (List.mem_filter.mp h).2

theorem inbox_modify (d : Dialer) (s : Session) (f : Socket → Socket)
    (h : s.socket < d.sockets.length) :
    ∃ socket, d.sockets[s.socket]? = some socket ∧ (d.modify s.socket f).sockets[s.socket]? = some (f socket) := by
  have hsocket : d.sockets[s.socket]? = some d.sockets[s.socket] := List.getElem?_eq_getElem h
  refine ⟨_, hsocket, ?_⟩
  simp [Dialer.modify, hsocket]

theorem length_sockets_modify (d : Dialer) (i : Nat) (f : Socket → Socket) :
    (d.modify i f).sockets.length = d.sockets.length :=
  List.length_modify _ _ _

/-! ## Sessions are not taken up again -/

/-- The session of the second board is that of the first, or has a socket that the first has not. -/
structure Follows (b b' : Board) : Prop where
  sockets : b.dialer.sockets.length ≤ b'.dialer.sockets.length
  session : ∀ s, b'.session = some s → b.session = some s ∨ b.dialer.sockets.length ≤ s.socket

namespace Follows

variable {a b c : Board}

theorem of_eq (hdialer : b.dialer.sockets.length = a.dialer.sockets.length)
    (hsession : b.session = a.session) : Follows a b :=
  ⟨Nat.le_of_eq hdialer.symm, fun _ hs => .inl (hsession.symm.trans hs)⟩

theorem of_none (hdialer : a.dialer.sockets.length ≤ b.dialer.sockets.length) (hsession : b.session = none) :
    Follows a b := by
  refine ⟨hdialer, ?_⟩
  intro s hs
  cases hsession.symm.trans hs

theorem trans (h : Follows a b) (h' : Follows b c) : Follows a c := by
  refine ⟨Nat.le_trans h.sockets h'.sockets, ?_⟩
  intro s hs
  rcases h'.session s hs with hb | hnew
  · exact h.session s hb
  · exact .inr (Nat.le_trans h.sockets hnew)

/-- A session that is there in the end has been there all the time, if its socket has. -/
theorem kept (h : Follows a b) {s : Session} (hs : b.session = some s)
    (hplace : s.socket < a.dialer.sockets.length) : a.session = some s := by
  rcases h.session s hs with ha | hnew
  · exact ha
  · omega

theorem closeSession (b : Board) : Follows b b.closeSession := by
  obtain ⟨dialer, hclose, _, _, hlength⟩ := closeSession_eq b
  rw [hclose]
  exact of_none (Nat.le_of_eq hlength.symm) rfl

theorem dial (host : Text) (port : Int) (b : Board) : Follows b (b.dial host port).1 := by
  simp only [Board.dial, Dialer.dial]
  cases b.dialer.nextPlan with
  | refuse => exact of_eq rfl rfl
  | fault => exact of_eq rfl rfl
  | answer socket =>
    have hlength : b.dialer.sockets.length ≤
        ((b.dialer.sockets ++ [socket]).modify b.dialer.sockets.length Socket.unblock).length := by
      rw [List.length_modify, List.length_append]
      omega
    dsimp only
    split
    · exact ⟨hlength, fun s hs => .inl hs⟩
    · refine ⟨hlength, ?_⟩
      intro s hs
      obtain rfl := Option.some.inj hs
      exact .inr (Nat.le_refl _)

theorem lasting (a : Board) : Lasting (Follows a) where
  of_eq h hdialer hsession := h.trans (of_eq (congrArg (fun d => d.sockets.length) hdialer) hsession)
  peeked _ h := h.trans (of_eq (length_sockets_modify _ _ _) rfl)
  drained _ h := h.trans (of_eq (length_sockets_modify _ _ _) rfl)
  sent _ _ h := h.trans (of_eq (length_sockets_modify _ _ _) rfl)
  closed h := h.trans (closeSession _)

theorem execute (o : Order) (b : Board) : Follows b (b.execute o).1 :=
  (lasting b).execute (fun _ host port h _ => h.trans (dial host port _)) (of_eq rfl rfl) o

theorem executeAll (orders : List Order) (b : Board) : Follows b (Board.executeAll orders b).1 :=
  (lasting b).executeAll (fun _ host port h _ => h.trans (dial host port _)) (of_eq rfl rfl) orders

theorem forward (b : Board) : Follows b b.forward :=
  (lasting b).forward (of_eq rfl rfl)

theorem turn (b : Board) : Follows b b.turn.1 :=
  (lasting b).turn (fun _ host port h _ => h.trans (dial host port _)) (of_eq rfl rfl)

end Follows

/-! ## While a session stays -/

/-- A session that is there, on a board whose radio is plain; what has come in for it has no line feed. -/
structure Receiving (s : Session) (b : Board) : Prop where
  radio : b.radio.Plain
  session : b.session = some s
  placed : s.socket < b.dialer.sockets.length
  inbox : InboxPlain (b.inbox s)

/-- Nothing is taken from the inbox, and what is printed since is not data. -/
structure Untouched (s : Session) (b b' : Board) : Prop where
  receiving : Receiving s b'
  chunks : chunks (b'.inbox s) = chunks (b.inbox s)
  output : ∃ lines, b'.output = b.output ++ Utf8.encodeLines lines ∧ ∀ t ∈ lines, '\n' ∉ t ∧ Mute t

theorem Untouched.refl {s : Session} {b : Board} (h : Receiving s b) : Untouched s b b :=
  ⟨h, rfl, [], (List.append_nil _).symm, by simp⟩

theorem Untouched.trans {s : Session} {a b c : Board} (h : Untouched s a b) (h' : Untouched s b c) :
    Untouched s a c := by
  obtain ⟨lines, hout, hlines⟩ := h.output
  obtain ⟨more, hout', hmore⟩ := h'.output
  refine ⟨h'.receiving, h'.chunks.trans h.chunks, lines ++ more, ?_,
    List.forall_mem_append.mpr ⟨hlines, hmore⟩⟩
  rw [hout', hout, Utf8.encodeLines_append, List.append_assoc]

theorem inbox_setInbox (b : Board) (s : Session) (inbox : List PeerEvent)
    (h : s.socket < b.dialer.sockets.length) : (b.setInbox s inbox).inbox s = inbox := by
  simp [Board.inbox, setInbox, Dialer.modify, h]

namespace Receiving

variable {s : Session} {b : Board}

theorem of_eq {b' : Board} (h : Receiving s b) (hradio : b'.radio = b.radio)
    (hdialer : b'.dialer = b.dialer) (hsession : b'.session = b.session) : Receiving s b' := by
  have hinbox : b'.inbox s = b.inbox s := by rw [Board.inbox, Board.inbox, hdialer]
  exact ⟨hradio ▸ h.radio, hsession.trans h.session, hdialer ▸ h.placed, hinbox ▸ h.inbox⟩

theorem setInbox (h : Receiving s b) {inbox : List PeerEvent} (hinbox : InboxPlain inbox) :
    Receiving s (b.setInbox s inbox) := by
  refine ⟨h.radio, h.session, ?_, ?_⟩
  · rw [Board.setInbox, length_sockets_modify]
    exact h.placed
  · rw [inbox_setInbox b s inbox h.placed]
    exact hinbox

theorem wireless (h : Receiving s b) (o : Order) (ho : o.Wireless) (hplain : o.Plain) :
    (b.execute o).2 = none ∧ Untouched s b (b.execute o).1 := by
  obtain ⟨b', lines, hrun, hradio, hdialer, hsession, houtput, hlines⟩ :=
    execute_of_wireless o ho hplain b h.radio
  have hinbox : b'.inbox s = b.inbox s := by rw [Board.inbox, Board.inbox, hdialer]
  rw [hrun]
  exact ⟨rfl, ⟨hradio, hsession.trans h.session, hdialer ▸ h.placed, hinbox ▸ h.inbox⟩,
    congrArg chunks hinbox, lines, houtput, hlines⟩

/-- Of a look at the inbox that finds the session alive. -/
theorem peeked (h : Receiving s b) : Untouched s b (b.setInbox s (peek (b.inbox s)).2) := by
  refine ⟨h.setInbox h.inbox.peek, ?_, [], (List.append_nil _).symm, by simp⟩
  rw [inbox_setInbox b s _ h.placed, chunks_peek]

theorem aliveSession (h : Receiving s b) :
    b.aliveSession = (some s, b.setInbox s (peek (b.inbox s)).2) ∨
      ∃ b', b.aliveSession = (none, b') ∧ b'.session = none := by
  simp only [Board.aliveSession, h.session]
  split
  · exact .inr ⟨_, rfl, session_closeSession _⟩
  · exact .inr ⟨_, rfl, session_closeSession _⟩
  · exact .inl rfl
  · exact .inl rfl

theorem line (h : Receiving s b) (text : Text) (hfree : '\n' ∉ text) (hmute : Mute text) :
    Untouched s b (b.printLine text) := by
  refine ⟨h.of_eq rfl rfl rfl, rfl, [text], ?_, List.forall_mem_singleton.mpr ⟨hfree, hmute⟩⟩
  rw [printLine_eq, Utf8.encodeLines_singleton]

theorem sent (h : Receiving s b) (data : Bytes) :
    Untouched s b { b with dialer := b.dialer.modify s.socket (Socket.send data) } := by
  have hkept : ∀ socket : Socket, (socket.send data).inbox = socket.inbox := fun _ => rfl
  have hinbox : Board.inbox { b with dialer := b.dialer.modify s.socket (Socket.send data) } s =
      b.inbox s := by
    obtain ⟨socket, hsocket, hmodified⟩ := inbox_modify b.dialer s (Socket.send data) h.placed
    simp [Board.inbox, hsocket, hmodified, hkept]
  refine ⟨⟨h.radio, h.session, ?_, ?_⟩, congrArg chunks hinbox, [], (List.append_nil _).symm, by simp⟩
  · rw [length_sockets_modify]
    exact h.placed
  · rw [hinbox]
    exact h.inbox

theorem tcpSend (h : Receiving s b) (data : Text) (hs : (b.tcpSend data).session = some s) :
    Untouched s b (b.tcpSend data) := by
  have hlost (b' : Board) (text : Text) (hnone : b'.session = none) :
      (b'.printLine text).session ≠ some s := by
    intro hsome
    cases hnone.symm.trans hsome
  simp only [Board.tcpSend] at hs ⊢
  rcases h.aliveSession with halive | ⟨b', halive, hnone⟩
  · simp only [halive] at hs ⊢
    split
    · rename_i hfails
      rw [if_pos hfails] at hs
      exact absurd hs (hlost _ _ (session_closeSession _))
    · have hsent := h.peeked.trans (h.peeked.receiving.sent (Utf8.encode data))
      exact hsent.trans (hsent.receiving.line _ (by decide) (by decide))
  · rw [halive] at hs
    exact absurd hs (hlost b' _ hnone)

theorem execute (h : Receiving s b) (o : Order) (ho : o.Plain)
    (hs : (b.execute o).1.session = some s) :
    (b.execute o).2 = none ∧ Untouched s b (b.execute o).1 := by
  cases o with
  | tcpConnect host port =>
    obtain ⟨_, number, hnumber⟩ := ho
    rw [Board.execute] at hs
    -- A call has ended the session, and a new one has a socket of its own.
    rcases tcpConnect_spec host port number b hnumber with
      ⟨_, _, _, hspec, _⟩ | ⟨_, _, _, hspec⟩ | ⟨_, _, hspec⟩
    · rw [hspec] at hs
      obtain rfl := Option.some.inj hs
      exact absurd h.placed (Nat.lt_irrefl _)
    · rw [hspec] at hs
      cases hs
    · rw [hspec] at hs
      cases hs
  | tcpSend data => exact ⟨rfl, h.tcpSend data hs⟩
  | tcpClose =>
    rw [Board.execute] at hs
    rcases tcpClose_spec b with ⟨_, _, hspec⟩ | ⟨_, _, hspec⟩
    · rw [hspec] at hs
      cases hs
    · rw [hspec] at hs
      cases hs
  | _ => exact h.wireless _ trivial ho

theorem executeAll (h : Receiving s b) (orders : List Order) (horders : ∀ o ∈ orders, o.Plain)
    (hs : (Board.executeAll orders b).1.session = some s) :
    (Board.executeAll orders b).2 = none ∧ Untouched s b (Board.executeAll orders b).1 := by
  induction orders generalizing b with
  | nil => exact ⟨rfl, .refl h⟩
  | cons o orders ih =>
    have hplain : o.Plain := horders o List.mem_cons_self
    have hstep := h.execute o hplain
    have hfollows := Follows.execute o b
    simp only [Board.executeAll] at hs ⊢
    rcases hrun : b.execute o with ⟨b', _ | crash⟩
    · rw [hrun] at hs hstep hfollows
      have hkept : b'.session = some s :=
        (Follows.executeAll orders b').kept hs (Nat.lt_of_lt_of_le h.placed hfollows.sockets)
      obtain ⟨_, huntouched⟩ := hstep hkept
      obtain ⟨hcrash, hrest⟩ := ih huntouched.receiving
        (fun o' ho' => horders o' (List.mem_cons_of_mem o ho')) hs
      exact ⟨hcrash, huntouched.trans hrest⟩
    · rw [hrun] at hs hstep
      obtain ⟨hcrash, _⟩ := hstep hs
      cases hcrash

end Receiving

/-! ## A turn -/

theorem Radio.Plain.turn {b : Board} (h : b.radio.Plain) : b.turn.1.radio.Plain := by
  have hrun := Radio.Plain.executeAll (b := { b with input := (frame b.input).2 }) h
    ((frame b.input).1.map Order.ofBytes)
  simp only [Board.turn]
  generalize Board.executeAll _ _ = run at hrun
  rcases run with ⟨b', _ | crash⟩
  · change b'.forward.radio.Plain
    rw [radio_forward]
    exact hrun
  · exact hrun

/-- The line in which chunks are forwarded. -/
def dataLines (taken : List Bytes) : List Text :=
  if taken = [] then [] else [Mark.tcpData ++ Utf8.decode taken.flatten]

theorem not_mem_dataLines {taken : List Bytes} (h : 0x0A ∉ taken.flatten) :
    ∀ t ∈ dataLines taken, '\n' ∉ t := by
  have hline : '\n' ∉ Mark.tcpData ++ Utf8.decode taken.flatten :=
    not_mem_append (by decide) (Utf8.not_mem_decode _ h)
  rw [dataLines]
  split
  · simp
  · exact List.forall_mem_singleton.mpr hline

/-- Some chunks are taken from the inbox and printed behind lines that are not data. -/
structure Forwarded (s : Session) (b b' : Board) (taken : List Bytes) : Prop where
  receiving : Receiving s b'
  free : ∀ t ∈ dataLines taken, '\n' ∉ t
  chunks : chunks (b.inbox s) = taken ++ chunks (b'.inbox s)
  output : ∃ lines, b'.output = b.output ++ Utf8.encodeLines (lines ++ dataLines taken) ∧
    ∀ t ∈ lines, '\n' ∉ t ∧ Mute t

theorem Receiving.forward {s : Session} {b : Board} (h : Receiving s b) (hs : b.forward.session = some s) :
    ∃ taken, Forwarded s b b.forward taken := by
  obtain ⟨taken, hbytes, hchunks⟩ := drain_chunks (b.inbox s)
  have hdrained := h.setInbox h.inbox.drain.2
  have hrest := inbox_setInbox b s (drain (b.inbox s)).2.2 h.placed
  have hfree : ∀ t ∈ dataLines taken, '\n' ∉ t := not_mem_dataLines (hbytes ▸ h.inbox.drain.1)
  have hempty : (drain (b.inbox s)).1 = [] ↔ taken = [] := by
    rw [hbytes, List.flatten_eq_nil_iff]
    constructor
    · intro hnil
      apply List.eq_nil_iff_forall_not_mem.mpr
      intro chunk hmem
      have hin : chunk ∈ Board.chunks (b.inbox s) := hchunks ▸ List.mem_append_left _ hmem
      exact chunks_ne_nil hin (hnil chunk hmem)
    · rintro rfl chunk hmem
      cases hmem
  simp only [Board.forward, h.session] at hs ⊢
  split
  · rename_i hended
    rw [if_pos hended] at hs
    cases (session_closeSession _).symm.trans hs
  · refine ⟨taken, ?_⟩
    by_cases htaken : taken = []
    · rw [if_pos (hempty.mpr htaken)]
      refine ⟨hdrained, hfree, hrest.symm ▸ hchunks, [], ?_, by simp⟩
      rw [dataLines, if_pos htaken]
      exact (List.append_nil _).symm
    · rw [if_neg (mt hempty.mp htaken)]
      refine ⟨hdrained.of_eq rfl rfl rfl, hfree, hrest.symm ▸ hchunks, [], ?_, by simp⟩
      rw [dataLines, if_neg htaken, printLine_eq, ← hbytes, List.nil_append, Utf8.encodeLines_singleton]
      rfl

theorem plain_of_mem_frame (input : Bytes) : ∀ o ∈ (frame input).1.map Order.ofBytes, o.Plain := by
  intro o ho
  obtain ⟨line, hline, rfl⟩ := List.mem_map.mp ho
  exact Order.plain_ofText _ (Utf8.not_mem_decode line (not_mem_of_mem_frame input line hline))

theorem Receiving.turn {s : Session} {b : Board} (h : Receiving s b) (hs : b.turn.1.session = some s) :
    b.turn.2 = none ∧ ∃ taken, Forwarded s b b.turn.1 taken := by
  have hframed : Receiving s { b with input := (frame b.input).2 } := h.of_eq rfl rfl rfl
  have hrun := hframed.executeAll _ (plain_of_mem_frame b.input)
  have hfollows := Follows.executeAll ((frame b.input).1.map Order.ofBytes)
    { b with input := (frame b.input).2 }
  simp only [Board.turn] at hs ⊢
  generalize Board.executeAll _ _ = run at hrun hfollows hs
  rcases run with ⟨b', _ | crash⟩
  · have hplace : s.socket < b'.dialer.sockets.length := Nat.lt_of_lt_of_le h.placed hfollows.sockets
    obtain ⟨_, huntouched⟩ := hrun ((Follows.forward b').kept hs hplace)
    obtain ⟨taken, hforward⟩ := huntouched.receiving.forward hs
    obtain ⟨lines, hout, hlines⟩ := huntouched.output
    obtain ⟨more, hout', hmore⟩ := hforward.output
    refine ⟨rfl, taken, hforward.receiving.of_eq rfl rfl rfl, hforward.free,
      huntouched.chunks.symm.trans hforward.chunks, lines ++ more, ?_,
      List.forall_mem_append.mpr ⟨hlines, hmore⟩⟩
    change b'.forward.output = _
    rw [hout', hout, List.append_assoc lines, Utf8.encodeLines_append lines, List.append_assoc]
  · obtain ⟨hcrash, _⟩ := hrun hs
    cases hcrash

end StationLink.Board
