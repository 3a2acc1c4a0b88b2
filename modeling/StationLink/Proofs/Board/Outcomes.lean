import StationLink.Proofs.Board.Plain
import StationLink.Proofs.Text.Lines

/-!
# What the orders come to

A join and the orders about TCP, each in one equation or with all its cases: which parts of the board
they change, what they print, and how the two agree. Orders about WiFi leave dialer and session alone,
orders about TCP the radio.
-/

namespace StationLink.Board

open Text Protocol

/-! ## Printing -/

def printLines (lines : List Text) (b : Board) : Board :=
  lines.foldl (fun b line => b.printLine line) b

@[simp]
theorem radio_printLine (line : Text) (b : Board) : (b.printLine line).radio = b.radio := rfl

theorem printLine_eq (line : Text) (b : Board) :
    b.printLine line = { b with output := b.output ++ Utf8.encodeLine line } := by
  rw [← Utf8.encode_snoc_lineFeed]
  rfl

theorem printLines_eq (lines : List Text) (b : Board) :
    b.printLines lines = { b with output := b.output ++ Utf8.encodeLines lines } := by
  induction lines generalizing b with
  | nil => simp [printLines, Utf8.encodeLines]
  | cons line lines ih =>
    have hrest := ih (b.printLine line)
    rw [printLine_eq, List.append_assoc, ← Utf8.encodeLines_cons] at hrest
    rw [← hrest, ← printLine_eq]
    rfl

/-! ## A join -/

/-- The radio after the polls of a join, and how many dots are printed between them. -/
def Radio.awaited : Nat → Radio → Radio × Nat
  | 0, r => (r.poll.2, 0)
  | attempts + 1, r =>
    if r.poll.1 then (r.poll.2, 0)
    else ((r.poll.2.awaited attempts).1, (r.poll.2.awaited attempts).2 + 1)

theorem awaitJoin_eq (attempts : Nat) (b : Board) :
    awaitJoin attempts b =
      { b with
        radio := (b.radio.awaited attempts).1
        output := b.output ++ Utf8.encode (List.replicate (b.radio.awaited attempts).2 '.')
        rests := b.rests ++ List.replicate (b.radio.awaited attempts).2 joinRest } := by
  induction attempts generalizing b with
  | zero => simp [awaitJoin, Radio.awaited, pollRadio, Utf8.encode]
  | succ attempts ih =>
    have hdots (n : Nat) : Utf8.encode (List.replicate (n + 1) '.') =
        Utf8.encode ".".toList ++ Utf8.encode (List.replicate n '.') := by
      rw [List.replicate_succ, ← Utf8.encode_append]
      rfl
    have hstep : awaitJoin (attempts + 1) b =
        if b.radio.poll.1 then { b with radio := b.radio.poll.2 }
        else awaitJoin attempts (({ b with radio := b.radio.poll.2 }.rest joinRest).print ".".toList) := rfl
    by_cases hup : b.radio.poll.1 = true
    · rw [hstep, if_pos hup]
      simp [Radio.awaited, hup, Utf8.encode]
    · rw [hstep, if_neg hup, ih, Radio.awaited, if_neg hup, hdots, List.replicate_succ]
      simp [print, rest]

theorem Radio.Onto.awaited {P : Network → Prop} {networks : List Network} {r : Radio}
    (h : r.Onto P networks) (attempts : Nat) : (r.awaited attempts).1.Onto P networks := by
  induction attempts generalizing r with
  | zero => exact h.poll
  | succ attempts ih =>
    simp only [Radio.awaited]
    split
    · exact h.poll
    · exact ih h.poll

def joinVerdict (r : Radio) : List Text :=
  match r.network? with
  | some n => ["OK:Connected".toList, Mark.ip ++ n.ip]
  | none => ["ERROR:Connection failed".toList]

def joinState (r : Radio) : Wifi :=
  if r.network?.isSome then .connected else .idle

theorem joinState_eq_connected (r : Radio) : joinState r = .connected ↔ r.network?.isSome = true := by
  rw [joinState]
  split <;> simp_all

theorem joinState_settled (r : Radio) : joinState r = .connected ∨ joinState r = .idle := by
  rw [joinState]
  split
  · exact .inl rfl
  · exact .inr rfl

theorem endJoin (b : Board) :
    (if b.pollRadio.1 then
      ({ b.pollRadio.2 with wifi := .connected }.printLine "OK:Connected".toList).printLine
        (Mark.ip ++ b.pollRadio.2.radio.ip)
    else { b.pollRadio.2 with wifi := .idle }.printLine "ERROR:Connection failed".toList) =
      { b with
        radio := b.radio.poll.2
        wifi := joinState b.radio.poll.2
        output := b.output ++ Utf8.encodeLines (joinVerdict b.radio.poll.2) } := by
  have hup : b.pollRadio.1 = b.radio.poll.2.network?.isSome := b.radio.poll_fst
  rw [hup]
  cases hn : b.radio.poll.2.network? with
  | none =>
    simp only [joinState, joinVerdict, hn, Utf8.encodeLines_singleton, printLine_eq]
    rfl
  | some n =>
    have hip : b.radio.poll.2.ip = n.ip := by rw [Radio.ip, hn]; rfl
    have hlines (t u : Text) : Utf8.encodeLines [t, u] = Utf8.encodeLine t ++ Utf8.encodeLine u := by
      rw [Utf8.encodeLines_cons, Utf8.encodeLines_singleton]
    simp only [joinState, joinVerdict, hn, hlines, printLine_eq, pollRadio, hip, List.append_assoc]
    rfl

namespace Radio

variable (ssid password : Text) (r : Radio)

def joined : Radio :=
  ((r.join ssid password).awaited joinAttempts).1.poll.2

theorem onto_joined : (r.joined ssid password).Onto (fun n => r.find? ssid = some n) r.networks :=
  ((Onto.join ssid password rfl fun _ hn => hn).awaited joinAttempts).poll

def waits : Nat :=
  ((r.join ssid password).awaited joinAttempts).2

def joinLines : List Text :=
  ("CONNECTING:".toList ++ ssid) :: List.replicate (r.waits ssid password) '.' ::
    joinVerdict (r.joined ssid password)

end Radio

theorem connect_eq (ssid password : Text) (b : Board) :
    b.connect ssid password =
      { b with
        radio := b.radio.joined ssid password
        wifi := joinState (b.radio.joined ssid password)
        output := b.output ++ Utf8.encodeLines (b.radio.joinLines ssid password)
        rests := b.rests ++ List.replicate (b.radio.waits ssid password) joinRest } := by
  have hdots (n : Nat) : Utf8.encode (List.replicate n '.') ++ Utf8.encodeLine [] =
      Utf8.encodeLine (List.replicate n '.') := rfl
  refine (endJoin _).trans ?_
  simp only [awaitJoin_eq, printLine_eq, Radio.joinLines, Utf8.encodeLines_cons, List.append_assoc, ← hdots]
  rfl

def addressLine (r : Radio) : Text :=
  match r.network? with
  | some n => Mark.ip ++ n.ip
  | none => "ERROR:Not connected to WiFi".toList

theorem reportAddress_eq (b : Board) :
    ∃ wifi, b.reportAddress =
      { b with
        radio := b.radio.poll.2
        wifi
        output := b.output ++ Utf8.encodeLine (addressLine b.radio.poll.2) } := by
  have hup : b.noticeLoss.1 = b.radio.poll.2.network?.isSome := b.radio.poll_fst
  refine ⟨b.noticeLoss.2.wifi, ?_⟩
  simp only [reportAddress, hup, noticeLoss_snd, printLine_eq, addressLine, Radio.ip]
  cases b.radio.poll.2.network? with
  | none => rfl
  | some n => rfl

/-! ## Sockets -/

def Dialer.sent (d : Dialer) : List Bytes :=
  d.sockets.map Socket.sent

theorem Dialer.sent_modify (d : Dialer) (i : Nat) (f : Socket → Socket)
    (hf : ∀ s, (f s).sent = s.sent) : (d.modify i f).sent = d.sent := by
  apply List.ext_getElem?
  intro j
  simp only [Dialer.sent, Dialer.modify, List.getElem?_map, List.getElem?_modify]
  cases d.sockets[j]? with
  | none => rfl
  | some s =>
    by_cases hij : i = j
    · simp [hij, hf]
    · simp [hij]

theorem Dialer.sent_modify_send (d : Dialer) (i : Nat) (data : Bytes) {socket : Socket}
    (h : d.sockets[i]? = some socket) :
    (d.modify i (Socket.send data)).sent = d.sent.modify i (· ++ socket.delivered data) := by
  apply List.ext_getElem?
  intro j
  simp only [Dialer.sent, Dialer.modify, List.getElem?_map, List.getElem?_modify]
  by_cases hij : i = j
  · subst hij
    simp [h, Socket.send]
  · cases d.sockets[j]? <;> simp [hij]

theorem Socket.delivered_of_failing {s : Socket} (h : s.failsSend = true) (data : Bytes) :
    s.delivered data = data.dropLast.take s.partialSend :=
  if_pos h

theorem Socket.delivered_of_working {s : Socket} (h : s.failsSend = false) (data : Bytes) :
    s.delivered data = data :=
  if_neg (Bool.eq_false_iff.mp h)

theorem closeSession_eq (b : Board) :
    ∃ dialer, b.closeSession = { b with dialer, session := none } ∧ dialer.sent = b.dialer.sent ∧
      dialer.plans = b.dialer.plans ∧ dialer.sockets.length = b.dialer.sockets.length := by
  simp only [closeSession]
  split
  · rename_i hs
    exact ⟨b.dialer, by rw [← hs], rfl, rfl, rfl⟩
  · rename_i s _
    exact ⟨_, rfl, Dialer.sent_modify _ _ _ fun _ => rfl, rfl, List.length_modify _ _ _⟩

/-! ## A call -/

/-- The socket that a plan brings, if it can be switched to not blocking. -/
def Plan.usable? : Plan → Option Socket
  | .answer s => if s.failsUnblock then none else some s
  | _ => none

theorem Plan.eq_answer_of_usable? {plan : Plan} {socket : Socket} (h : plan.usable? = some socket) :
    plan = .answer socket := by
  cases plan with
  | refuse => cases h
  | fault => cases h
  | answer s =>
    rw [usable?] at h
    split at h
    · cases h
    · rw [Option.some.inj h]

theorem dial_spec (host : Text) (port : Int) (b : Board) :
    (∃ socket dialer, b.dialer.nextPlan.usable? = some socket ∧ b.dial host port =
        ({ b with
            dialer
            session := some ⟨host, port, b.dialer.sockets.length⟩
            output := b.output ++ Utf8.encodeLine "OK:TCP connected".toList }, none) ∧
        dialer.sockets = b.dialer.sockets ++ [socket.unblock]) ∨
    (∃ dialer, b.dialer.nextPlan.usable? = none ∧ b.dialer.nextPlan ≠ .fault ∧ b.dial host port =
        ({ b with
            dialer
            output := b.output ++ Utf8.encodeLine "ERROR:TCP connection failed".toList }, none)) ∨
    (∃ dialer, b.dialer.nextPlan = .fault ∧ b.dial host port = ({ b with dialer }, some .dialFault)) := by
  simp only [dial, Dialer.dial, printLine_eq]
  cases b.dialer.nextPlan with
  | refuse => exact .inr (.inl ⟨_, rfl, Plan.noConfusion, rfl⟩)
  | fault => exact .inr (.inr ⟨_, rfl, rfl⟩)
  | answer socket =>
    dsimp only
    cases hfails : socket.failsUnblock with
    | true =>
      have hunusable : (Plan.answer socket).usable? = none := by simp [Plan.usable?, hfails]
      exact .inr (.inl ⟨_, hunusable, Plan.noConfusion, rfl⟩)
    | false =>
      have husable : (Plan.answer socket).usable? = some socket := by simp [Plan.usable?, hfails]
      refine .inl ⟨socket, _, husable, rfl, ?_⟩
      simp [Dialer.modify, List.modify_eq_take_cons_drop]

/-! ## The session -/

/-- There is a session, and a look at its inbox finds neither the end of the stream nor a reset. -/
def Live (b : Board) : Prop :=
  ∃ s, b.session = some s ∧ (b.inbox s).head? ≠ some .eof ∧ (b.inbox s).head? ≠ some .reset

theorem peek_of_dead (inbox : List PeerEvent)
    (h : inbox.head? = some .eof ∨ inbox.head? = some .reset) :
    (peek inbox).1 = .ended ∨ (peek inbox).1 = .failed := by
  rcases h with h | h
  · obtain ⟨rest, rfl⟩ := List.head?_eq_some_iff.mp h
    exact .inl rfl
  · obtain ⟨rest, rfl⟩ := List.head?_eq_some_iff.mp h
    exact .inr rfl

theorem peek_of_live (inbox : List PeerEvent) (heof : inbox.head? ≠ some .eof)
    (hreset : inbox.head? ≠ some .reset) :
    (∃ bytes, (peek inbox).1 = .data bytes) ∨ (peek inbox).1 = .nothing := by
  match inbox with
  | [] => exact .inr rfl
  | .data b bs :: inbox => exact .inl ⟨[b], rfl⟩
  | .eof :: inbox => exact absurd rfl heof
  | .reset :: inbox => exact absurd rfl hreset
  | .interrupt :: inbox => exact .inr rfl
  | .block :: inbox => exact .inr rfl

theorem setInbox_eq (s : Session) (inbox : List PeerEvent) (b : Board) :
    ∃ dialer, b.setInbox s inbox = { b with dialer } ∧ dialer.sent = b.dialer.sent :=
  ⟨_, rfl, Dialer.sent_modify _ _ _ fun _ => rfl⟩

/-- The inbox is no matter for what is sent. -/
theorem sent_setInbox_send (s : Session) (inbox : List PeerEvent) (data : Bytes) (b : Board) :
    ((b.setInbox s inbox).dialer.modify s.socket (Socket.send data)).sent =
      (b.dialer.modify s.socket (Socket.send data)).sent := by
  have hswap : (b.setInbox s inbox).dialer.modify s.socket (Socket.send data) =
      (b.dialer.modify s.socket (Socket.send data)).modify s.socket ({ · with inbox }) := by
    simp only [setInbox, Dialer.modify, List.modify_modify_eq]
    rfl
  rw [hswap]
  exact Dialer.sent_modify _ _ _ fun _ => rfl

theorem failsSend_setInbox (s : Session) (inbox : List PeerEvent) (b : Board) :
    (b.setInbox s inbox).dialer.sockets[s.socket]?.map Socket.failsSend =
      b.dialer.sockets[s.socket]?.map Socket.failsSend := by
  rw [setInbox, Dialer.modify, List.getElem?_modify_eq]
  exact Option.map_map _ _ _

theorem aliveSession_of_live (b : Board) (h : b.Live) :
    ∃ s inbox, b.session = some s ∧ b.aliveSession = (some s, b.setInbox s inbox) := by
  obtain ⟨s, hs, heof, hreset⟩ := h
  refine ⟨s, (peek (b.inbox s)).2, hs, ?_⟩
  simp only [aliveSession, hs]
  rcases peek_of_live _ heof hreset with ⟨bytes, hfound⟩ | hfound
  · simp only [hfound]
  · simp only [hfound]

theorem aliveSession_of_not_live (b : Board) (h : ¬ b.Live) :
    ∃ dialer, b.aliveSession = (none, { b with dialer, session := none }) ∧
      dialer.sent = b.dialer.sent := by
  cases hs : b.session with
  | none =>
    refine ⟨b.dialer, ?_, rfl⟩
    have hsame : { b with session := none } = b := by rw [← hs]
    simp only [aliveSession, hs, hsame]
  | some s =>
    have hdead : (b.inbox s).head? = some .eof ∨ (b.inbox s).head? = some .reset := by
      by_cases heof : (b.inbox s).head? = some .eof
      · exact .inl heof
      · by_cases hreset : (b.inbox s).head? = some .reset
        · exact .inr hreset
        · exact absurd ⟨s, hs, heof, hreset⟩ h
    obtain ⟨dialer, hset, hsent⟩ := setInbox_eq s (peek (b.inbox s)).2 b
    obtain ⟨closed, hclose, hkept, _⟩ := closeSession_eq { b with dialer }
    refine ⟨closed, ?_, hkept.trans hsent⟩
    simp only [aliveSession, hs]
    rcases peek_of_dead _ hdead with hfound | hfound
    · simp only [hfound, hset, hclose]
    · simp only [hfound, hset, hclose]

/-! ## The orders about TCP -/

def callLine (host number : Text) : Text :=
  "TCP:Connecting to ".toList ++ host ++ ':' :: number

theorem tcpConnect_eq (host : Text) (port : Int) (number : Text) (b : Board)
    (hnumber : Numeral.write? port = some number) :
    ∃ closed : Dialer, closed.nextPlan = b.dialer.nextPlan ∧
      closed.sockets.length = b.dialer.sockets.length ∧
      b.tcpConnect host port = dial host port
        { b with
          dialer := closed
          session := none
          output := b.output ++ Utf8.encodeLine (callLine host number) } := by
  obtain ⟨closed, hclose, _, hplans, hlength⟩ := closeSession_eq (b.printLine (callLine host number))
  refine ⟨closed, ?_, hlength, ?_⟩
  · rw [Dialer.nextPlan, hplans]
    rfl
  · rw [printLine_eq] at hclose
    simp only [tcpConnect, hnumber, printLine_eq]
    exact congrArg (dial host port) hclose

/-- A call ends the session at hand, and the session after it is the one its line says. -/
theorem tcpConnect_spec (host : Text) (port : Int) (number : Text) (b : Board)
    (hnumber : Numeral.write? port = some number) :
    (∃ socket dialer, b.dialer.nextPlan.usable? = some socket ∧ b.tcpConnect host port =
        ({ b with
            dialer
            session := some ⟨host, port, b.dialer.sockets.length⟩
            output := b.output ++ Utf8.encodeLines
              [callLine host number, "OK:TCP connected".toList] }, none) ∧
        dialer.sockets[b.dialer.sockets.length]? = some socket.unblock) ∨
    (∃ dialer, b.dialer.nextPlan.usable? = none ∧ b.dialer.nextPlan ≠ .fault ∧ b.tcpConnect host port =
        ({ b with
            dialer
            session := none
            output := b.output ++ Utf8.encodeLines
              [callLine host number, "ERROR:TCP connection failed".toList] }, none)) ∨
    (∃ dialer, b.dialer.nextPlan = .fault ∧ b.tcpConnect host port =
        ({ b with
            dialer
            session := none
            output := b.output ++ Utf8.encodeLines [callLine host number] }, some .dialFault)) := by
  have hlines (t u : Text) : b.output ++ Utf8.encodeLines [t, u] =
      b.output ++ Utf8.encodeLine t ++ Utf8.encodeLine u := by
    rw [Utf8.encodeLines_cons, Utf8.encodeLines_singleton, List.append_assoc]
  obtain ⟨closed, hnext, hplace, hrun⟩ := tcpConnect_eq host port number b hnumber
  have hdial := dial_spec host port
    { b with
      dialer := closed
      session := none
      output := b.output ++ Utf8.encodeLine (callLine host number) }
  rw [← hrun, hnext, hplace] at hdial
  rw [hlines, hlines, Utf8.encodeLines_singleton]
  rcases hdial with ⟨socket, dialer, husable, hdial, hsockets⟩ | hdial
  · refine .inl ⟨socket, dialer, husable, hdial, ?_⟩
    rw [hsockets, ← hplace]
    exact List.getElem?_concat_length
  · exact .inr hdial

/-- The verdict of a call, by the plan of the dialer; a fault cuts it off. -/
def callVerdict (plan : Plan) : List Text :=
  if plan = .fault then []
  else if plan.usable?.isSome then ["OK:TCP connected".toList]
  else ["ERROR:TCP connection failed".toList]

/-- What a call prints and whether it crashes depend on nothing but the plan of the dialer. -/
theorem output_tcpConnect (host : Text) (port : Int) (number : Text) (b : Board)
    (hnumber : Numeral.write? port = some number) :
    (b.tcpConnect host port).1.output =
        b.output ++ Utf8.encodeLines (callLine host number :: callVerdict b.dialer.nextPlan) ∧
      (b.tcpConnect host port).2 = if b.dialer.nextPlan = .fault then some .dialFault else none := by
  rcases tcpConnect_spec host port number b hnumber with
    ⟨socket, _, husable, hspec, _⟩ | ⟨_, husable, hfault, hspec⟩ | ⟨_, hfault, hspec⟩
  · have hfault : b.dialer.nextPlan ≠ .fault := by
      rw [Plan.eq_answer_of_usable? husable]
      exact Plan.noConfusion
    rw [hspec, callVerdict, if_neg hfault, if_neg hfault, husable]
    exact ⟨rfl, rfl⟩
  · rw [hspec, callVerdict, if_neg hfault, if_neg hfault, husable]
    exact ⟨rfl, rfl⟩
  · rw [hspec, callVerdict, if_pos hfault, if_pos hfault]
    exact ⟨rfl, rfl⟩

/-- What has gone out when the socket of the session fails to send data: as much as that socket gets
through, and never the whole. -/
def PartSent (b : Board) (data : Bytes) (sent : List Bytes) : Prop :=
  ∃ s socket, b.session = some s ∧ b.dialer.sockets[s.socket]? = some socket ∧
    socket.failsSend = true ∧
    sent = b.dialer.sent.modify s.socket (· ++ data.dropLast.take socket.partialSend)

theorem tcpSend_of_live (data : Text) (b : Board) (h : b.Live) :
    ∃ s dialer, b.session = some s ∧
      dialer.sent = (b.dialer.modify s.socket (Socket.send (Utf8.encode data))).sent ∧
      b.tcpSend data =
        if (b.dialer.sockets[s.socket]?.map Socket.failsSend).getD true then
          { b with dialer }.closeSession.printLine "ERROR:Not connected".toList
        else { b with dialer }.printLine "OK:Data sent".toList := by
  obtain ⟨s, inbox, hs, halive⟩ := aliveSession_of_live b h
  refine ⟨s, _, hs, sent_setInbox_send s inbox _ b, ?_⟩
  simp only [tcpSend, halive]
  rw [failsSend_setInbox]
  rfl

theorem tcpSend_spec (data : Text) (b : Board) :
    (∃ s dialer, b.session = some s ∧ b.tcpSend data =
        { b with dialer, output := b.output ++ Utf8.encodeLines ["OK:Data sent".toList] } ∧
        dialer.sent = b.dialer.sent.modify s.socket (· ++ Utf8.encode data)) ∨
    (∃ dialer, b.tcpSend data =
        { b with
          dialer
          session := none
          output := b.output ++ Utf8.encodeLines ["ERROR:Not connected".toList] } ∧
        (dialer.sent = b.dialer.sent ∨ b.PartSent (Utf8.encode data) dialer.sent)) := by
  rw [Utf8.encodeLines_singleton, Utf8.encodeLines_singleton]
  by_cases hlive : b.Live
  · obtain ⟨s, dialer, hs, hsent, hrun⟩ := tcpSend_of_live data b hlive
    obtain ⟨closed, hclose, hkept, _⟩ := closeSession_eq { b with dialer }
    cases hsocket : b.dialer.sockets[s.socket]? with
    | none =>
      have hidle : b.dialer.modify s.socket (Socket.send (Utf8.encode data)) = b.dialer := by
        rw [Dialer.modify, List.modify_eq_self (List.getElem?_eq_none_iff.mp hsocket)]
      refine .inr ⟨closed, ?_, .inl ?_⟩
      · simp only [hrun, hsocket, Option.map_none, Option.getD_none, if_true, hclose, printLine_eq]
      · rw [hkept, hsent, hidle]
    | some socket =>
      rw [Dialer.sent_modify_send _ _ _ hsocket] at hsent
      cases hfails : socket.failsSend with
      | true =>
        rw [Socket.delivered_of_failing hfails] at hsent
        refine .inr ⟨closed, ?_, .inr ⟨s, socket, hs, hsocket, hfails, hkept.trans hsent⟩⟩
        simp only [hrun, hsocket, Option.map_some, hfails, Option.getD_some, if_true, hclose,
          printLine_eq]
      | false =>
        rw [Socket.delivered_of_working hfails] at hsent
        refine .inl ⟨s, dialer, hs, ?_, hsent⟩
        simp only [hrun, hsocket, Option.map_some, hfails, Option.getD_some, Bool.false_eq_true,
          if_false, printLine_eq]
  · obtain ⟨dialer, halive, hsent⟩ := aliveSession_of_not_live b hlive
    refine .inr ⟨dialer, ?_, .inl hsent⟩
    simp only [tcpSend, halive, printLine_eq]

theorem tcpClose_spec (b : Board) :
    (∃ dialer, b.Live ∧ b.tcpClose =
        { b with
          dialer
          session := none
          output := b.output ++ Utf8.encodeLines ["OK:TCP connection closed".toList] }) ∨
    (∃ dialer, ¬ b.Live ∧ b.tcpClose =
        { b with
          dialer
          session := none
          output := b.output ++ Utf8.encodeLines ["ERROR:No active TCP connection".toList] }) := by
  rw [Utf8.encodeLines_singleton, Utf8.encodeLines_singleton]
  by_cases hlive : b.Live
  · obtain ⟨s, inbox, _, halive⟩ := aliveSession_of_live b hlive
    obtain ⟨closed, hclose, _⟩ := closeSession_eq (b.setInbox s inbox)
    refine .inl ⟨closed, hlive, ?_⟩
    simp only [tcpClose, halive, hclose, printLine_eq]
    rfl
  · obtain ⟨dialer, halive, _⟩ := aliveSession_of_not_live b hlive
    refine .inr ⟨dialer, hlive, ?_⟩
    simp only [tcpClose, halive, printLine_eq]

/-- What is forwarded is one text, the data that has come in; and nothing without a session. -/
theorem forward_spec (b : Board) :
    ∃ dialer session texts, b.forward =
        { b with dialer, session, output := b.output ++ Utf8.encodeLines texts } ∧
      dialer.plans = b.dialer.plans ∧
      (∀ t ∈ texts, ∃ s, t = Mark.tcpData ++ Utf8.decode (drain (b.inbox s)).1) ∧
      (b.session = none → dialer = b.dialer ∧ session = none ∧ texts = []) := by
  cases hs : b.session with
  | none =>
    have hsame : { b with session := none } = b := by rw [← hs]
    refine ⟨b.dialer, none, [], ?_, rfl, by simp, fun _ => ⟨rfl, rfl, rfl⟩⟩
    rw [Utf8.encodeLines, List.flatMap_nil, List.append_nil]
    simp only [forward, hs, hsame]
  | some s =>
    have hsome : ¬ some s = none := Option.some_ne_none s
    have hprinted : ∃ texts, (if (drain (b.inbox s)).1 = [] then b.setInbox s (drain (b.inbox s)).2.2
        else (b.setInbox s (drain (b.inbox s)).2.2).printLine
          (Mark.tcpData ++ Utf8.decode (drain (b.inbox s)).1)) =
        { b.setInbox s (drain (b.inbox s)).2.2 with output := b.output ++ Utf8.encodeLines texts } ∧
        ∀ t ∈ texts, ∃ s, t = Mark.tcpData ++ Utf8.decode (drain (b.inbox s)).1 := by
      split
      · exact ⟨[], by simp [setInbox, Utf8.encodeLines], by simp⟩
      · exact ⟨[_], by rw [printLine_eq, Utf8.encodeLines_singleton]; rfl,
          List.forall_mem_singleton.mpr ⟨s, rfl⟩⟩
    obtain ⟨texts, hprinted, hdata⟩ := hprinted
    simp only [forward, hs, hprinted]
    split
    · obtain ⟨closed, hclose, _, hplans, _⟩ := closeSession_eq
        { b.setInbox s (drain (b.inbox s)).2.2 with output := b.output ++ Utf8.encodeLines texts }
      exact ⟨closed, none, texts, hclose, hplans, hdata, fun hnone => absurd hnone hsome⟩
    · exact ⟨_, b.session, texts, rfl, rfl, hdata, fun hnone => absurd hnone hsome⟩

end StationLink.Board
