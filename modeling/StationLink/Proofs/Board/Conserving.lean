import StationLink.Proofs.Board.Carrying
import StationLink.Proofs.Board.Placing

/-!
# Inbound bytes are conserved

Forwarding takes the data before the first other event of the session's inbox, however it is cut into
chunks, and prints it in one line. Orders take nothing. So what the turns have taken and what still
waits is what the remote peer has sent, in order.
-/

namespace StationLink.Board

open Text Protocol

def PeerEvent.isData : PeerEvent → Bool
  | .data _ _ => true
  | _ => false

def inboxBytes (inbox : List PeerEvent) : Bytes :=
  inbox.flatMap PeerEvent.bytes

/-- The data before the first other event. -/
def leadingData (inbox : List PeerEvent) : Bytes :=
  inboxBytes (inbox.takeWhile PeerEvent.isData)

def afterData (inbox : List PeerEvent) : List PeerEvent :=
  inbox.dropWhile PeerEvent.isData

/-- The first event that is not data is the end of the stream or a reset. -/
def IsOver (inbox : List PeerEvent) : Prop :=
  (afterData inbox).head? = some .eof ∨ (afterData inbox).head? = some .reset

instance (inbox : List PeerEvent) : Decidable (IsOver inbox) := by
  unfold IsOver
  infer_instance

/-- The same inbox but for how the data before the first other event is cut into chunks. -/
structure Rechunked (inbox inbox' : List PeerEvent) : Prop where
  data : leadingData inbox' = leadingData inbox
  rest : afterData inbox' = afterData inbox

theorem inboxBytes_append (inbox more : List PeerEvent) :
    inboxBytes (inbox ++ more) = inboxBytes inbox ++ inboxBytes more :=
  List.flatMap_append

theorem flatten_chunks (inbox : List PeerEvent) : (chunks inbox).flatten = inboxBytes inbox := by
  rw [chunks, List.flatten_filter_ne_nil, inboxBytes, List.flatMap_def]

theorem inboxBytes_peek (inbox : List PeerEvent) : inboxBytes (peek inbox).2 = inboxBytes inbox := by
  rw [← flatten_chunks, chunks_peek, flatten_chunks]

/-- Draining goes through the data chunk by chunk and stops at the first other event. -/
theorem drain_eq (inbox : List PeerEvent) :
    drain inbox = (leadingData inbox, (drain (afterData inbox)).2) := by
  induction inbox with
  | nil => simp [leadingData, afterData, inboxBytes, drain, receive]
  | cons e inbox ih =>
    cases e with
    | data b bs =>
      rw [drain_data, ih]
      rfl
    | _ => simp [leadingData, afterData, inboxBytes, PeerEvent.isData, drain, receive]

theorem drain_ended (inbox : List PeerEvent) : (drain inbox).2.1 = true ↔ IsOver inbox := by
  induction inbox with
  | nil => simp [IsOver, afterData, drain, receive]
  | cons e inbox ih =>
    cases e with
    | data b bs =>
      rw [drain_data]
      exact ih
    | _ => simp [IsOver, afterData, PeerEvent.isData, drain, receive]

theorem drain_conserves (inbox : List PeerEvent) :
    inboxBytes inbox = leadingData inbox ++ inboxBytes (drain inbox).2.2 := by
  obtain ⟨taken, hbytes, hchunks⟩ := drain_chunks inbox
  have hleading : leadingData inbox = taken.flatten := by rw [← hbytes, drain_eq]
  rw [hleading, ← flatten_chunks, hchunks, List.flatten_append, flatten_chunks]

theorem Rechunked.drain {inbox inbox' : List PeerEvent} (h : Rechunked inbox inbox') :
    drain inbox' = drain inbox := by
  rw [drain_eq inbox', drain_eq inbox, h.data, h.rest]

/-! ## What waits at a place -/

def Dialer.inboxAt (d : Dialer) (place : Nat) : List PeerEvent :=
  (d.sockets[place]?.map Socket.inbox).getD []

def waiting (place : Nat) (b : Board) : Bytes :=
  inboxBytes (b.dialer.inboxAt place)

theorem Dialer.inboxAt_modify (d : Dialer) (i place : Nat) (f : Socket → Socket)
    (hf : ∀ socket, d.sockets[i]? = some socket → i = place →
      inboxBytes (f socket).inbox = inboxBytes socket.inbox) :
    inboxBytes ((d.modify i f).inboxAt place) = inboxBytes (d.inboxAt place) := by
  simp only [inboxAt, modify, List.getElem?_modify]
  cases hsocket : d.sockets[place]? with
  | none => rfl
  | some socket =>
    by_cases hi : i = place
    · subst hi
      simpa using hf socket hsocket rfl
    · simp [hi]

/-- A socket at the place, with these bytes in its inbox. -/
structure Keeps (place : Nat) (bytes : Bytes) (b : Board) : Prop where
  placed : place < b.dialer.sockets.length
  waiting : b.waiting place = bytes

namespace Keeps

variable {place : Nat} {bytes : Bytes} {b b' : Board}

theorem of_eq (h : Keeps place bytes b) (hdialer : b'.dialer = b.dialer) : Keeps place bytes b' := by
  refine ⟨hdialer ▸ h.placed, ?_⟩
  rw [Board.waiting, hdialer]
  exact h.waiting

theorem modify (h : Keeps place bytes b) (i : Nat) (f : Socket → Socket)
    (hf : ∀ socket, b.dialer.sockets[i]? = some socket → i = place →
      inboxBytes (f socket).inbox = inboxBytes socket.inbox) :
    Keeps place bytes { b with dialer := b.dialer.modify i f } := by
  constructor
  · rw [length_sockets_modify]
    exact h.placed
  · exact (b.dialer.inboxAt_modify i place f hf).trans h.waiting

theorem closeSession (h : Keeps place bytes b) : Keeps place bytes b.closeSession := by
  simp only [Board.closeSession]
  split
  · exact h
  · rename_i s _
    exact (h.modify s.socket Socket.close fun _ _ _ => rfl).of_eq rfl

theorem peeked (h : Keeps place bytes b) (s : Session) :
    Keeps place bytes (b.setInbox s (peek (b.inbox s)).2) := by
  apply h.modify
  intro socket hsocket _
  have hinbox : b.inbox s = socket.inbox := by simp [Board.inbox, hsocket]
  rw [hinbox, inboxBytes_peek]

theorem sent (h : Keeps place bytes b) (s : Session) (data : Bytes) :
    Keeps place bytes { b with dialer := b.dialer.modify s.socket (Socket.send data) } :=
  h.modify _ _ fun _ _ _ => rfl

theorem abiding (place : Nat) (bytes : Bytes) : Abiding (Keeps place bytes) where
  of_eq h hdialer _ := h.of_eq hdialer
  peeked s h := h.peeked s
  sent s data h := h.sent s data
  closed h := h.closeSession

theorem dial (h : Keeps place bytes b) (host : Text) (port : Int) :
    Keeps place bytes (b.dial host port).1 := by
  have hplaced := h.placed
  simp only [Board.dial, Dialer.dial]
  cases b.dialer.nextPlan with
  | refuse => exact ⟨hplaced, h.waiting⟩
  | fault => exact ⟨hplaced, h.waiting⟩
  | answer socket =>
    -- The new socket stands behind the others, so it is not the one at the place.
    have hnew : Keeps place bytes
        { b with dialer := { b.dialer with sockets := b.dialer.sockets ++ [socket] } } := by
      constructor
      · rw [List.length_append]
        omega
      · rw [← h.waiting]
        simp only [Board.waiting, Dialer.inboxAt, List.getElem?_append_left hplaced]
    have hfree := hnew.modify b.dialer.sockets.length Socket.unblock (by
      intro _ _ hplace
      omega)
    dsimp only
    split
    · exact ⟨hfree.placed, hfree.waiting⟩
    · exact ⟨hfree.placed, hfree.waiting⟩

theorem execute (h : Keeps place bytes b) (o : Order) : Keeps place bytes (b.execute o).1 :=
  (abiding place bytes).execute (fun _ host port hb _ => hb.dial host port) h o

theorem served (h : Keeps place bytes b) : Keeps place bytes b.served :=
  (abiding place bytes).executeAll (fun _ host port hb _ => hb.dial host port)
    (h.of_eq rfl : Keeps place bytes { b with input := (frame b.input).2 }) _

end Keeps

/-! ## Forwarding -/

/-- What is gone from the head of an inbox between two boards. -/
def consumed (place : Nat) (b b' : Board) : Bytes :=
  (b.waiting place).take ((b.waiting place).length - (b'.waiting place).length)

theorem consumed_eq {place : Nat} {b b' : Board} {taken : Bytes}
    (h : b.waiting place = taken ++ b'.waiting place) : consumed place b b' = taken := by
  rw [consumed, h, List.length_append, Nat.add_sub_cancel, List.take_left]

def dataLine (taken : Bytes) : List Text :=
  if taken = [] then [] else [Mark.tcpData ++ Utf8.decode taken]

/-- Forwarding takes the data before the first other event, prints it in one line, and ends the
session if that event is the end of the stream or a reset; the cut into chunks makes no difference. -/
structure Forwards (s : Session) (b : Board) : Prop where
  conserved : b.waiting s.socket = consumed s.socket b b.forward ++ b.forward.waiting s.socket
  taken : consumed s.socket b b.forward = leadingData (b.inbox s)
  output : b.forward.output =
    b.output ++ Utf8.encodeLines (dataLine (consumed s.socket b b.forward))
  session : b.forward.session = if IsOver (b.inbox s) then none else some s
  rechunked : ∀ inbox, Rechunked (b.inbox s) inbox → (b.setInbox s inbox).forward = b.forward

section

variable {place : Nat} {bytes : Bytes} {b : Board} {s : Session}

theorem Keeps.forward_of_drained (hs : b.session = some s)
    (h : Keeps place bytes (b.setInbox s (drain (b.inbox s)).2.2)) :
    Keeps place bytes b.forward := by
  have hprinted : Keeps place bytes (if (drain (b.inbox s)).1 = [] then
      b.setInbox s (drain (b.inbox s)).2.2
      else (b.setInbox s (drain (b.inbox s)).2.2).printLine
        (Mark.tcpData ++ Utf8.decode (drain (b.inbox s)).1)) := by
    split
    · exact h
    · exact h.of_eq rfl
  simp only [Board.forward, hs]
  split
  · exact hprinted.closeSession
  · exact hprinted

theorem Keeps.forward_aside (h : Keeps place bytes b)
    (hother : ∀ s, b.session = some s → s.socket ≠ place) : Keeps place bytes b.forward := by
  cases hs : b.session with
  | none => simpa only [Board.forward, hs] using h
  | some s =>
    apply Keeps.forward_of_drained hs
    apply h.modify
    intro _ _ hplace
    exact absurd hplace (hother s hs)

theorem waiting_forward (hs : b.session = some s) (hplaced : s.socket < b.dialer.sockets.length) :
    b.waiting s.socket = leadingData (b.inbox s) ++ b.forward.waiting s.socket := by
  have hdrained : Keeps s.socket (inboxBytes (drain (b.inbox s)).2.2)
      (b.setInbox s (drain (b.inbox s)).2.2) := by
    constructor
    · rw [Board.setInbox, length_sockets_modify]
      exact hplaced
    · exact congrArg inboxBytes (inbox_setInbox b s _ hplaced)
  rw [(Keeps.forward_of_drained hs hdrained).waiting]
  exact drain_conserves (b.inbox s)

theorem setInbox_setInbox (b : Board) (s : Session) (inbox inbox' : List PeerEvent) :
    (b.setInbox s inbox).setInbox s inbox' = b.setInbox s inbox' := by
  simp only [setInbox, Dialer.modify, List.modify_modify_eq]
  rfl

theorem forward_rechunked (hs : b.session = some s) (hplaced : s.socket < b.dialer.sockets.length)
    {inbox : List PeerEvent} (h : Rechunked (b.inbox s) inbox) :
    (b.setInbox s inbox).forward = b.forward := by
  have hsession : (b.setInbox s inbox).session = some s := hs
  simp only [forward, hs, hsession, inbox_setInbox b s inbox hplaced, h.drain, setInbox_setInbox]

theorem output_forward_eq (hs : b.session = some s) :
    b.forward.output = b.output ++ Utf8.encodeLines (dataLine (drain (b.inbox s)).1) := by
  have hprinted : (if (drain (b.inbox s)).1 = [] then b.setInbox s (drain (b.inbox s)).2.2
      else (b.setInbox s (drain (b.inbox s)).2.2).printLine
        (Mark.tcpData ++ Utf8.decode (drain (b.inbox s)).1)).output =
      b.output ++ Utf8.encodeLines (dataLine (drain (b.inbox s)).1) := by
    rw [dataLine]
    split
    · exact (List.append_nil _).symm
    · rw [printLine_eq, Utf8.encodeLines_singleton]
      rfl
  simp only [forward, hs]
  split
  · rw [output_closeSession]
    exact hprinted
  · exact hprinted

theorem session_forward_eq (hs : b.session = some s) :
    b.forward.session = if IsOver (b.inbox s) then none else some s := by
  simp only [forward, hs, drain_ended]
  split
  · exact session_closeSession _
  · split
    · exact hs
    · exact hs

theorem forwards (hs : b.session = some s) (hplaced : s.socket < b.dialer.sockets.length) :
    Forwards s b := by
  have hconserved := waiting_forward hs hplaced
  have htaken : consumed s.socket b b.forward = leadingData (b.inbox s) := consumed_eq hconserved
  constructor
  · rw [htaken]
    exact hconserved
  · exact htaken
  · rw [htaken, output_forward_eq hs, drain_eq]
  · exact session_forward_eq hs
  · intro inbox h
    exact forward_rechunked hs hplaced h

end

/-! ## Turns -/

theorem turn_reached {b : Board} (h : b.turn.2 = none) : b.turn.1 = b.served.forward.rest idleRest := by
  simp only [turn, served] at h ⊢
  generalize executeAll _ _ = run at h ⊢
  rcases run with ⟨b', _ | crash⟩
  · rfl
  · cases h

theorem turn_unreached {b : Board} (h : b.turn.2 ≠ none) : b.turn.1 = b.served := by
  simp only [turn, served] at h ⊢
  generalize executeAll _ _ = run at h ⊢
  rcases run with ⟨b', _ | crash⟩
  · exact absurd rfl h
  · rfl

theorem Follows.served (b : Board) : Follows b b.served :=
  (Follows.of_eq rfl rfl : Follows b { b with input := (frame b.input).2 }).trans (.executeAll _ _)

theorem Placed.served {b : Board} (h : b.Placed) : b.served.Placed :=
  Placed.enduring.executeAll (fun _ host port _ hsession => Placed.dial hsession host port)
    (h.of_eq rfl rfl : Placed { b with input := (frame b.input).2 }) _

/-- The socket of a session that is, or has been, in use; a session of another kind has a later
socket. -/
structure Owned (s : Session) (b : Board) : Prop where
  placed : s.socket < b.dialer.sockets.length
  alone : ∀ t, b.session = some t → t = s ∨ s.socket < t.socket

theorem Owned.of_session {s : Session} {b : Board} (h : b.Placed) (hs : b.session = some s) :
    Owned s b := by
  refine ⟨h s hs, ?_⟩
  intro t ht
  exact .inl (Option.some.inj (ht.symm.trans hs))

theorem Owned.follow {s : Session} {b b' : Board} (h : Owned s b) (hfollows : Follows b b') :
    Owned s b' := by
  have hplaced := h.placed
  constructor
  · exact Nat.lt_of_lt_of_le hplaced hfollows.sockets
  · intro t ht
    rcases hfollows.session t ht with hold | hnew
    · exact h.alone t hold
    · exact .inr (by omega)

/-- What a turn does with the inbox of a session. Its orders take nothing; then whatever session is at
hand is forwarded. -/
structure Polls (s : Session) (b : Board) : Prop where
  orders : b.served.waiting s.socket = b.waiting s.socket
  reached : b.turn.2 = none → b.turn.1 = b.served.forward.rest idleRest
  forwards : ∀ t, b.served.session = some t → Forwards t b.served
  intake : consumed s.socket b b.turn.1 =
    if b.turn.2 = none ∧ b.served.session = some s then leadingData (b.served.inbox s) else []
  conserved : b.waiting s.socket = consumed s.socket b b.turn.1 ++ b.turn.1.waiting s.socket

theorem polls {s : Session} {b : Board} (hplaced : b.Placed) (howned : Owned s b) : Polls s b := by
  have hkeeps : Keeps s.socket (b.waiting s.socket) b.served := (Keeps.mk howned.placed rfl).served
  have hserved : Owned s b.served := howned.follow (.served b)
  have hturn : b.waiting s.socket =
      (if b.turn.2 = none ∧ b.served.session = some s then leadingData (b.served.inbox s) else []) ++
        b.turn.1.waiting s.socket := by
    by_cases hcrash : b.turn.2 = none
    · rw [turn_reached hcrash]
      by_cases hs : b.served.session = some s
      · rw [if_pos ⟨hcrash, hs⟩, ← hkeeps.waiting]
        exact waiting_forward hs hserved.placed
      · rw [if_neg (fun h => hs h.2)]
        -- Another session has another socket.
        have haside := hkeeps.forward_aside fun t ht hplace => by
          rcases hserved.alone t ht with rfl | hlater
          · exact hs ht
          · omega
        exact haside.waiting.symm
    · rw [turn_unreached hcrash, if_neg fun h => hcrash h.1]
      exact hkeeps.waiting.symm
  have hintake := consumed_eq hturn
  constructor
  · exact hkeeps.waiting
  · exact turn_reached
  · intro t ht
    exact Board.forwards ht (hplaced.served t ht)
  · exact hintake
  · rw [hintake]
    exact hturn

/-! ## Along a history -/

/-- What an occurrence puts into the inbox at this place. -/
def Occurrence.brought (place : Nat) : Occurrence → Bytes
  | .deliver i events => if i = place then inboxBytes events else []
  | _ => []

def intakes (place : Nat) (b : Board) : List Occurrence → List Bytes
  | [] => []
  | o :: run => consumed place b (o.befall b) :: intakes place (o.befall b) run

theorem waiting_deliver {place : Nat} {b : Board} (hplaced : place < b.dialer.sockets.length) (i : Nat)
    (events : List PeerEvent) :
    ((Occurrence.deliver i events).befall b).waiting place =
      b.waiting place ++ (Occurrence.deliver i events).brought place := by
  have hsocket : b.dialer.sockets[place]? = some b.dialer.sockets[place] := List.getElem?_eq_getElem hplaced
  simp only [waiting, Occurrence.befall, Dialer.inboxAt, Dialer.modify, List.getElem?_modify, hsocket,
    Occurrence.brought]
  by_cases hi : i = place
  · simp [hi, Socket.deliver, inboxBytes_append]
  · simp [hi]

theorem waiting_befall {place : Nat} {b : Board} (hplaced : place < b.dialer.sockets.length)
    (o : Occurrence) (ho : o ≠ .poll) :
    (o.befall b).waiting place = b.waiting place ++ o.brought place := by
  have hkeeps : Keeps place (b.waiting place) b := ⟨hplaced, rfl⟩
  have hkept {b' : Board} (h : Keeps place (b.waiting place) b') :
      b'.waiting place = b.waiting place ++ [] := by
    rw [h.waiting, List.append_nil]
  cases o with
  | poll => exact absurd rfl ho
  | deliver i events => exact waiting_deliver hplaced i events
  | feed bytes => exact hkept (hkeeps.of_eq rfl)
  | order text => exact hkept (hkeeps.execute _)
  | read => exact hkept (hkeeps.of_eq rfl)
  | reset => exact hkept (hkeeps.closeSession.of_eq rfl)
  | failSends i fails => exact hkept (hkeeps.modify i _ fun _ _ _ => rfl)
  | dropRadio => exact hkept (hkeeps.of_eq rfl)

theorem consumed_of_grown {place : Nat} {b b' : Board} {more : Bytes}
    (h : b'.waiting place = b.waiting place ++ more) : consumed place b b' = [] := by
  rw [consumed, h, List.length_append, Nat.sub_eq_zero_of_le (Nat.le_add_right _ _), List.take_zero]

theorem waiting_account {s : Session} {b : Board} (hplaced : b.Placed) (howned : Owned s b)
    (o : Occurrence) :
    consumed s.socket b (o.befall b) ++ (o.befall b).waiting s.socket =
      b.waiting s.socket ++ o.brought s.socket := by
  by_cases ho : o = .poll
  · subst ho
    exact (polls hplaced howned).conserved.symm.trans (List.append_nil _).symm
  · have hgrown := waiting_befall howned.placed o ho
    rw [consumed_of_grown hgrown, hgrown, List.nil_append]

theorem intakes_account {s : Session} {b : Board} (hplaced : b.Placed) (howned : Owned s b)
    (run : List Occurrence) :
    (intakes s.socket b run).flatten ++ (b.befallen run).waiting s.socket =
      b.waiting s.socket ++ run.flatMap (Occurrence.brought s.socket) := by
  induction run generalizing b with
  | nil => exact (List.append_nil _).symm
  | cons o run ih =>
    have hstep := waiting_account hplaced howned o
    have hfollows : Follows b (o.befall b) := (Follows.enduring b).befall (.of_eq rfl rfl) o
    have hrest := ih (Placed.enduring.befall hplaced o) (howned.follow hfollows)
    calc (intakes s.socket b (o :: run)).flatten ++ (b.befallen (o :: run)).waiting s.socket
        = consumed s.socket b (o.befall b) ++
            ((intakes s.socket (o.befall b) run).flatten ++
              ((o.befall b).befallen run).waiting s.socket) := List.append_assoc _ _ _
      _ = consumed s.socket b (o.befall b) ++ (o.befall b).waiting s.socket ++
            run.flatMap (Occurrence.brought s.socket) := by rw [hrest, List.append_assoc]
      _ = b.waiting s.socket ++ (o :: run).flatMap (Occurrence.brought s.socket) := by
          rw [hstep, List.append_assoc, List.flatMap_cons]

/-- Of a session that was at hand before the run, whatever is delivered and ordered in it. -/
structure Conserved (s : Session) (b : Board) (run : List Occurrence) : Prop where
  account : (intakes s.socket b run).flatten ++ (b.befallen run).waiting s.socket =
    b.waiting s.socket ++ run.flatMap (Occurrence.brought s.socket)
  spared : ∀ o : Occurrence, o ≠ .poll →
    consumed s.socket (b.befallen run) (o.befall (b.befallen run)) = []
  polls : Polls s (b.befallen run)

theorem inbound_bytes_conserved (networks : List Network) (plans : List Plan) (past run : List Occurrence)
    (s : Session) (hs : ((boot networks plans).befallen past).session = some s) :
    Conserved s ((boot networks plans).befallen past) run := by
  have hplaced := placed_befallen networks plans past
  have howned := Owned.of_session hplaced hs
  have hrun : Owned s (((boot networks plans).befallen past).befallen run) := howned.follow (.befallen _ run)
  constructor
  · exact intakes_account hplaced howned run
  · intro o ho
    exact consumed_of_grown (waiting_befall hrun.placed o ho)
  · exact Board.polls (Placed.enduring.befallen hplaced run) hrun

/-- A session whose peer has sent two chunks, then blocks, and goes on. -/
def halting : List Plan :=
  [.answer { inbox := [.data 0x61 [0x62], .data 0x63 [], .block, .data 0x64 [], .interrupt] }]

def trickle : List Occurrence :=
  [.poll, .order "TCPSEND:x".toList, .feed (Utf8.encode "TCPCLOSE:\nTCPSEND:y\n".toList), .poll,
    .deliver 0 [.data 0x65 [0x66], .eof], .poll]

theorem inbound_bytes_conserved_of_halting :
    ((boot [] halting).befallen [.order "TCPCONNECT:a:1".toList]).session = some ⟨"a".toList, 1, 0⟩ ∧
      intakes 0 ((boot [] halting).befallen [.order "TCPCONNECT:a:1".toList]) trickle =
        [[0x61, 0x62, 0x63], [], [], [0x64], [], [0x65, 0x66]] ∧
      Conserved ⟨"a".toList, 1, 0⟩ ((boot [] halting).befallen [.order "TCPCONNECT:a:1".toList])
        trickle := by
  have hs : ((boot [] halting).befallen [.order "TCPCONNECT:a:1".toList]).session =
      some ⟨"a".toList, 1, 0⟩ := by decide +kernel
  refine ⟨hs, by decide +kernel, ?_⟩
  exact inbound_bytes_conserved [] halting [.order "TCPCONNECT:a:1".toList] trickle ⟨"a".toList, 1, 0⟩ hs

end StationLink.Board
