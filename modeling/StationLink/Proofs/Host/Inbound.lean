import StationLink.Proofs.Board.Inflow
import StationLink.Proofs.Host.Truth
import StationLink.Proofs.Host.Windows
import StationLink.Proofs.Serial.Conservation

/-!
# Inbound data on its way to the host

The data of a session is forwarded in groups of chunks, one group in each turn that finds any. An
account is kept of all groups: their payloads have been taken from the host, wait in it, have been heard
in the window at hand, or wait on the link.
-/

namespace StationLink.Host

open Serial Text Protocol Board Channel

variable {τ : Type}

/-- What a reader has of the chunks that one turn has forwarded. -/
def payload (group : List Bytes) : Text :=
  trimEnd (Utf8.decode group.flatten)

theorem payloads_dataLines (taken : List Bytes) :
    payloads (shown (dataLines taken)) = ([taken].filter (· ≠ [])).map payload := by
  by_cases htaken : taken = []
  · rw [dataLines, if_pos htaken, htaken]
    rfl
  · rw [dataLines, if_neg htaken, payloads_data]
    simp [htaken, payload]

/-- Bytes that end after a character, and not after a blank one. -/
def Settled (bytes : Bytes) : Prop :=
  ∃ t, bytes = Utf8.encode t ∧ trimEnd t = t

namespace Settled

theorem append {bytes more : Bytes} (h : Settled bytes) (h' : Settled more) : Settled (bytes ++ more) := by
  obtain ⟨t, rfl, ht⟩ := h
  obtain ⟨u, rfl, hu⟩ := h'
  refine ⟨t ++ u, (Utf8.encode_append t u).symm, ?_⟩
  rcases List.eq_nil_or_concat u with rfl | ⟨start, c, rfl⟩
  · rw [List.append_nil]
    exact ht
  · rw [List.concat_eq_append] at hu ⊢
    cases hc : isBlank c with
    | false => rw [← List.append_assoc, trimEnd_append_of_not_blank _ c hc]
    | true =>
      -- A text that is its own trimming does not end in a blank.
      rw [trimEnd_append_blank start c hc] at hu
      have hshort := (trimEnd_isPrefix start).length_le
      rw [hu, List.length_append] at hshort
      exact absurd hshort (Nat.not_succ_le_self _)

theorem flatten {group : List Bytes} (h : ∀ chunk ∈ group, Settled chunk) : Settled group.flatten := by
  induction group with
  | nil => exact ⟨[], rfl, rfl⟩
  | cons chunk group ih =>
    rw [List.flatten_cons]
    exact (h chunk List.mem_cons_self).append (ih fun c hc => h c (List.mem_cons_of_mem chunk hc))

theorem encode_payload {group : List Bytes} (h : Settled group.flatten) :
    Utf8.encode (payload group) = group.flatten := by
  obtain ⟨t, ht, htrim⟩ := h
  rw [payload, ht, Utf8.decode_encode, htrim]

theorem flatten_payloads {groups : List (List Bytes)} {text : Text}
    (h : ∀ group ∈ groups, Settled group.flatten)
    (htext : groups.flatten.flatten = Utf8.encode text) : (groups.map payload).flatten = text := by
  have hbytes : Utf8.encode (groups.map payload).flatten = groups.flatten.flatten := by
    clear htext
    induction groups with
    | nil => rfl
    | cons group groups ih =>
      rw [List.map_cons, List.flatten_cons, Utf8.encode_append,
        (h group List.mem_cons_self).encode_payload,
        ih fun g hg => h g (List.mem_cons_of_mem group hg), List.flatten_cons, List.flatten_append]
  rw [← Utf8.decode_encode (groups.map payload).flatten, hbytes, htext, Utf8.decode_encode]

end Settled

/-- The chunks that have been forwarded, in groups, and those that wait in the inbox of the session are
all that have been sent; these texts are the payloads of the groups. -/
structure Accounted (s : Session) (sent : List Bytes) (texts : List Text) (b : Board) : Prop where
  inbox : InboxPlain (b.inbox s)
  groups : ∃ groups : List (List Bytes), (∀ group ∈ groups, group ≠ []) ∧
    groups.flatten ++ chunks (b.inbox s) = sent ∧ texts = groups.map payload

/-- A host of a session, in a window that has heard some lines. Once the session is lost the account is
given up. -/
structure Tuned (s : Session) (sent : List Bytes) (got heard : List Text) (h : Host (WiredLine τ)) :
    Prop where
  held : h.held = true
  ready : h.line.Ready
  pending : h.pending = []
  radio : h.line.board.radio.Plain
  placed : s.socket < h.line.board.dialer.sockets.length
  account : ∃ left, h.line.Holds left ∧ (h.line.board.session = some s →
    Accounted s sent (got ++ (h.inbox ++ payloads (heard ++ shown left))) h.line.board)

namespace Accounted

variable {s : Session} {sent : List Bytes} {texts : List Text} {b b' : Board}

theorem of_eq (ha : Accounted s sent texts b) (hinbox : b'.inbox s = b.inbox s) :
    Accounted s sent texts b' := by
  obtain ⟨hplain, hgroups⟩ := ha
  rw [← hinbox] at hplain hgroups
  exact ⟨hplain, hgroups⟩

theorem forward {taken : List Bytes} (ha : Accounted s sent texts b) (hf : Forwarded s b b' taken) :
    Accounted s sent (texts ++ payloads (shown (dataLines taken))) b' := by
  obtain ⟨groups, hne, hsent, rfl⟩ := ha.groups
  refine ⟨hf.receiving.inbox, groups ++ [taken].filter (· ≠ []), ?_, ?_, ?_⟩
  · refine List.forall_mem_append.mpr ⟨hne, ?_⟩
    intro group hmem
    simpa using (List.mem_filter.mp hmem).2
  · have hflat : ([taken].filter (· ≠ [])).flatten = taken := by
      cases taken with
      | nil => rfl
      | cons chunk taken => simp
    rw [List.flatten_append, hflat, List.append_assoc, ← hf.chunks, hsent]
  · rw [payloads_dataLines, List.map_append]

end Accounted

/-! ## What a turn adds -/

theorem payloads_heard (heard lines : List Text) :
    payloads (heard ++ shown lines) = payloads (heard ++ shown []) ++ payloads (shown lines) := by
  rw [payloads_append, payloads_append]
  simp [shown, payloads]

/-- The lines printed in a turn carry on the account, if the session is still there after it. -/
theorem accounted_turn {s : Session} {sent : List Bytes} {texts : List Text} {b : Board}
    (printed : List Text) (hradio : b.radio.Plain) (hplaced : s.socket < b.dialer.sockets.length)
    (ha : b.session = some s → Accounted s sent texts b)
    (hout : b.turn.1.output = b.output ++ Utf8.encodeLines printed) (hprinted : ∀ t ∈ printed, '\n' ∉ t)
    (hs : b.turn.1.session = some s) :
    b.turn.2 = none ∧ Accounted s sent (texts ++ payloads (shown printed)) b.turn.1 := by
  have hsession : b.session = some s := (Follows.turn b).kept hs hplaced
  have haccount := ha hsession
  obtain ⟨hcrash, taken, hf⟩ := Receiving.turn ⟨hradio, hsession, hplaced, haccount.inbox⟩ hs
  obtain ⟨lines, hlines, hmute⟩ := hf.output
  have hsame : printed = lines ++ dataLines taken := by
    apply Utf8.encodeLines_inj _ _ hprinted
    · exact List.forall_mem_append.mpr ⟨fun t ht => (hmute t ht).1, hf.free⟩
    · exact List.append_cancel_left (hout.symm.trans hlines)
  refine ⟨hcrash, ?_⟩
  rw [hsame, shown_append, payloads_append, payloads_of_mute lines fun t ht => (hmute t ht).2,
    List.nil_append]
  exact haccount.forward hf

namespace Tuned

variable {s : Session} {sent : List Bytes} {got heard : List Text} {h h' : Host (WiredLine τ)}

theorem of_eq (ht : Tuned s sent got heard h) (hports : h'.line.ports = h.line.ports)
    (hboard : h'.line.board = h.line.board) (hheld : h'.held = h.held)
    (hpending : h'.pending = h.pending) (hinbox : h'.inbox = h.inbox) : Tuned s sent got heard h' := by
  obtain ⟨left, hholds, haccount⟩ := ht.account
  obtain ⟨hready, hholds'⟩ : h'.line.Ready ∧ h'.line.Holds left :=
    WiredLine.ready_and_holds_of_eq hboard hports ht.ready hholds
  refine ⟨hheld.trans ht.held, hready, hpending.trans ht.pending, hboard ▸ ht.radio, hboard ▸ ht.placed,
    left, hholds', ?_⟩
  rw [hboard, hinbox]
  exact haccount

theorem sent_line (ht : Tuned s sent got heard h) (bytes : Bytes) :
    Tuned s sent got heard { h with line := h.line.sent bytes } := by
  obtain ⟨left, hholds, haccount⟩ := ht.account
  refine ⟨ht.held, ht.ready.sent bytes, ht.pending, ht.radio, ht.placed, left, hholds.sent bytes, ?_⟩
  intro hs
  exact (haccount hs).of_eq rfl

theorem of_line (ht : Tuned s sent got heard h) (line : WiredLine τ) (left new : List Text)
    (hready : line.Ready) (hholds : line.Holds left) (hradio : line.board.radio.Plain)
    (hplaced : s.socket < line.board.dialer.sockets.length)
    (haccount : line.board.session = some s →
      Accounted s sent (got ++ (h.inbox ++ payloads (heard ++ shown (new ++ left)))) line.board) :
    Tuned s sent got (heard ++ shown new) { h with line, pending := [] } := by
  refine ⟨ht.held, hready, rfl, hradio, hplaced, left, hholds, ?_⟩
  rw [List.append_assoc, ← shown_append]
  exact haccount

variable [TimeScale τ]

theorem isOpen (ht : Tuned s sent got heard h) : h.isOpen = true :=
  isOpen_of_held ht.held ht.ready.1

theorem readLine (ht : Tuned s sent got heard h) :
    Call.Ends (fun line h' => Tuned s sent got (heard ++ line.toList.filter (· ≠ [])) h')
      (fun f h' => f = .outOfPatience ∨ Tuned s sent got [] h') (Channel.readLine h) := by
  obtain ⟨left, hholds, haccount⟩ := ht.account
  have hreads := h.line.reads_readLine ht.ready.1 left hholds
  generalize hrun : h.line.readLine = run at hreads
  cases hreads with
  | atHand t left =>
    rw [← Utf8.encodeLines_singleton] at hrun
    obtain ⟨text, hread, htext⟩ :=
      readLine_of_read h ht.isOpen ht.pending [t] (Nat.le_refl _) _ hrun
    rw [hread]
    change Tuned s sent got (heard ++ text.toList.filter (· ≠ [])) _
    rw [htext]
    apply ht.of_line _ left [t] (ht.ready.put _ _ _)
    · exact .put _ _ ht.ready.1 left rfl fun u hu => hholds.2 u (List.mem_cons_of_mem t hu)
    · exact ht.radio
    · exact ht.placed
    · intro hs
      exact (haccount hs).of_eq rfl
  | afterTurn board printed clock hturn houtput hprinted =>
    obtain ⟨text, hread, htext⟩ :=
      readLine_of_read h ht.isOpen ht.pending (printed.take 1) (List.length_take_le 1 _) _ hrun
    rw [hread]
    change Tuned s sent got (heard ++ text.toList.filter (· ≠ [])) _
    rw [htext]
    have hfirst : printed.take 1 ++ printed.tail = printed := by cases printed <;> rfl
    have hplain := ht.radio.turn
    have hplaced := Nat.lt_of_lt_of_le ht.placed (Follows.turn h.line.board).sockets
    have hcarried := accounted_turn printed ht.radio ht.placed haccount
    rw [(h.line.collect_of_drained ht.ready.1 hholds).2.2, List.nil_append] at hcarried
    rw [hturn] at hplain hplaced hcarried
    apply ht.of_line _ printed.tail (printed.take 1) (ht.ready.put _ _ _)
    · exact .put _ _ ht.ready.1 _ rfl fun t ht => hprinted t (List.mem_of_mem_tail ht)
    · exact hplain
    · exact hplaced
    · intro hs
      obtain ⟨_, hnext⟩ := hcarried houtput hprinted hs
      rw [hfirst, payloads_heard, ← List.append_assoc h.inbox, ← List.append_assoc got]
      exact hnext.of_eq rfl
  | atCrash board crash printed clock hturn houtput hprinted =>
    have hlost : board.session ≠ some s := by
      intro hs
      have hcarried := accounted_turn printed ht.radio ht.placed haccount
      rw [(h.line.collect_of_drained ht.ready.1 hholds).2.2, List.nil_append, hturn] at hcarried
      obtain ⟨hnone, _⟩ := hcarried houtput hprinted hs
      cases hnone
    have hplain := ht.radio.turn
    have hplaced := Nat.lt_of_lt_of_le ht.placed (Follows.turn h.line.board).sockets
    rw [hturn] at hplain hplaced
    rw [readLine_of_fault h ht.isOpen _ _ hrun, Fault.isIo_ofCrash]
    refine .inr ⟨ht.held, ht.ready.put _ _ _, ht.pending, hplain, hplaced, printed, ⟨?_, hprinted⟩, ?_⟩
    · rw [WiredLine.received_put _ _ _ _ ht.ready.1, List.nil_append]
      exact houtput
    · intro hs
      exact absurd hs hlost

/-! ## Windows and calls -/

theorem window (ht : Tuned s sent got [] h) (k : Link τ) (duration : τ) :
    Call.Ends (fun lines h' => Tuned s sent got lines h')
      (fun f h' => f = .outOfPatience ∨ Tuned s sent got [] h') (readLines k duration h) := by
  rw [readLines_of_open k duration h ht.isOpen]
  apply collect_ends
  · exact fun _ _ hI => hI.of_eq rfl rfl rfl rfl rfl
  · exact fun _ _ _ hI => hI.of_eq rfl rfl rfl rfl rfl
  · exact fun _ _ hI => hI.readLine
  · exact fun _ _ _ => .inl rfl
  · exact ht.of_eq rfl rfl rfl rfl rfl

theorem kept_readLines (k : Link τ) (duration : τ) :
    Call.Keeps (Tuned s sent got []) (Client.readLines (σ := WiredLine τ) k duration) := by
  intro h ht
  have hwindow := ht.window k duration
  rw [Client.readLines]
  rcases hrun : readLines k duration h with ⟨lines, h'⟩ | ⟨f, h'⟩
  · rw [hrun] at hwindow
    rw [Call.bind_of_ok hrun]
    obtain ⟨held, ready, pending, radio, placed, left, hholds, haccount⟩ := hwindow
    refine ⟨held, ready, pending, radio, placed, left, hholds, ?_⟩
    rw [payloads_append, ← List.append_assoc h'.inbox] at haccount
    exact haccount
  · rw [hrun] at hwindow
    rw [Call.bind_of_error hrun]
    exact hwindow

theorem kept_query (k : Link τ) (r : Request) :
    Call.Keeps (Tuned s sent got []) (Client.query (σ := WiredLine τ) k r) := by
  intro h ht
  cases hline : r.line? with
  | none =>
    rw [Client.query, hline]
    exact .inr ht
  | some line =>
    have hw : SerialLine.write (Utf8.encode line ++ [lineFeed]) h.line =
        (.ok (), h.line.sent (Utf8.encodeLine line)) := h.line.write_of_ready _ ht.ready
    have hwrite := writeLine_of_ok k line h ht.isOpen _ _ hw rfl
    have hsent := ht.sent_line (Utf8.encodeLine line)
    rw [Client.query, hline]
    dsimp only
    rw [Client.sendLine, Call.bind_of_ok hwrite]
    cases r.verb.window? with
    | none => exact hsent.of_eq rfl rfl rfl rfl rfl
    | some millis => exact kept_readLines k _ _ (hsent.of_eq rfl rfl rfl rfl rfl)

theorem kept_call (k : Link τ) (r : Request) :
    Call.Keeps (Tuned s sent got []) (Client.call (σ := WiredLine τ) k r) :=
  Client.keeps_call (fun _ _ _ ht => ht.of_eq rfl rfl rfl rfl rfl) k r (kept_query k r)

theorem takeInbound (ht : Tuned s sent got [] h) (k : Link τ) (duration : τ)
    (hpatience : (Client.takeInbound k duration).outcome h ≠ .error .outOfPatience) :
    Tuned s sent (got ++ returned ((Client.takeInbound k duration).outcome h)) []
      ((Client.takeInbound (σ := WiredLine τ) k duration).after h) := by
  have htake (h : Host (WiredLine τ)) (ht : Tuned s sent got [] h) :
      Tuned s sent (got ++ h.inbox) [] { h with inbox := [] } := by
    obtain ⟨left, hholds, haccount⟩ := ht.account
    refine ⟨ht.held, ht.ready, ht.pending, ht.radio, ht.placed, left, hholds, ?_⟩
    rw [List.nil_append (payloads _), List.append_assoc got]
    exact haccount
  cases hwait : TimeScale.before TimeScale.zero duration && h.isOpen with
  | false =>
    rw [Call.outcome, Call.after, Client.takeInbound_at_once k duration h hwait]
    exact htake h ht
  | true =>
    have hkept := kept_readLines k duration h ht
    rcases Client.takeInbound_after_window k duration h hwait with
      ⟨lines, h', hwindow, hrun⟩ | ⟨f, h', hwindow, hrun⟩
    · rw [hwindow] at hkept
      rw [Call.outcome, Call.after, hrun]
      exact htake h' hkept
    · rw [hwindow] at hkept
      rw [Call.outcome, hrun] at hpatience
      rw [Call.outcome, Call.after, hrun, returned, List.append_nil]
      rcases hkept with rfl | hkept
      · exact absurd rfl hpatience
      · exact hkept

/-! ## What happens around the host -/

omit [TimeScale τ] in
theorem of_board (ht : Tuned s sent got [] h) (change : Board → Board) {all : List Bytes}
    (printed : List Text)
    (houtput : (change h.line.board).output = h.line.board.output ++ Utf8.encodeLines printed)
    (hfree : ∀ t ∈ printed, '\n' ∉ t) (hradio : (change h.line.board).radio.Plain)
    (hplaced : s.socket < (change h.line.board).dialer.sockets.length)
    (hnext : ∀ texts, (h.line.board.session = some s → Accounted s sent texts h.line.board) →
      (change h.line.board).session = some s →
        Accounted s all (texts ++ payloads (shown printed)) (change h.line.board)) :
    Tuned s all got [] (h.atBoard change) := by
  obtain ⟨left, hholds, haccount⟩ := ht.account
  refine ⟨ht.held, ht.ready, ht.pending, hradio, hplaced, left ++ printed, ⟨?_, ?_⟩, ?_⟩
  · change h.line.received ++ (change h.line.board).output = _
    rw [houtput, ← List.append_assoc, hholds.1, Utf8.encodeLines_append]
  · exact List.forall_mem_append.mpr ⟨hholds.2, hfree⟩
  · intro hs
    have hall := hnext _ haccount hs
    rw [shown_append, ← List.append_assoc [], payloads_append]
    rw [List.append_assoc got, List.append_assoc h.inbox] at hall
    exact hall

omit [TimeScale τ] in
theorem of_quiet_board (ht : Tuned s sent got [] h) (change : Board → Board) {all : List Bytes}
    (houtput : (change h.line.board).output = h.line.board.output)
    (hradio : (change h.line.board).radio.Plain)
    (hplaced : (change h.line.board).dialer.sockets.length = h.line.board.dialer.sockets.length)
    (hsession : (change h.line.board).session = h.line.board.session)
    (hnext : ∀ texts, Accounted s sent texts h.line.board → Accounted s all texts (change h.line.board)) :
    Tuned s all got [] (h.atBoard change) := by
  apply ht.of_board change [] (houtput.trans (List.append_nil _).symm) (by simp) hradio
  · rw [hplaced]
    exact ht.placed
  · intro texts haccount hs
    have htexts : texts ++ payloads (shown []) = texts := List.append_nil texts
    rw [htexts]
    exact hnext texts (haccount (hsession.symm.trans hs))

omit [TimeScale τ] in
theorem dropRadio (ht : Tuned s sent got [] h) : Tuned s sent got [] (h.atBoard Host.dropRadio) :=
  ht.of_quiet_board _ rfl ht.radio.leave rfl rfl fun _ ha => ha.of_eq rfl

omit [TimeScale τ] in
theorem deliver (ht : Tuned s sent got [] h) (events : List PeerEvent) (hplain : InboxPlain events) :
    Tuned s (sent ++ chunks events) got [] (h.atBoard (peer s.socket events)) := by
  have hinbox : (peer s.socket events h.line.board).inbox s = h.line.board.inbox s ++ events := by
    obtain ⟨socket, hsocket, hmodified⟩ :=
      inbox_modify h.line.board.dialer s (Socket.deliver events) ht.placed
    simp [Board.inbox, peer, hsocket, hmodified, Socket.deliver]
  apply ht.of_quiet_board _ rfl ht.radio (length_sockets_modify _ _ _) rfl
  intro texts ha
  obtain ⟨groups, hne, hsent, htexts⟩ := ha.groups
  refine ⟨hinbox ▸ ha.inbox.append hplain, groups, hne, ?_, htexts⟩
  rw [hinbox, chunks_append, ← List.append_assoc, hsent]

omit [TimeScale τ] in
theorem elsewhere (ht : Tuned s sent got [] h) (i : Nat) (hi : i ≠ s.socket) (events : List PeerEvent) :
    Tuned s sent got [] (h.atBoard (peer i events)) := by
  have hinbox : (peer i events h.line.board).inbox s = h.line.board.inbox s := by
    simp [Board.inbox, peer, Dialer.modify, hi]
  apply ht.of_quiet_board _ rfl ht.radio (length_sockets_modify _ _ _) rfl
  exact fun _ ha => ha.of_eq hinbox

omit [TimeScale τ] in
theorem poll (ht : Tuned s sent got [] h) : Tuned s sent got [] (h.atBoard fun b => b.turn.1) := by
  obtain ⟨printed, houtput, hprinted⟩ := (adds_turn h.line.board).lines
  apply ht.of_board _ printed houtput hprinted ht.radio.turn
  · exact Nat.lt_of_lt_of_le ht.placed (Follows.turn h.line.board).sockets
  · intro texts haccount hs
    exact (accounted_turn printed ht.radio ht.placed haccount houtput hprinted hs).2

end Tuned

/-! ## Histories -/

/-- A session is open, and nothing that has come in before is left to be read. -/
structure Begun (s : Session) (h : Host (WiredLine τ)) : Prop where
  held : h.held = true
  ready : h.line.Ready
  pending : h.pending = []
  inbox : h.inbox = []
  left : ∃ left, h.line.Holds left ∧ payloads (shown left) = []
  radio : h.line.board.radio.Plain
  session : h.line.board.session = some s
  placed : s.socket < h.line.board.dialer.sockets.length
  plain : InboxPlain (h.line.board.inbox s)

theorem Begun.tuned {s : Session} {h : Host (WiredLine τ)} (hb : Begun s h) :
    Tuned s (chunks (h.line.board.inbox s)) [] [] h := by
  obtain ⟨left, hholds, hmute⟩ := hb.left
  refine ⟨hb.held, hb.ready, hb.pending, hb.radio, hb.placed, left, hholds, ?_⟩
  intro _
  refine ⟨hb.plain, [], by simp, rfl, ?_⟩
  rw [hb.inbox]
  exact hmute

variable [TimeScale τ]

/-- What the peer of a session has sent since, chunk by chunk, and what has been taken of it, after calls
of the bridge, turns of the board and changes around it. The peer sends no line feed, and no window is
given up. -/
inductive Heard (k : Link τ) (s : Session) : List Bytes → List Text → Host (WiredLine τ) → Prop
  | begun (h : Host (WiredLine τ)) (hbegun : Begun s h) : Heard k s (chunks (h.line.board.inbox s)) [] h
  | call {sent : List Bytes} {got : List Text} {h : Host (WiredLine τ)} (hh : Heard k s sent got h)
      (r : Request) (hpatience : (Client.call k r).outcome h ≠ .error .outOfPatience) :
      Heard k s sent got ((Client.call k r).after h)
  | readLines {sent : List Bytes} {got : List Text} {h : Host (WiredLine τ)} (hh : Heard k s sent got h)
      (duration : τ) (hpatience : (Client.readLines k duration).outcome h ≠ .error .outOfPatience) :
      Heard k s sent got ((Client.readLines k duration).after h)
  | takeInbound {sent : List Bytes} {got : List Text} {h : Host (WiredLine τ)} (hh : Heard k s sent got h)
      (duration : τ) (hpatience : (Client.takeInbound k duration).outcome h ≠ .error .outOfPatience) :
      Heard k s sent (got ++ returned ((Client.takeInbound k duration).outcome h))
        ((Client.takeInbound k duration).after h)
  | poll {sent : List Bytes} {got : List Text} {h : Host (WiredLine τ)} (hh : Heard k s sent got h) :
      Heard k s sent got (h.atBoard fun b => b.turn.1)
  | deliver {sent : List Bytes} {got : List Text} {h : Host (WiredLine τ)} (hh : Heard k s sent got h)
      (events : List PeerEvent) (hplain : InboxPlain events) :
      Heard k s (sent ++ chunks events) got (h.atBoard (peer s.socket events))
  | elsewhere {sent : List Bytes} {got : List Text} {h : Host (WiredLine τ)} (hh : Heard k s sent got h)
      (i : Nat) (hi : i ≠ s.socket) (events : List PeerEvent) :
      Heard k s sent got (h.atBoard (peer i events))
  | dropRadio {sent : List Bytes} {got : List Text} {h : Host (WiredLine τ)} (hh : Heard k s sent got h) :
      Heard k s sent got (h.atBoard dropRadio)

theorem Heard.tuned {k : Link τ} {s : Session} {sent : List Bytes} {got : List Text}
    {h : Host (WiredLine τ)} (hh : Heard k s sent got h) : Tuned s sent got [] h := by
  induction hh with
  | begun h hbegun => exact hbegun.tuned
  | call _ r hpatience ih => exact (Tuned.kept_call k r).after ih hpatience
  | readLines _ duration hpatience ih => exact (Tuned.kept_readLines k duration).after ih hpatience
  | takeInbound _ duration hpatience ih => exact ih.takeInbound k duration hpatience
  | poll _ ih => exact ih.poll
  | deliver _ events hplain ih => exact ih.deliver events hplain
  | elsewhere _ i hi events ih => exact ih.elsewhere i hi events
  | dropRadio _ ih => exact ih.dropRadio

/-- The session is still there, and nothing of what its peer has sent is on the way. -/
structure Taken (s : Session) (h : Host (WiredLine τ)) : Prop where
  session : h.line.board.session = some s
  peer : chunks (h.line.board.inbox s) = []
  link : h.line.undelivered = []
  inbox : h.inbox = []

instance (s : Session) (h : Host (WiredLine τ)) : Decidable (Taken s h) :=
  decidable_of_iff (h.line.board.session = some s ∧ chunks (h.line.board.inbox s) = [] ∧
      h.line.undelivered = [] ∧ h.inbox = [])
    ⟨fun ⟨hsession, hpeer, hlink, hinbox⟩ => ⟨hsession, hpeer, hlink, hinbox⟩,
      fun ht => ⟨ht.session, ht.peer, ht.link, ht.inbox⟩⟩

/-- Each payload is the text of the chunks that one turn has forwarded, without the blanks at its end.
So a text arrives as it was sent if no turn ends within a character or after a blank. -/
theorem inbound_text_arrives (k : Link τ) (s : Session) (sent : List Bytes) (got : List Text)
    (h : Host (WiredLine τ)) (text : Text) (hh : Heard k s sent got h) (htaken : Taken s h)
    (htext : sent.flatten = Utf8.encode text) :
    (∃ groups : List (List Bytes), (∀ group ∈ groups, group ≠ []) ∧ groups.flatten = sent ∧
      got = groups.map payload ∧
      ((∀ group ∈ groups, Settled group.flatten) → got.flatten = text)) ∧
    ((∀ chunk ∈ sent, Settled chunk) → got.flatten = text) := by
  obtain ⟨left, hholds, haccount⟩ := hh.tuned.account
  obtain ⟨groups, hne, hsent, hgot⟩ := (haccount htaken.session).groups
  obtain rfl := hholds.eq_nil htaken.link
  rw [htaken.inbox] at hgot
  rw [htaken.peer, List.append_nil] at hsent
  have hpayloads : got = groups.map payload := (List.append_nil got).symm.trans hgot
  have hwhole : (∀ group ∈ groups, Settled group.flatten) → got.flatten = text := by
    intro hsettled
    rw [hpayloads]
    exact Settled.flatten_payloads hsettled (hsent.symm ▸ htext)
  refine ⟨⟨groups, hne, hsent, hpayloads, hwhole⟩, ?_⟩
  intro hchunks
  apply hwhole
  intro group hgroup
  apply Settled.flatten
  intro chunk hchunk
  exact hchunks chunk (hsent ▸ List.mem_flatten.mpr ⟨group, hgroup, hchunk⟩)

/-! ## Two chunks -/

def toHost : Session := ⟨"host".toList, 80, 0⟩

def told (chunk : Bytes) (h : Host (WiredLine Millis)) : Host (WiredLine Millis) :=
  (Client.takeInbound steadyLink ⟨1000⟩).after (hearing chunk h)

def learnt (chunk : Bytes) (h : Host (WiredLine Millis)) : List Text :=
  returned ((Client.takeInbound steadyLink ⟨1000⟩).outcome (hearing chunk h))

theorem begun_dialled : Begun toHost dialled := by
  have hresting := reached_dialled.resting
  refine ⟨hresting.held, hresting.ready, hresting.pending, by decide +kernel, ⟨[], ⟨?_, by simp⟩, rfl⟩,
    hresting.plain.radio, by decide +kernel, by decide +kernel, ?_⟩
  · decide +kernel
  · unfold InboxPlain
    decide +kernel

theorem Heard.told {sent : List Bytes} {got : List Text} {h : Host (WiredLine Millis)}
    (hh : Heard steadyLink toHost sent got h) (b : UInt8) (bs : Bytes) (hfree : 0x0A ∉ b :: bs)
    (hok : ((Client.takeInbound steadyLink ⟨1000⟩).outcome (hearing (b :: bs) h)).isOk = true) :
    Heard steadyLink toHost (sent ++ [b :: bs]) (got ++ learnt (b :: bs) h) (told (b :: bs) h) := by
  have hplain : InboxPlain [.data b bs] := by
    intro e he
    rw [List.mem_singleton.mp he]
    exact hfree
  apply (hh.deliver [.data b bs] hplain).takeInbound ⟨1000⟩
  intro hpatience
  rw [hearing] at hok
  cases hpatience ▸ hok

theorem heard_pair (b c : UInt8) (bs cs : Bytes) (got : List Text) (hb : 0x0A ∉ b :: bs)
    (hc : 0x0A ∉ c :: cs)
    (hrun : ((Client.takeInbound steadyLink ⟨1000⟩).outcome (hearing (b :: bs) dialled)).isOk = true ∧
      ((Client.takeInbound steadyLink ⟨1000⟩).outcome
        (hearing (c :: cs) (told (b :: bs) dialled))).isOk = true ∧
      learnt (b :: bs) dialled ++ learnt (c :: cs) (told (b :: bs) dialled) = got ∧
      Taken toHost (told (c :: cs) (told (b :: bs) dialled))) :
    Heard steadyLink toHost [b :: bs, c :: cs] got (told (c :: cs) (told (b :: bs) dialled)) ∧
      Taken toHost (told (c :: cs) (told (b :: bs) dialled)) := by
  obtain ⟨hfirst, hsecond, hgot, htaken⟩ := hrun
  have hchunks : chunks (dialled.line.board.inbox toHost) = [] := by decide +kernel
  have hbegun := Heard.begun (k := steadyLink) dialled begun_dialled
  rw [hchunks] at hbegun
  have hpair := (hbegun.told b bs hb hfirst).told c cs hc hsecond
  simp only [List.nil_append, List.cons_append] at hpair
  rw [hgot] at hpair
  exact ⟨hpair, htaken⟩

theorem inbound_text_arrives_of_naive :
    learnt [0x6E, 0x61] dialled ++ learnt [0xC3, 0xAF, 0x76, 0x65] (told [0x6E, 0x61] dialled) =
        ["na".toList, "ïve".toList] ∧
      (learnt [0x6E, 0x61] dialled ++
        learnt [0xC3, 0xAF, 0x76, 0x65] (told [0x6E, 0x61] dialled)).flatten = "naïve".toList := by
  have hgot : learnt [0x6E, 0x61] dialled ++ learnt [0xC3, 0xAF, 0x76, 0x65] (told [0x6E, 0x61] dialled) =
      ["na".toList, "ïve".toList] := by decide +kernel
  obtain ⟨hheard, htaken⟩ := heard_pair 0x6E 0xC3 [0x61] [0xAF, 0x76, 0x65] ["na".toList, "ïve".toList]
    (by decide) (by decide) (by decide +kernel)
  have hna : Settled [0x6E, 0x61] := ⟨"na".toList, by decide, by decide⟩
  have hive : Settled [0xC3, 0xAF, 0x76, 0x65] := ⟨"ïve".toList, by decide, by decide⟩
  rw [hgot]
  refine ⟨rfl, ?_⟩
  apply (inbound_text_arrives steadyLink toHost _ _ _ "naïve".toList hheard htaken (by decide)).2
  simp [hna, hive]

/-- A blank at the end of what a turn forwards is trimmed. -/
theorem inbound_text_altered :
    Heard steadyLink toHost [[0x61, 0x20], [0x62]] ["a".toList, "b".toList]
        (told [0x62] (told [0x61, 0x20] dialled)) ∧
      Taken toHost (told [0x62] (told [0x61, 0x20] dialled)) ∧
      ([[0x61, 0x20], [0x62]] : List Bytes).flatten = Utf8.encode "a b".toList ∧
      ["a".toList, "b".toList].flatten ≠ "a b".toList := by
  obtain ⟨hheard, htaken⟩ := heard_pair 0x61 0x62 [0x20] [] ["a".toList, "b".toList] (by decide)
    (by decide) (by decide +kernel)
  exact ⟨hheard, htaken, by decide, by decide⟩

/-- A turn does not wait for the rest of a character, of which each part is replaced. -/
theorem cut_character_is_replaced :
    Heard steadyLink toHost [[0xC3], [0xA9]] [[Utf8.replacement], [Utf8.replacement]]
        (told [0xA9] (told [0xC3] dialled)) ∧
      Taken toHost (told [0xA9] (told [0xC3] dialled)) ∧
      ([[0xC3], [0xA9]] : List Bytes).flatten = Utf8.encode "é".toList := by
  obtain ⟨hheard, htaken⟩ := heard_pair 0xC3 0xA9 [] [] [[Utf8.replacement], [Utf8.replacement]]
    (by decide) (by decide) (by decide +kernel)
  exact ⟨hheard, htaken, by decide⟩

end StationLink.Host
