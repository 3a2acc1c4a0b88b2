import StationLink.Proofs.Host.Replies

/-!
# Lines that nobody has read

Nothing but the order of the lines tells which request an answer belongs to, so a call may take a line
for its own that was on the link before. It does so only if the line is of the kind that it looks for:
apart from these, a call comes to the same whether the link has been drained before it or not.
-/

namespace StationLink.Host

open Serial Text Protocol Board Channel

variable {τ : Type}

/-- Whether a line can decide what the call of a request comes to. -/
def heeds : Request → Text → Bool
  | .address, line => (after? Mark.ip line).isSome
  | r, line => contains (r.verb.success?.getD []) line || contains Mark.error line

/-! ## Own lines -/

theorem not_timeout_of_mem {phrase line : Text} {own : List Text} (hmem : line ∈ own)
    (hne : trim line ≠ [])
    (hline : contains phrase (trim line) = true ∨ contains Mark.error (trim line) = true) :
    Verdict.ofLines phrase (shown own) ≠ .timeout := by
  intro htimeout
  have hshown : trim line ∈ shown own :=
    List.mem_filter.mpr ⟨List.mem_map_of_mem hmem, by simpa using hne⟩
  obtain ⟨hphrase, herror⟩ := (Verdict.ofLines_eq_timeout_iff _ _).mp htimeout _ hshown
  rcases hline with hline | hline
  · cases hphrase.symm.trans hline
  · cases herror.symm.trans hline

/-- The lines that an order prints, if it is carried out to its end, decide its own call. -/
def Decided (o : Order) (phrase : Text) : Prop :=
  ∀ (b : Board) (own : List Text), (b.execute o).2 = none → (answer o b).1 = Utf8.encodeLines own →
    (∀ t ∈ own, '\n' ∉ t) → Verdict.ofLines phrase (shown own) ≠ .timeout

theorem decided_of_line {o : Order} {phrase : Text}
    (h : ∀ b : Board, (b.execute o).2 = none → ∃ lines, (answer o b).1 = Utf8.encodeLines lines ∧
      ∃ line ∈ lines, '\n' ∉ line ∧ trim line ≠ [] ∧
        (contains phrase (trim line) = true ∨ contains Mark.error (trim line) = true)) :
    Decided o phrase := by
  intro b own hwhole hown hfree
  obtain ⟨lines, hlines, line, hmem, hline, hne, hdecides⟩ := h b hwhole
  exact not_timeout_of_mem (Utf8.mem_of_encodeLines_eq hmem hline hfree (hown.symm.trans hlines)) hne hdecides

theorem decided_connect (name rest : Text) : Decided (.connect name rest) "OK:Connected".toList := by
  refine decided_of_line fun b _ => ⟨b.radio.joinLines name rest, ?_, ?_⟩
  · rw [answer_connect_eq]
  · have hverdict : ∃ line ∈ joinVerdict (b.radio.joined name rest),
        line = "OK:Connected".toList ∨ line = "ERROR:Connection failed".toList := by
      rw [joinVerdict]
      split
      · exact ⟨_, List.mem_cons_self, .inl rfl⟩
      · exact ⟨_, List.mem_cons_self, .inr rfl⟩
    obtain ⟨line, hmem, hline⟩ := hverdict
    refine ⟨line, List.mem_cons_of_mem _ (List.mem_cons_of_mem _ hmem), ?_⟩
    rcases hline with rfl | rfl
    · decide
    · decide

theorem decided_tcpConnect (host number : Text) (port : Int)
    (hnumber : Numeral.write? port = some number) :
    Decided (.tcpConnect host port) "OK:TCP connected".toList := by
  refine decided_of_line fun b hwhole => ?_
  obtain ⟨houtput, hcrash⟩ := output_tcpConnect host port number b.bare hnumber
  refine ⟨_, houtput, ?_⟩
  have hplan : b.bare.dialer.nextPlan ≠ .fault := by
    intro hfault
    have hran : (b.execute (.tcpConnect host port)).2 = (b.bare.tcpConnect host port).2 :=
      (execute_answer _ b).2
    rw [hran, hcrash, if_pos hfault] at hwhole
    cases hwhole
  rw [callVerdict, if_neg hplan]
  split
  · exact ⟨"OK:TCP connected".toList, by simp, by decide⟩
  · exact ⟨"ERROR:TCP connection failed".toList, by simp, by decide⟩

theorem decided_tcpConnectWithoutHost : Decided .tcpConnectWithoutHost "OK:TCP connected".toList := by
  refine decided_of_line fun b _ => ⟨["ERROR:Invalid TCPCONNECT format".toList], ?_, ?_⟩
  · rw [Utf8.encodeLines_singleton, ← Utf8.encode_snoc_lineFeed]
    rfl
  · exact ⟨_, List.mem_cons_self, by decide⟩

/-! ## The call from the lines of its window -/

variable [TimeScale τ]

def judge (action : Action) : Verdict → Except Failure Unit
  | .ok _ => .ok ()
  | .error line => .error (.refused action line)
  | .timeout => .error (.timedOut action)

section

variable {σ : Type} [SerialLine σ τ]

theorem perform_of_query (k : Link τ) (action : Action) (r : Request) {h h₁ : Host σ}
    {lines : List Text} (hquery : Client.query k r h = .ok lines h₁) :
    Client.perform k action r h =
      match judge action (Verdict.ofLines (r.verb.success?.getD []) lines) with
      | .ok _ => .ok () h₁
      | .error f => .error f { h₁ with journal := .failed f :: h₁.journal } := by
  rw [Client.perform, Call.bind_of_ok hquery]
  cases Verdict.ofLines (r.verb.success?.getD []) lines with
  | ok line => rfl
  | error line => rfl
  | timeout => rfl

theorem outcome_perform (k : Link τ) (action : Action) (r : Request) (h : Host σ) :
    (Client.perform k action r).outcome h =
      ((Client.query k r).outcome h).bind fun lines =>
        judge action (Verdict.ofLines (r.verb.success?.getD []) lines) := by
  apply Call.outcome_bind
  intro lines h
  cases Verdict.ofLines (r.verb.success?.getD []) lines with
  | ok line => rfl
  | error line => rfl
  | timeout => rfl

theorem outcome_connect (k : Link τ) (ssid password : Text) (h : Host σ) :
    (Client.connect k ssid password).outcome h =
      (Client.perform k .connection (.connect ssid password)).outcome h := by
  rw [Call.outcome, Call.outcome, Client.connect]
  rcases hrun : Client.perform k .connection (.connect ssid password) h with ⟨_, h'⟩ | ⟨f, h'⟩
  · rw [Call.bind_of_ok hrun]
    rfl
  · rw [Call.bind_of_error hrun]

theorem outcome_status (k : Link τ) (h : Host σ) :
    (Client.status k).outcome h =
      ((Client.query k .status).outcome h).bind fun lines =>
        match Status.ofLines? lines with
        | some s => .ok s
        | none => .error .invalidNumber := by
  apply Call.outcome_bind
  intro lines h
  obtain ⟨journal, hnotes⟩ := Call.forM_note_eq (Status.dropped lines) .signalDropped h
  rw [Call.outcome, Call.bind_of_ok hnotes]
  cases Status.ofLines? lines with
  | some s => rfl
  | none => rfl

theorem outcome_survey (k : Link τ) (h : Host σ) :
    (Client.survey k).outcome h =
      ((Client.query k .scan).outcome h).bind fun lines =>
        match survey? lines with
        | some sightings => .ok sightings
        | none => .error .invalidNumber := by
  apply Call.outcome_bind
  intro lines h
  cases survey? lines with
  | some sightings => rfl
  | none => rfl

theorem outcome_address (k : Link τ) (h : Host σ) :
    (Client.address k).outcome h =
      ((Client.query k .address).outcome h).bind fun lines =>
        match address? lines with
        | some ip => .ok ip
        | none => .error .noAddress := by
  apply Call.outcome_bind
  intro lines h
  cases address? lines with
  | some ip => rfl
  | none => rfl

end

/-! ## Draining the link -/

/-- What a drained host has to do with the host before: all that waited has been carried out, and all
lines have been returned. -/
structure Drains (texts left lines : List Text) (h h₁ : Host (WiredLine τ)) (b : Board) (waited : List Text) :
    Prop where
  carried : Board.carried texts h.line.board = (b, none)
  printed : b.output = Utf8.encodeLines waited
  free : ∀ t ∈ waited, '\n' ∉ t
  returned : ∀ t ∈ shown (left ++ waited), t ∈ lines
  idled : Idled b h₁.line.board
  links : Links [] [] h₁

theorem Links.drains {texts left : List Text} {h h₁ : Host (WiredLine τ)} (hl : Links texts left h)
    (k : Link τ) (duration : τ) (lines : List Text)
    (hdrain : Client.readLines k duration h = .ok lines h₁)
    (hempty : h₁.line.undelivered = [] ∧ h₁.line.board.input = []) :
    ∃ b waited, Drains texts left lines h h₁ b waited := by
  obtain ⟨c, hhost, rfl, rfl, hw⟩ := hl.readLines_window k duration
  have hrecords := Client.records_readLines k duration h.recorded
  rw [unrecorded_recorded, hdrain] at hrecords
  generalize Client.readLines k duration h.recorded = run at hw hrecords
  cases hw with
  | givenUp heard left' h' hh => cases hrecords
  | crashed crash h' hs => cases hrecords
  | closed heard left' h' hh =>
    obtain ⟨rfl, rfl⟩ := EStateM.Result.ok.inj hrecords
    obtain rfl := hh.holds.eq_nil hempty.1
    have ht := hh.through_of_drained hempty.2
    obtain ⟨more, rfl, _⟩ := ht.lines
    have hboard : h.line.board = c.host.line.line.board := by
      rw [hhost]
      rfl
    refine ⟨c.after, c.answer, ?_, c.printed, c.free, ?_, ht.idled, hh.links_of_through ht⟩
    · rw [hboard, ← ht.whole]
      rfl
    · intro t hmem
      rw [shown_append]
      exact List.mem_append_left _ hmem

/-- The windows of a call before and after the draining: both end with the same crash, or both hear the
same reply of their own. -/
theorem Drains.windows {texts left lines waited : List Text} {h h₁ : Host (WiredLine τ)} {b : Board}
    (hd : Drains texts left lines h h₁ b waited) (hl : Links texts left h) (k : Link τ) (r : Request)
    (line : Text) (millis : Nat) (hline : r.line? = some line) (hends : r.FreeOfLineEnds)
    (hwindow : r.verb.window? = some millis) (hsteady : (Order.ofText line).Steady) (hu : Uncut k r h)
    (hu₁ : Uncut k r h₁) :
    (∃ f, (Client.query k r).outcome h = .error f ∧ (Client.query k r).outcome h₁ = .error f) ∨
    ∃ own more more₁, (b.execute (.ofText line)).2 = none ∧
      (answer (.ofText line) b).1 = Utf8.encodeLines own ∧ (∀ t ∈ own, '\n' ∉ t) ∧
      (Client.query k r).outcome h = .ok (shown (left ++ waited ++ own ++ more)) ∧
      (Client.query k r).outcome h₁ = .ok (shown (own ++ more₁)) ∧
      (b.session = none → (∀ b : Board, b.session = none → (b.execute (.ofText line)).1.session = none) →
        more = [] ∧ more₁ = []) := by
  have hsame : answer (.ofText line) h₁.line.board.bare = answer (.ofText line) b :=
    hd.idled.answer_steady _ hsteady
  have hcrash : (h₁.line.board.bare.execute (.ofText line)).2 = (b.execute (.ofText line)).2 := by
    rw [(execute_answer _ b).2, (execute_answer _ h₁.line.board.bare).2, hsame]
  have hrun := (Client.records_query k r).outcome h
  have hrun₁ := (Client.records_query k r).outcome h₁
  have hdirect := hl.reply hd.carried k r line millis hline hends hwindow hu
  have hafter := hd.links.reply (b := h₁.line.board.bare) rfl k r line millis hline hends hwindow hu₁
  rw [hcrash] at hafter
  rw [hrun, hrun₁, Call.outcome, Call.outcome]
  rcases hdirect with ⟨crash, h', hc, hq⟩ | ⟨waited', own, more, left', h', hreply, hq, _⟩
  · rcases hafter with ⟨crash₁, h'₁, hc₁, hq₁⟩ | ⟨_, _, _, _, h'₁, hreply₁, _⟩
    · obtain rfl : crash = crash₁ := Option.some.inj (hc.symm.trans hc₁)
      rw [hq, hq₁]
      exact .inl ⟨_, rfl, rfl⟩
    · have hwhole := hreply₁.whole
      rw [hcrash, hc] at hwhole
      cases hwhole
  · rcases hafter with ⟨crash₁, h'₁, hc₁, _⟩ | ⟨waited₁, own₁, more₁, left₁, h'₁, hreply₁, hq₁, _⟩
    · cases hreply.whole.symm.trans hc₁
    · obtain ⟨_, hown⟩ := List.forall_mem_append.mp hreply.free
      obtain rfl : waited' = waited := hreply.waited_eq hd.free hd.printed
      obtain rfl : waited₁ = [] := hreply₁.waited_eq (by simp) rfl
      obtain rfl : own₁ = own := hreply₁.own_eq hown (hsame ▸ hreply.answer)
      refine .inr ⟨own₁, more, more₁, hreply.whole, hreply.answer, hown, ?_, ?_, ?_⟩
      · rw [hq]
      · rw [hq₁]
        rfl
      · intro hs hkeeps
        have hs₁ : h₁.line.board.bare.session = none := (hd.idled.alone hs).1
        exact ⟨(hreply.alone (hkeeps b hs)).1, (hreply₁.alone (hkeeps _ hs₁)).1⟩

theorem ofLines_own (phrase : Text) (before own more : List Text)
    (hbefore : Verdict.ofLines phrase (shown before) = .timeout)
    (hown : Verdict.ofLines phrase (shown own) ≠ .timeout) :
    Verdict.ofLines phrase (shown (before ++ own ++ more)) = Verdict.ofLines phrase (shown own) := by
  have hboth : Verdict.ofLines phrase (shown before ++ shown own) = Verdict.ofLines phrase (shown own) := by
    rw [Verdict.ofLines_append, if_pos hbefore]
  rw [shown_append, shown_append, Verdict.ofLines_append, hboth, if_neg hown]

theorem Drains.perform {texts left lines waited : List Text} {h h₁ : Host (WiredLine τ)} {b : Board}
    (hd : Drains texts left lines h h₁ b waited) (hl : Links texts left h) (k : Link τ)
    (action : Action) (r : Request) (line phrase : Text) (millis : Nat) (hline : r.line? = some line)
    (hends : r.FreeOfLineEnds) (hwindow : r.verb.window? = some millis)
    (hphrase : r.verb.success? = some phrase) (hsteady : (Order.ofText line).Steady)
    (hdecided : Decided (.ofText line) phrase)
    (hlines : ∀ t ∈ lines, contains phrase t = false ∧ contains Mark.error t = false)
    (hu : Uncut k r h) (hu₁ : Uncut k r h₁) :
    (Client.perform k action r).outcome h = (Client.perform k action r).outcome h₁ := by
  have hbefore : Verdict.ofLines phrase (shown (left ++ waited)) = .timeout :=
    (Verdict.ofLines_eq_timeout_iff _ _).mpr fun t ht => hlines t (hd.returned t ht)
  rw [outcome_perform, outcome_perform, hphrase]
  rcases hd.windows hl k r line millis hline hends hwindow hsteady hu hu₁ with
    ⟨f, hrun, hrun₁⟩ | ⟨own, more, more₁, hwhole, hown, hfree, hrun, hrun₁, _⟩
  · rw [hrun, hrun₁]
  · have hne := hdecided b own hwhole hown hfree
    have hdirect := ofLines_own phrase (left ++ waited) own more hbefore hne
    have hafter := ofLines_own phrase [] own more₁ rfl hne
    rw [hrun, hrun₁]
    change judge action (Verdict.ofLines phrase _) = judge action (Verdict.ofLines phrase _)
    rw [hdirect, ← hafter]
    rfl

theorem Drains.address {texts left lines waited : List Text} {h h₁ : Host (WiredLine τ)} {b : Board}
    (hd : Drains texts left lines h h₁ b waited) (hl : Links texts left h) (k : Link τ)
    (hsession : b.session = none) (hlines : ∀ t ∈ lines, after? Mark.ip t = none)
    (hu : Uncut k .address h) (hu₁ : Uncut k .address h₁) :
    (Client.address k).outcome h = (Client.address k).outcome h₁ := by
  have horder : Order.ofText Verb.address.word = .address := by decide
  have hsteady : (Order.ofText Verb.address.word).Steady := by
    rw [horder]
    trivial
  have hkeeps (b : Board) (hs : b.session = none) :
      (b.execute (.ofText Verb.address.word)).1.session = none := by
    rw [horder]
    exact (byRadio_reportAddress b).session.trans hs
  have hbefore : address? (shown (left ++ waited)) = none :=
    List.findSome?_eq_none_iff.mpr fun t ht => hlines t (hd.returned t ht)
  have hends : Request.address.FreeOfLineEnds := Request.freeOfLineEnds_of_texts_nil rfl
  rw [outcome_address, outcome_address]
  rcases hd.windows hl k .address _ _ rfl hends rfl hsteady hu hu₁ with
    ⟨f, hrun, hrun₁⟩ | ⟨own, more, more₁, _, _, _, hrun, hrun₁, hnone⟩
  · rw [hrun, hrun₁]
  · obtain ⟨rfl, rfl⟩ := hnone hsession hkeeps
    have hown : address? (shown (left ++ waited ++ own)) = address? (shown own) := by
      rw [shown_append, address?, List.findSome?_append]
      change (address? (shown (left ++ waited))).or _ = _
      rw [hbefore]
      rfl
    rw [hrun, hrun₁, List.append_nil, List.append_nil]
    simp only [Except.bind, hown]

/-! ## The calls -/

/-- On any host in use, suppose a window drains the link: nothing undelivered and nothing to be carried out
is left. If no window of the call is cut short and none of the drained lines is of the kind it heeds, a
join, a call and a question for the address come to the same before and after. A question for the address
also needs that there is no session once the board has carried out what waits. -/
theorem unread_lines_do_not_decide (k : Link τ) (h h₁ : Host (WiredLine τ)) (hused : Used k true h)
    (duration : τ) (lines : List Text) (hdrain : Client.readLines k duration h = .ok lines h₁)
    (hempty : h₁.line.undelivered = [] ∧ h₁.line.board.input = []) :
    (∀ ssid password, (Request.connect ssid password).FreeOfLineEnds →
      Uncut k (.connect ssid password) h → Uncut k (.connect ssid password) h₁ →
      (∀ t ∈ lines, heeds (.connect ssid password) t = false) →
      (Client.connect k ssid password).outcome h = (Client.connect k ssid password).outcome h₁) ∧
    (∀ host port, (Request.tcpConnect host port).FreeOfLineEnds →
      Uncut k (.tcpConnect host port) h → Uncut k (.tcpConnect host port) h₁ →
      (∀ t ∈ lines, heeds (.tcpConnect host port) t = false) →
      (Client.tcpConnect k host port).outcome h = (Client.tcpConnect k host port).outcome h₁) ∧
    (Uncut k .address h → Uncut k .address h₁ → (∀ t ∈ lines, heeds .address t = false) →
      (served h.line.board).session = none →
      (Client.address k).outcome h = (Client.address k).outcome h₁) := by
  have hheld : h.held = true := by
    cases hheld : h.held with
    | true => rfl
    | false =>
      have hclosed : Client.readLines k duration h = .error .notConnected h :=
        Call.bind_of_error (readLines_of_closed k duration h (isOpen_of_not_held hheld))
      cases hclosed.symm.trans hdrain
  obtain ⟨texts, left, hl, _⟩ := hused.sound hheld
  obtain ⟨b, waited, hd⟩ := hl.drains k duration lines hdrain hempty
  refine ⟨?_, ?_, ?_⟩
  · intro ssid password hends hu hu₁ hlines
    obtain ⟨name, rest, _, _, horder⟩ := Order.ofText_join ssid password
    rw [outcome_connect, outcome_connect]
    refine hd.perform hl k .connection _ _ "OK:Connected".toList _ (Request.line?_connect ssid password)
      hends rfl rfl ?_ ?_ (fun t ht => Bool.or_eq_false_iff.mp (hlines t ht)) hu hu₁
    · rw [horder]
      trivial
    · rw [horder]
      exact decided_connect name rest
  · intro host port hends hu hu₁ hlines
    cases hnumber : Numeral.write? port with
    | none =>
      have hline : (Request.tcpConnect host port).line? = none := by
        simp [Request.line?, Protocol.line?, Request.fields, Field.write?, hnumber]
      have hquery (h : Host (WiredLine τ)) :
          (Client.query k (.tcpConnect host port)).outcome h = .error .invalidNumber := by
        rw [Client.query, hline]
        rfl
      rw [Client.tcpConnect, outcome_perform, outcome_perform, hquery, hquery]
    | some number =>
      have horder := Order.ofText_call host number port hnumber
      refine hd.perform hl k .tcpConnection _ _ "OK:TCP connected".toList _
        (Request.line?_tcpConnect host number port hnumber) hends rfl rfl ?_ ?_
        (fun t ht => Bool.or_eq_false_iff.mp (hlines t ht)) hu hu₁
      · rw [horder]
        split <;> trivial
      · rw [horder]
        split
        · exact decided_tcpConnectWithoutHost
        · exact decided_tcpConnect host number port hnumber
  · intro hu hu₁ hlines hserved
    have hsession : b.session = none := by
      rw [served_eq texts hl.sendable _ hl.input, hd.carried] at hserved
      exact hserved
    refine hd.address hl k hsession (fun t ht => ?_) hu hu₁
    exact Option.isNone_iff_eq_none.mp (Option.isSome_eq_false_iff.mp (hlines t ht))

/-! ## Runs that differ -/

def home : Network where
  ssid := "Home".toList
  rssi := -45
  password := some "pw".toList

/-- A network that is slow to join and has the mark of an error in its name. -/
def awkward : Network where
  ssid := "NoERROR".toList
  rssi := -80
  joinPolls := 12

def fresh : Host (WiredLine Millis) :=
  (Client.start steadyLink).after
    { line := { clock := .start ⟨0⟩, board := boot [home, awkward] [], paced := true } }

def drained (h : Host (WiredLine Millis)) : Host (WiredLine Millis) :=
  (Client.readLines steadyLink ⟨1000⟩).after h

theorem used_fresh (cut : Bool) : Used steadyLink cut fresh :=
  .start _ (.new _ rfl)

/-- Data was sent without a session, and left on the network. -/
def complaining : Host (WiredLine Millis) :=
  (Client.call steadyLink (.tcpSend "x".toList)).after fresh

/-- The network was left, and nothing has been read since the start. -/
def leaving : Host (WiredLine Millis) :=
  (Client.call steadyLink .disconnect).after fresh

theorem used_complaining (cut : Bool) : Used steadyLink cut complaining :=
  .call _ _ (used_fresh cut) (by unfold Request.FreeOfLineEnds; decide) fun _ _ hwindow => by cases hwindow

theorem used_leaving (cut : Bool) : Used steadyLink cut leaving :=
  .call _ _ (used_fresh cut) (by unfold Request.FreeOfLineEnds; decide) fun _ _ hwindow => by cases hwindow

def farewell : List Text :=
  ["READY".toList, "ESP32 WiFi Bridge v1.0".toList, "Waiting for commands...".toList,
    "OK:Disconnected".toList]

theorem unread_lines_do_not_decide_at_leaving :
    (Client.connect steadyLink "Home".toList "pw".toList).outcome leaving =
        (Client.connect steadyLink "Home".toList "pw".toList).outcome (drained leaving) ∧
      (Client.tcpConnect steadyLink "host".toList 80).outcome leaving =
        (Client.tcpConnect steadyLink "host".toList 80).outcome (drained leaving) ∧
      (Client.address steadyLink).outcome leaving =
        (Client.address steadyLink).outcome (drained leaving) := by
  have hdrain : Client.readLines steadyLink ⟨1000⟩ leaving = .ok farewell (drained leaving) :=
    Call.run_of_outcome (by decide +kernel)
  obtain ⟨hjoin, hcall, hask⟩ := unread_lines_do_not_decide steadyLink leaving (drained leaving)
    (used_leaving true) ⟨1000⟩ farewell hdrain ⟨by decide +kernel, by decide +kernel⟩
  refine ⟨hjoin _ _ (by unfold Request.FreeOfLineEnds; decide) ?_ ?_ (by decide),
    hcall _ _ (by unfold Request.FreeOfLineEnds; decide) ?_ ?_ (by decide),
    hask ?_ ?_ (by decide) (by decide +kernel)⟩
  all_goals exact fun _ _ => by decide +kernel

/-- A join that is made while the answer to data sent without a session is unread fails with that answer,
and succeeds once it is read. No window is cut short. And a join whose window is cut short may fail with
its own announcement, but not if the answer to a leave is in the way. -/
theorem unread_line_decides :
    (Used steadyLink false complaining ∧ complaining.line.board.session = none ∧
      (drained complaining).line.undelivered = [] ∧ (drained complaining).line.board.input = [] ∧
      (Client.connect steadyLink "Home".toList "pw".toList).outcome complaining =
        .error (.refused .connection "ERROR:Not connected".toList) ∧
      (Client.connect steadyLink "Home".toList "pw".toList).outcome (drained complaining) = .ok ()) ∧
    (Used steadyLink false leaving ∧ leaving.line.board.session = none ∧
      (drained leaving).line.undelivered = [] ∧ (drained leaving).line.board.input = [] ∧
      (Client.connect steadyLink "NoERROR".toList []).outcome leaving = .error (.timedOut .connection) ∧
      (Client.connect steadyLink "NoERROR".toList []).outcome (drained leaving) =
        .error (.refused .connection "CONNECTING:NoERROR".toList)) :=
  ⟨⟨used_complaining false, by decide +kernel, by decide +kernel, by decide +kernel, by decide +kernel,
      by decide +kernel⟩,
    used_leaving false, by decide +kernel, by decide +kernel, by decide +kernel, by decide +kernel,
    by decide +kernel⟩

end StationLink.Host
