import StationLink.Proofs.Host.Leftovers

/-!
# Names that decide

A board announces a join or a call by the name it is given, before it says how that ended. The verdict is
looked for in all lines of the window. So a name is taken for the verdict if it has the mark of an error in
it, or the phrase of success; with any other name it is the board that decides.
-/

namespace StationLink.Protocol.Verdict

open Text

/-- A blank line decides nothing, whether it is shown or not. -/
theorem ofLines_shown (phrase : Text) (hphrase : phrase ≠ []) (lines : List Text) :
    ofLines phrase (shown lines) = ofLines phrase (lines.map trim) := by
  have hblank : contains phrase [] = false := by simpa [contains] using hphrase
  induction lines with
  | nil => rfl
  | cons line lines ih =>
    have hshown : shown (line :: lines) = shown [line] ++ shown lines := shown_append [line] lines
    by_cases hline : trim line = []
    · have hnone : shown [line] = [] := by simp [shown, hline]
      have herror : contains Mark.error [] = false := by decide
      rw [hshown, hnone, List.nil_append, ih, List.map_cons, hline, ofLines, hblank, herror]
      rfl
    · have hone : shown [line] = [trim line] := by simp [shown, hline]
      rw [hshown, hone, List.singleton_append, List.map_cons, ofLines, ofLines, ih]

end StationLink.Protocol.Verdict

namespace StationLink.Board

open Text Protocol

/-! ## The lines of a join -/

/-- The lines of a join up to its verdict. -/
def Radio.joinHead (r : Radio) (ssid password : Text) : List Text :=
  ["CONNECTING:".toList ++ ssid, List.replicate (r.waits ssid password) '.',
    if (r.joined ssid password).network?.isSome then "OK:Connected".toList
    else "ERROR:Connection failed".toList]

def Radio.joinTelling (r : Radio) (ssid password : Text) : Verdict :=
  if contains Mark.error ssid then .error (trim ("CONNECTING:".toList ++ ssid))
  else if (r.joined ssid password).network?.isSome then .ok "OK:Connected".toList
  else .error "ERROR:Connection failed".toList

theorem joinLines_eq_head (r : Radio) (ssid password : Text) :
    ∃ tail, r.joinLines ssid password = r.joinHead ssid password ++ tail := by
  rw [Radio.joinLines, Radio.joinHead, joinVerdict]
  cases (r.joined ssid password).network? with
  | none => exact ⟨[], rfl⟩
  | some n => exact ⟨[Mark.ip ++ n.ip], rfl⟩

/-- Neither phrase begins before the name, and the dots have none. -/
theorem ofLines_joinHead (r : Radio) (ssid password : Text) (hcolon : ':' ∉ ssid) :
    Verdict.ofLines "OK:Connected".toList (shown (r.joinHead ssid password)) =
      r.joinTelling ssid password := by
  have hname : contains "OK:Connected".toList (trim ("CONNECTING:".toList ++ ssid)) = false :=
    not_contains_of_isInfix (trim_isInfix _)
      (not_contains_of_not_mem (t := ssid) (c := ':') (by decide) hcolon)
  have herror : contains Mark.error (trim ("CONNECTING:".toList ++ ssid)) = contains Mark.error ssid := by
    rw [trim_append_of_not_blank _ _ (by decide) (by decide)]
    have hlast : Mark.error.getLast? = some 'R' := rfl
    exact contains_trimEnd hlast ssid (by decide)
  have hdots (phrase : Text) (c : Char) (hc : c ∈ phrase) (hdot : c ≠ '.') :
      contains phrase (trim (List.replicate (r.waits ssid password) '.')) = false := by
    apply not_contains_of_not_mem hc
    intro hmem
    exact hdot (List.eq_of_mem_replicate (mem_of_mem_trim hmem))
  have hverdict (up : Bool) : Verdict.ofLines "OK:Connected".toList
      [trim (if up then "OK:Connected".toList else "ERROR:Connection failed".toList)] =
        if up then .ok "OK:Connected".toList else .error "ERROR:Connection failed".toList := by
    cases up with
    | true => decide
    | false => decide
  rw [Verdict.ofLines_shown _ (by decide), Radio.joinHead, Radio.joinTelling, List.map_cons,
    List.map_cons, Verdict.ofLines, Verdict.ofLines, hname, herror,
    hdots "OK:Connected".toList 'O' (by decide) (by decide), hdots Mark.error 'E' (by decide) (by decide)]
  exact congrArg (fun told : Verdict => if contains Mark.error ssid then _ else told) (hverdict _)

/-! ## The lines of a call -/

def callTelling (host number : Text) (plan : Plan) : Verdict :=
  if contains "OK:TCP connected".toList host then .ok (callLine host number)
  else if contains Mark.error host then .error (callLine host number)
  else if plan.usable?.isSome then .ok "OK:TCP connected".toList
  else .error "ERROR:TCP connection failed".toList

theorem trim_callLine (host number : Text) (port : Int) (h : Numeral.write? port = some number) :
    trim (callLine host number) = callLine host number := by
  have hblank := Numeral.not_blank_of_mem_write? port number h
  have hstart : callLine host number =
      "TCP:Connecting".toList ++ (" to ".toList ++ (host ++ ':' :: number)) := rfl
  rw [hstart, trim_append_of_not_blank _ _ (by decide) (by decide), ← List.append_assoc _ host,
    trimEnd_append_cons _ _ _ (by decide), trimEnd_of_not_blank number hblank]

/-- A phrase is the host's if it does not begin before it and does not end behind it. -/
theorem contains_callLine {phrase : Text} (first last : Char) (hfirst : phrase.head? = some first)
    (hlast : phrase.getLast? = some last) (hbefore : first ∉ "TCP:Connecting to ".toList)
    (hcolon : last ≠ ':') (hdigit : last.isDigit = false) (hsign : last ≠ '-') (host number : Text)
    (port : Int) (h : Numeral.write? port = some number) :
    contains phrase (callLine host number) = contains phrase host := by
  have hbehind : last ∉ ':' :: number :=
    List.not_mem_cons_of_ne_of_not_mem hcolon (Numeral.not_mem_write? port number last h hdigit hsign)
  have hstart : callLine host number = "TCP:Connecting to ".toList ++ (host ++ ':' :: number) := rfl
  rw [hstart, contains_prepend_of_not_mem hfirst _ _ hbefore,
    contains_append_of_not_mem hlast host _ hbehind]

theorem ofLines_callLines (host number : Text) (port : Int) (plan : Plan)
    (h : Numeral.write? port = some number) (hplan : plan ≠ .fault) :
    Verdict.ofLines "OK:TCP connected".toList (shown (callLine host number :: callVerdict plan)) =
      callTelling host number plan := by
  have hphrase : contains "OK:TCP connected".toList (callLine host number) =
      contains "OK:TCP connected".toList host :=
    contains_callLine 'O' 'd' rfl rfl (by decide) (by decide) (by decide) (by decide)
      host number port h
  have herror : contains Mark.error (callLine host number) = contains Mark.error host :=
    contains_callLine 'E' 'R' rfl rfl (by decide) (by decide) (by decide) (by decide)
      host number port h
  have hverdict : Verdict.ofLines "OK:TCP connected".toList ((callVerdict plan).map trim) =
      if plan.usable?.isSome then .ok "OK:TCP connected".toList
      else .error "ERROR:TCP connection failed".toList := by
    rw [callVerdict, if_neg hplan]
    cases plan.usable?.isSome with
    | true => decide
    | false => decide
  rw [Verdict.ofLines_shown _ (by decide), List.map_cons, trim_callLine host number port h,
    Verdict.ofLines, hphrase, herror, hverdict, callTelling]

end StationLink.Board

namespace StationLink.Host

open Serial Text Protocol Board Channel

variable {τ : Type} [TimeScale τ]

/-! ## Over a drained link -/

/-- A request has been answered over a drained link. The lines of its window are judged as those with which
its answer begins. -/
structure Told (o : Order) (line phrase : Text) (head lines : List Text) (h : Host (WiredLine τ))
    (h₁ : Host (Recorded (WiredLine τ))) : Prop where
  verdict : Verdict.ofLines phrase lines = Verdict.ofLines phrase (shown head)
  idled : Idled (h.line.board.bare.execute o).1 h₁.line.line.board
  written : h₁.line.line.written = h.line.written ++ Utf8.encodeLine line
  rejoined : h₁.rejoined = h.rejoined

theorem Links.told {h : Host (WiredLine τ)} (hl : Links [] [] h) (k : Link τ) (r : Request) (o : Order)
    (line phrase : Text) (millis : Nat) (hline : r.line? = some line) (hends : r.FreeOfLineEnds)
    (hwindow : r.verb.window? = some millis) (horder : Order.ofText line = o) (hu : Uncut k r h)
    (hwhole : (h.line.board.bare.execute o).2 = none) (head tail : List Text)
    (hanswer : (answer o h.line.board.bare).1 = Utf8.encodeLines (head ++ tail))
    (hfree : ∀ t ∈ head, '\n' ∉ t) (hdecides : Verdict.ofLines phrase (shown head) ≠ .timeout) :
    ∃ lines h₁, Client.query k r h.recorded = .ok lines h₁ ∧ Told o line phrase head lines h h₁ := by
  subst horder
  rcases hl.reply (b := h.line.board.bare) rfl k r line millis hline hends hwindow hu with
    ⟨crash, _, hcrash, _⟩ | ⟨waited, own, more, left, h₁, hr, hquery, hwritten, hrejoined⟩
  · cases hwhole.symm.trans hcrash
  · obtain rfl : waited = [] := hr.waited_eq (by simp) rfl
    -- A line of the answer may hold line feeds, but not before its verdict.
    obtain ⟨rest, hrest, hfree'⟩ := Utf8.exists_lines tail
    have hown : own = head ++ rest := by
      apply hr.own_eq (List.forall_mem_append.mpr ⟨hfree, hfree'⟩)
      rw [hanswer, Utf8.encodeLines_append, Utf8.encodeLines_append, hrest]
    refine ⟨_, h₁, hquery, ?_, hr.idled, hwritten, hrejoined⟩
    have hsplit : [] ++ [] ++ own ++ more = [] ++ head ++ (rest ++ more) := by
      rw [hown]
      simp
    rw [hsplit, ofLines_own phrase [] head _ rfl hdecides]

theorem Links.told_join {h : Host (WiredLine τ)} (hl : Links [] [] h) (k : Link τ) (ssid password : Text)
    (hends : (Request.connect ssid password).FreeOfLineEnds) (hu : Uncut k (.connect ssid password) h)
    {name rest : Text} (hcolon : ':' ∉ name) (hname : name <+: ssid)
    (horder : Order.ofText ("CONNECT:".toList ++ (ssid ++ ':' :: password)) = .connect name rest) :
    ∃ lines h₁, Client.query k (.connect ssid password) h.recorded = .ok lines h₁ ∧
      Told (.connect name rest) ("CONNECT:".toList ++ (ssid ++ ':' :: password)) "OK:Connected".toList
        (h.line.board.radio.joinHead name rest) lines h h₁ := by
  obtain ⟨tail, htail⟩ := joinLines_eq_head h.line.board.radio name rest
  refine hl.told k _ _ _ _ Verb.slow (Request.line?_connect ssid password) hends rfl horder hu rfl _ tail
    ?_ ?_ ?_
  · rw [answer_connect_eq, ← htail]
    rfl
  · have hssid : '\n' ∉ ssid := (hends ssid List.mem_cons_self).1
    have hstart : '\n' ∉ "CONNECTING:".toList ++ name :=
      not_mem_append (by decide) fun hmem => hssid (hname.subset hmem)
    refine List.forall_mem_cons.mpr ⟨hstart, List.forall_mem_cons.mpr ⟨?_, ?_⟩⟩
    · simp [List.mem_replicate]
    · rw [List.forall_mem_singleton]
      split
      · decide
      · decide
  · rw [ofLines_joinHead _ _ _ hcolon, Radio.joinTelling]
    split
    · exact Verdict.noConfusion
    · split
      · exact Verdict.noConfusion
      · exact Verdict.noConfusion

theorem Links.told_call {h : Host (WiredLine τ)} (hl : Links [] [] h) (k : Link τ) (host number : Text)
    (port : Int) (hhost : host ≠ []) (hends : (Request.tcpConnect host port).FreeOfLineEnds)
    (hnumber : Numeral.write? port = some number) (hplan : h.line.board.dialer.nextPlan ≠ .fault)
    (hu : Uncut k (.tcpConnect host port) h) :
    ∃ lines h₁, Client.query k (.tcpConnect host port) h.recorded = .ok lines h₁ ∧
      Told (.tcpConnect host port) ("TCPCONNECT:".toList ++ (host ++ ':' :: number))
        "OK:TCP connected".toList (callLine host number :: callVerdict h.line.board.dialer.nextPlan)
        lines h h₁ := by
  obtain ⟨houtput, hcrash⟩ := output_tcpConnect host port number h.line.board.bare hnumber
  refine hl.told k _ _ _ _ Verb.slow (Request.line?_tcpConnect host number port hnumber) hends rfl
    (Order.ofText_tcpConnect host number port hhost hnumber) hu (hcrash.trans (if_neg hplan)) _ [] ?_ ?_ ?_
  · rw [List.append_nil]
    exact houtput
  · have hcall : '\n' ∉ callLine host number :=
      lineFeed_not_mem_callLine host number port (hends host List.mem_cons_self).1 hnumber
    refine List.forall_mem_cons.mpr ⟨hcall, ?_⟩
    rw [callVerdict, if_neg hplan]
    split
    · exact List.forall_mem_singleton.mpr (by decide)
    · exact List.forall_mem_singleton.mpr (by decide)
  · rw [ofLines_callLines host number port _ hnumber hplan, callTelling]
    split
    · exact Verdict.noConfusion
    · split
      · exact Verdict.noConfusion
      · split
        · exact Verdict.noConfusion
        · exact Verdict.noConfusion

theorem Told.outcome {o : Order} {line phrase : Text} {head lines : List Text} {h : Host (WiredLine τ)}
    {h₁ : Host (Recorded (WiredLine τ))} (htold : Told o line phrase head lines h h₁) (k : Link τ)
    (action : Action) (r : Request) (hphrase : r.verb.success? = some phrase)
    (hquery : Client.query k r h.recorded = .ok lines h₁) :
    (Client.perform k action r).outcome h = judge action (Verdict.ofLines phrase (shown head)) := by
  rw [outcome_perform, (Client.records_query k r).outcome, Call.outcome, hquery, hphrase, ← htold.verdict]
  rfl

theorem line_after_call {h : Host (WiredLine τ)} {h₁ : Host (Recorded (WiredLine τ))} {lines : List Text}
    (k : Link τ) (r : Request) (hquery : Client.query k r h.recorded = .ok lines h₁) :
    ((Client.call k r).after h).line = h₁.line.line := by
  have hrun : (Client.query k r).after h = h₁.unrecorded := by
    rw [(Client.records_query k r).after h, Call.after, hquery]
    rfl
  rw [(Client.alike_call k r h).line, hrun]
  rfl

/-! ## The calls -/

/-- Over a drained link, a join and a call tell what the board has come to, unless the name decides. -/
theorem verdict_is_the_boards_or_the_names (k : Link τ) (h : Host (WiredLine τ)) (hl : Links [] [] h) :
    (∀ ssid password, ':' ∉ ssid → (Request.connect ssid password).FreeOfLineEnds →
      Uncut k (.connect ssid password) h →
      (Client.connect k ssid password).outcome h =
        if contains Mark.error ssid then
          .error (.refused .connection (trim ("CONNECTING:".toList ++ ssid)))
        else if ((Client.connect k ssid password).after h).line.board.wifi = .connected then .ok ()
        else .error (.refused .connection "ERROR:Connection failed".toList)) ∧
    (∀ host port number, host ≠ [] → (Request.tcpConnect host port).FreeOfLineEnds →
      Numeral.write? port = some number → h.line.board.dialer.nextPlan ≠ .fault →
      Uncut k (.tcpConnect host port) h →
      (Client.tcpConnect k host port).outcome h =
        if contains "OK:TCP connected".toList host then .ok ()
        else if contains Mark.error host then .error (.refused .tcpConnection (callLine host number))
        else if h.line.board.dialer.nextPlan.usable?.isSome then .ok ()
        else .error (.refused .tcpConnection "ERROR:TCP connection failed".toList)) := by
  constructor
  · intro ssid password hcolon hends hu
    obtain ⟨lines, h₁, hquery, htold⟩ := hl.told_join k ssid password hends hu hcolon List.prefix_rfl
      (Order.ofText_connect ssid password hcolon)
    have hwifi : ((Client.connect k ssid password).after h).line.board.wifi =
        joinState (h.line.board.radio.joined ssid (trimEnd password)) := by
      have hline := line_after_call k (.connect ssid password) hquery
      rw [Client.call] at hline
      rw [hline, htold.idled.wifi]
      exact congrArg Board.wifi (connect_eq ssid (trimEnd password) _)
    rw [outcome_connect, htold.outcome k .connection _ rfl hquery, ofLines_joinHead _ _ _ hcolon,
      Radio.joinTelling, hwifi]
    simp only [joinState_eq_connected]
    split
    · rfl
    · split
      · rfl
      · rfl
  · intro host port number hhost hends hnumber hplan hu
    obtain ⟨lines, h₁, hquery, htold⟩ := hl.told_call k host number port hhost hends hnumber hplan hu
    rw [Client.tcpConnect, htold.outcome k .tcpConnection _ rfl hquery,
      ofLines_callLines host number port _ hnumber hplan, callTelling]
    split
    · rfl
    · split
      · rfl
      · split
        · rfl
        · rfl

/-! ## Names like phrases -/

def misnamed : Host (WiredLine Millis) :=
  drained ((Client.start steadyLink).after
    { line := {
        clock := .start ⟨0⟩
        board := boot [{ ssid := "NoERROR".toList, rssi := -45 }] [.refuse]
        paced := false } })

theorem links_misnamed : Links [] [] misnamed := by
  refine ⟨by decide +kernel, ⟨by decide +kernel, by decide +kernel⟩, by decide +kernel,
    by decide +kernel, by simp, ?_, by simp⟩
  decide +kernel

theorem verdict_is_the_boards_or_the_names_at_misnamed :
    Links [] [] misnamed ∧
      (Client.connect steadyLink "NoERROR".toList []).outcome misnamed =
        .error (.refused .connection "CONNECTING:NoERROR".toList) ∧
      (Client.connect steadyLink "Home".toList []).outcome misnamed =
        .error (.refused .connection "ERROR:Connection failed".toList) ∧
      (Client.tcpConnect steadyLink "host".toList 80).outcome misnamed =
        .error (.refused .tcpConnection "ERROR:TCP connection failed".toList) := by
  obtain ⟨hjoin, hcall⟩ := verdict_is_the_boards_or_the_names steadyLink misnamed links_misnamed
  refine ⟨links_misnamed, ?_, ?_, ?_⟩
  · rw [hjoin "NoERROR".toList [] (by decide) (by unfold Request.FreeOfLineEnds; decide)
      fun _ _ => by decide +kernel]
    exact if_pos (by decide)
  · rw [hjoin "Home".toList [] (by decide) (by unfold Request.FreeOfLineEnds; decide)
      fun _ _ => by decide +kernel, if_neg (by decide)]
    exact if_neg (by decide +kernel)
  · rw [hcall "host".toList 80 "80".toList (by decide) (by unfold Request.FreeOfLineEnds; decide) rfl
      (by decide +kernel) fun _ _ => by decide +kernel, if_neg (by decide), if_neg (by decide)]
    exact if_neg (by decide +kernel)

/-- A network with such a name is joined and the call says that it was not; and a host with such a name is
not reached and the call says that it was. No window is cut short. -/
theorem name_decides :
    Links [] [] misnamed ∧ misnamed.line.board.session = none ∧
      Uncut steadyLink (.connect "NoERROR".toList []) misnamed ∧
      ((Client.connect steadyLink "NoERROR".toList []).after misnamed).line.board.wifi = .connected ∧
      (Client.connect steadyLink "NoERROR".toList []).outcome misnamed =
        .error (.refused .connection "CONNECTING:NoERROR".toList) ∧
      Uncut steadyLink (.tcpConnect "OK:TCP connected".toList 80) misnamed ∧
      misnamed.line.board.dialer.nextPlan.usable? = none ∧
      (Client.tcpConnect steadyLink "OK:TCP connected".toList 80).outcome misnamed = .ok () :=
  ⟨links_misnamed, by decide +kernel, fun _ _ => by decide +kernel, by decide +kernel, by decide +kernel,
    fun _ _ => by decide +kernel, by decide +kernel, by decide +kernel⟩

end StationLink.Host
