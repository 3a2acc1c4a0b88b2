import StationLink.Host.Monitor
import StationLink.Proofs.Host.Names

/-!
# One check of the monitor

The window of the status hears out what earlier calls have left on the link, so that the join, if it
comes to one, is judged by its own lines.
-/

namespace StationLink.Board

open Text Protocol

/-- The radio once the board has carried out what waits and a status request after it. -/
def radioAtStatus (b : Board) : Radio :=
  (b.feed (Utf8.encodeLine Verb.status.word)).served.radio

end StationLink.Board

namespace StationLink.Host

open Serial Text Protocol Board Channel

variable {τ : Type}

/-! ## The status -/

/-- A status request has been answered. Nothing waits at the board, and nothing is left on the link. -/
structure Informed (h h₁ : Host (WiredLine τ)) : Prop where
  links : Links [] [] h₁
  radio : h₁.line.board.radio = h.line.board.radioAtStatus
  written : h₁.line.written = h.line.written ++ Utf8.encodeLine Verb.status.word
  rejoined : h₁.rejoined = h.rejoined

theorem Links.radioAtStatus {texts left : List Text} {h : Host (WiredLine τ)} (hl : Links texts left h)
    {b : Board} (hcarried : carried texts h.line.board = (b, none)) :
    h.line.board.radioAtStatus = (b.execute .status).1.radio := by
  have horder : Order.ofText Verb.status.word = .status := by decide
  have hword : Sendable Verb.status.word := ⟨by decide, by decide, by decide⟩
  have hsendable : ∀ t ∈ texts ++ [Verb.status.word], Sendable t :=
    List.forall_mem_append.mpr ⟨hl.sendable, List.forall_mem_singleton.mpr hword⟩
  have hinput : (h.line.board.feed (Utf8.encodeLine Verb.status.word)).input =
      Utf8.encodeLines (texts ++ [Verb.status.word]) := by
    rw [Utf8.encodeLines_append, Utf8.encodeLines_singleton, ← hl.input]
    rfl
  have hbare : (h.line.board.feed (Utf8.encodeLine Verb.status.word)).bare = h.line.board.bare := rfl
  rw [Board.radioAtStatus, served_eq _ hsendable _ hinput, radio_around, carried_of_bare hbare,
    carried_snoc texts _ _ b hcarried, horder]

variable [TimeScale τ]

theorem Links.status {texts left : List Text} {h : Host (WiredLine τ)} (hl : Links texts left h)
    (k : Link τ) (hquiet : ∀ t ∈ texts, (Order.ofText t).Quiet)
    (hshort : ∀ t ∈ left, StatusLine.ofText (trim t) ≠ .overlong)
    (hsession : h.line.board.session = none) (hradio : h.line.board.radio.Plain)
    (hu : Uncut k .status h) :
    ∃ s h₁, Client.status k h = .ok s h₁ ∧ s.connected = h₁.line.board.radio.network?.isSome ∧
      Informed h h₁ := by
  obtain ⟨b, waited, hcarried, hsession₀, hout, hwaited⟩ :=
    executeAll_of_quiet (texts.map Order.ofText) (List.forall_mem_map.mpr hquiet) h.line.board.bare hsession
  have hplain₀ : b.radio.Plain := by
    have hall := hradio.executeAll (b := h.line.board.bare) (texts.map Order.ofText)
    rwa [hcarried] at hall
  obtain ⟨b', lines, hrun, _, _, hsession', hreports, hout', hfree⟩ := reportStatus_of_radio b hplain₀
  have horder : Order.ofText Verb.status.word = .status := by decide
  have hexecute : b.execute (.ofText Verb.status.word) = (b', none) := by
    rw [horder]
    exact hrun
  have hends : Request.status.FreeOfLineEnds := Request.freeOfLineEnds_of_texts_nil rfl
  have hreply := hl.reply hcarried k .status Verb.status.word Verb.fast rfl hends rfl hu
  rcases hreply with ⟨crash, _, hcrash, _⟩ | ⟨waited', own, more, left', h₁, hr, hquery, hwritten, hrejoined⟩
  · rw [hexecute] at hcrash
    cases hcrash
  · have hanswer : (answer (.ofText Verb.status.word) b).1 = Utf8.encodeLines lines := by
      have hprinted := (execute_answer (.ofText Verb.status.word) b).1
      rw [hexecute, hout'] at hprinted
      exact (List.append_cancel_left hprinted).symm
    obtain rfl : waited' = waited := hr.waited_eq (fun t ht => (hwaited t ht).1) hout
    obtain rfl : own = lines := hr.own_eq hfree hanswer
    obtain ⟨rfl, rfl⟩ := hr.alone (by rw [hexecute]; exact hsession'.trans hsession₀)
    have hbefore : ∀ t ∈ left ++ waited', StatusLine.ofText (trim t) ≠ .overlong := by
      refine List.forall_mem_append.mpr ⟨hshort, fun t ht hoverlong => ?_⟩
      cases ((hwaited t ht).2 : StatusLine.ofText (trim t) = .other).symm.trans hoverlong
    obtain ⟨s, hs, hup⟩ := exists_status_of_reports b'.radio _ own hreports hbefore
    have hrecords := Client.records_query k .status h.recorded
    rw [hquery, List.append_nil] at hrecords
    obtain ⟨journal, hstatus⟩ := Client.status_of_query_eq k h h₁.unrecorded _ s hrecords hs
    have hlast : h₁.line.line.board.radio = b'.radio := by
      rw [hr.idled.radio, hexecute]
    refine ⟨s, _, hstatus, ?_, hr.links.of_alike ⟨rfl, rfl, rfl⟩, ?_, hwritten, hrejoined⟩
    · rw [hup, ← hlast]
      rfl
    · rw [hl.radioAtStatus hcarried]
      exact hlast.trans (congrArg (fun run => run.1.radio) hrun).symm

/-! ## The join -/

section

variable {σ : Type} [SerialLine σ τ] (k : Link τ) (ssid password : Text) {h h₁ : Host σ}
  {lines : List Text} {line : Text}

theorem connect_of_ok (hquery : Client.query k (.connect ssid password) h = .ok lines h₁)
    (hverdict : Verdict.ofLines "OK:Connected".toList lines = .ok line) :
    Client.connect k ssid password h = .ok () { h₁ with journal := .joined ssid :: h₁.journal } := by
  have hperform : Client.perform k .connection (.connect ssid password) h = .ok () h₁ := by
    rw [perform_of_query k _ _ hquery]
    simp only [Request.verb, Verb.success?, Option.getD_some, hverdict, judge]
  exact Call.bind_of_ok hperform

theorem connect_of_error (hquery : Client.query k (.connect ssid password) h = .ok lines h₁)
    (hverdict : Verdict.ofLines "OK:Connected".toList lines = .error line) :
    Client.connect k ssid password h =
      .error (.refused .connection line)
        { h₁ with journal := .failed (.refused .connection line) :: h₁.journal } := by
  refine Call.bind_of_error ?_
  rw [perform_of_query k _ _ hquery]
  simp only [Request.verb, Verb.success?, Option.getD_some, hverdict, judge]

end

/-- A join over a drained link comes to what the radio has come to, in success and in failure. -/
theorem Links.join {h : Host (WiredLine τ)} (hl : Links [] [] h) (k : Link τ) (ssid password : Text)
    (hends : (Request.connect ssid password).FreeOfLineEnds) (hname : contains Mark.error ssid = false)
    (hu : Uncut k (.connect ssid password) h) :
    ∃ h' : Host (WiredLine τ),
      h'.line.written = h.line.written ++
        Utf8.encodeLine ("CONNECT:".toList ++ (ssid ++ ':' :: password)) ∧
      h'.rejoined = h.rejoined ∧
      Client.connect k ssid password h =
        if h'.line.board.radio.network?.isSome then .ok () h'
        else .error (.refused .connection "ERROR:Connection failed".toList) h' := by
  obtain ⟨name, rest, hcolon, hstart, horder⟩ := Order.ofText_join ssid password
  obtain ⟨lines, h₁, hquery, htold⟩ := hl.told_join k ssid password hends hu hcolon hstart horder
  have hafter : h₁.line.line.board.radio = h.line.board.radio.joined name rest :=
    htold.idled.radio.trans (congrArg Board.radio (connect_eq name rest _))
  have herror : contains Mark.error name = false := not_contains_of_isInfix hstart.isInfix hname
  have hverdict : Verdict.ofLines "OK:Connected".toList lines =
      if h₁.line.line.board.radio.network?.isSome then .ok "OK:Connected".toList
      else .error "ERROR:Connection failed".toList := by
    rw [htold.verdict, ofLines_joinHead _ _ _ hcolon, Radio.joinTelling, herror, hafter]
    rfl
  have hrecords := Client.records_query k (.connect ssid password) h.recorded
  rw [hquery] at hrecords
  cases hup : h₁.line.line.board.radio.network?.isSome with
  | true =>
    rw [if_pos hup] at hverdict
    refine ⟨{ h₁.unrecorded with journal := .joined ssid :: h₁.journal }, htold.written, htold.rejoined, ?_⟩
    exact (connect_of_ok k ssid password hrecords hverdict).trans (if_pos hup).symm
  | false =>
    have hdown : ¬ h₁.line.line.board.radio.network?.isSome = true := by simp [hup]
    rw [if_neg hdown] at hverdict
    refine ⟨{ h₁.unrecorded with
      journal := .failed (.refused .connection "ERROR:Connection failed".toList) :: h₁.journal },
      htold.written, htold.rejoined, ?_⟩
    exact (connect_of_error k ssid password hrecords hverdict).trans (if_neg hdown).symm

/-! ## The check -/

namespace Monitor

section

variable {σ : Type} [SerialLine σ τ]

theorem rejoin_of_ok (k : Link τ) (c : Credentials) {h h₁ : Host σ}
    (hjoin : Client.connect k c.ssid c.password h = .ok () h₁) :
    rejoin k c h = .ok true { h₁ with rejoined := h₁.rejoined + 1, journal := .rejoined :: h₁.journal } := by
  have hvalue : (Client.connect k c.ssid c.password).orLinkFailure h = .ok (.ok ()) h₁ := by
    rw [Call.orLinkFailure, hjoin]
  rw [rejoin, Call.bind_of_ok hvalue]
  rfl

theorem rejoin_of_linkFailure (k : Link τ) (c : Credentials) {h h₁ : Host σ} {f : Failure}
    (hjoin : Client.connect k c.ssid c.password h = .error f h₁) (hf : f.isLink = true) :
    rejoin k c h = .ok false { h₁ with journal := .rejoinFailed f :: h₁.journal } := by
  have hvalue : (Client.connect k c.ssid c.password).orLinkFailure h = .ok (.error f) h₁ := by
    rw [Call.orLinkFailure, hjoin]
    exact if_pos hf
  rw [rejoin, Call.bind_of_ok hvalue]
  rfl

theorem check_of_status (k : Link τ) (c : Credentials) {h h₁ : Host σ} {s : Status}
    (hstatus : Client.status k h = .ok s h₁) :
    check k c h =
      if s.connected then .ok true { h₁ with journal := .linkUp s :: h₁.journal }
      else rejoin k c { h₁ with journal := .linkLost :: h₁.journal } := by
  have hvalue : (Client.status k).orLinkFailure h = .ok (.ok s) h₁ := by
    rw [Call.orLinkFailure, hstatus]
  rw [check, Call.bind_of_ok hvalue]
  cases hup : s.connected with
  | true => simp only [hup]; rfl
  | false => simp only [hup]; rfl

end

theorem exists_rejoin {h : Host (WiredLine τ)} (hl : Links [] [] h) (k : Link τ) (c : Credentials)
    (hends : (Request.connect c.ssid c.password).FreeOfLineEnds)
    (hname : contains Mark.error c.ssid = false) (hu : Uncut k (.connect c.ssid c.password) h) :
    ∃ up h', rejoin k c h = .ok up h' ∧ up = h'.line.board.radio.network?.isSome ∧
      h'.line.written = h.line.written ++
        Utf8.encodeLine ("CONNECT:".toList ++ (c.ssid ++ ':' :: c.password)) ∧
      h'.rejoined = h.rejoined + if up then 1 else 0 := by
  obtain ⟨h', hwritten, hrejoined, hjoin⟩ := hl.join k c.ssid c.password hends hname hu
  cases hup : h'.line.board.radio.network?.isSome with
  | true =>
    rw [if_pos hup] at hjoin
    exact ⟨true, _, rejoin_of_ok k c hjoin, hup.symm, hwritten, congrArg (· + 1) hrejoined⟩
  | false =>
    rw [if_neg (by simp [hup])] at hjoin
    exact ⟨false, _, rejoin_of_linkFailure k c hjoin rfl, hup.symm, hwritten, hrejoined⟩

/-- The window of the status is not cut short, nor that of the join if there is one. -/
structure UncutCheck (k : Link τ) (c : Credentials) (h : Host (WiredLine τ)) : Prop where
  status : Uncut k .status h
  join : ∀ s h₁, Client.status k h = .ok s h₁ → s.connected = false →
    Uncut k (.connect c.ssid c.password) { h₁ with journal := .linkLost :: h₁.journal }

/-- On any host in use without a session, a check whose windows are not cut short comes to an end, and
says that the link is up if and only if the radio is. Only a status request is written if that request
finds the radio up, at the latest by its own poll; otherwise one join follows, which is counted if it
succeeds. This needs that no line left on the link has a number too long to be read. -/
theorem check_says_whether_radio_is_up (k : Link τ) (c : Credentials) (h : Host (WiredLine τ))
    (hused : Used k false h) (hheld : h.held = true) (hsession : h.line.board.session = none)
    (hradio : h.line.board.radio.Plain) (hends : (Request.connect c.ssid c.password).FreeOfLineEnds)
    (hname : contains Mark.error c.ssid = false)
    (hshort : ∀ left, h.line.Holds left → ∀ t ∈ left, StatusLine.ofText (trim t) ≠ .overlong)
    (huncut : UncutCheck k c h) :
    ∃ up h', check k c h = .ok up h' ∧ up = h'.line.board.radio.network?.isSome ∧
      if h.line.board.radioAtStatus.network?.isSome then
        up = true ∧ h'.line.written = h.line.written ++ Utf8.encodeLines [Verb.status.word] ∧
          h'.rejoined = h.rejoined
      else
        h'.line.written = h.line.written ++ Utf8.encodeLines
          [Verb.status.word, "CONNECT:".toList ++ (c.ssid ++ ':' :: c.password)] ∧
          h'.rejoined = h.rejoined + if up then 1 else 0 := by
  obtain ⟨texts, left, hl, hquiet⟩ := hused.sound hheld
  obtain ⟨s, h₁, hstatus, hconnected, hinformed⟩ := hl.status k (fun t ht => hquiet t ht rfl)
    (hshort left hl.holds) hsession hradio huncut.status
  have hcheck := check_of_status k c hstatus
  rw [hinformed.radio] at hconnected
  cases hup : s.connected with
  | true =>
    rw [hup] at hconnected
    rw [if_pos hup] at hcheck
    refine ⟨true, _, hcheck, ?_, ?_⟩
    · rw [hconnected]
      exact congrArg (·.network?.isSome) hinformed.radio.symm
    · rw [if_pos hconnected.symm, Utf8.encodeLines_singleton]
      exact ⟨rfl, hinformed.written, hinformed.rejoined⟩
  | false =>
    have hdown : ¬ h.line.board.radioAtStatus.network?.isSome = true := by simp [← hconnected, hup]
    rw [if_neg (by simp [hup])] at hcheck
    have hlinks : Links [] [] { h₁ with journal := .linkLost :: h₁.journal } :=
      hinformed.links.of_alike ⟨rfl, rfl, rfl⟩
    obtain ⟨up, h', hrejoin, hresult, hwritten, hcount⟩ := exists_rejoin hlinks k c hends hname
      (huncut.join s h₁ hstatus hup)
    refine ⟨up, h', hcheck.trans hrejoin, hresult, ?_⟩
    rw [if_neg hdown, Utf8.encodeLines_cons, Utf8.encodeLines_singleton, ← List.append_assoc]
    exact ⟨hwritten.trans (congrArg (· ++ _) hinformed.written),
      hcount.trans (congrArg (· + _) hinformed.rejoined)⟩

theorem check_says_whether_radio_is_up_at_leaving :
    leaving.line.board.radioAtStatus.network? = none ∧
    ∃ h', check steadyLink ⟨"Home".toList, "pw".toList⟩ leaving = .ok true h' ∧
      h'.line.board.radio.network?.isSome = true ∧
      h'.line.written = leaving.line.written ++ Utf8.encodeLines
        ["STATUS".toList, "CONNECT:Home:pw".toList] ∧
      h'.rejoined = 1 := by
  have hdown : leaving.line.board.radioAtStatus.network? = none := by decide +kernel
  have hplain : leaving.line.board.radio.Plain := by
    refine ⟨?_, fun n hn => by cases hn⟩
    have hnetworks : leaving.line.board.radio.networks = [home, awkward] := rfl
    rw [hnetworks]
    exact List.forall_mem_cons.mpr ⟨⟨by decide, by decide, by decide⟩,
      List.forall_mem_singleton.mpr ⟨by decide, by decide, by decide⟩⟩
  have hshort (left : List Text) (hleft : leaving.line.Holds left) :
      ∀ t ∈ left, StatusLine.ofText (trim t) ≠ .overlong := by
    have hbanner : leaving.line.received ++ leaving.line.board.output = Utf8.encodeLines banner := by
      decide +kernel
    obtain rfl : left = banner :=
      Utf8.encodeLines_inj _ _ hleft.2 (by decide) (hleft.1.symm.trans hbanner)
    decide
  have huncut : UncutCheck steadyLink ⟨"Home".toList, "pw".toList⟩ leaving := by
    refine ⟨fun _ _ => by decide +kernel, fun s h₁ hstatus _ => ?_⟩
    obtain rfl : (Client.status steadyLink).after leaving = h₁ := by rw [Call.after, hstatus]; rfl
    exact fun _ _ => by decide +kernel
  obtain ⟨up, h', hrun, hup, hrest⟩ := check_says_whether_radio_is_up steadyLink
    ⟨"Home".toList, "pw".toList⟩ leaving (used_leaving false) (by decide +kernel) (by decide +kernel) hplain
    (by unfold Request.FreeOfLineEnds; decide) (by decide) hshort huncut
  have hjoined : (check steadyLink ⟨"Home".toList, "pw".toList⟩).outcome leaving = .ok true := by
    decide +kernel
  rw [Call.outcome, hrun] at hjoined
  obtain rfl := Except.ok.inj hjoined
  rw [hdown] at hrest
  exact ⟨hdown, h', hrun, hup.symm, hrest⟩

end Monitor

end StationLink.Host
