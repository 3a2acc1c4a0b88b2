import Mathlib.Data.List.Basic
import StationLink.Proofs.Board.Surveying
import StationLink.Proofs.Host.Leftovers
import StationLink.Proofs.Serial.Reframed

/-!
# What a survey returns

A survey keeps whatever reads as the line of a network, in the order in which the lines come. So it returns
what is read from the board's own lines if no other line of this kind is on the link, neither at hand nor in
the answers to what waits at the board.
-/

namespace StationLink.Board

open Text Protocol

def servedCrash (b : Board) : Option Crash :=
  (executeAll ((frame b.input).1.map Order.ofBytes) { b with input := (frame b.input).2 }).2

theorem served_pieces (requests : List Text) (b : Board) (hinput : b.input = Utf8.encodeLines requests) :
    b.served = (carried (requests.flatMap pieces) b).1.around [] b.output b.rests ∧
      b.servedCrash = (carried (requests.flatMap pieces) b).2 := by
  have hframe : frame b.input = frame (Utf8.encodeLines (requests.flatMap pieces)) := by
    simpa [hinput] using sameFrames_pieces requests []
  obtain ⟨hrest, hrun⟩ := executeAll_frame (requests.flatMap pieces) (sendable_of_mem_flatMap requests)
    { b with input := Utf8.encodeLines (requests.flatMap pieces) } rfl
  change executeAll _ { b with input := [] } = _ at hrun
  constructor
  · rw [served, hframe, hrest, hrun]
    rfl
  · rw [servedCrash, hframe, hrest, hrun]
    rfl

theorem networks_carried (texts : List Text) (b : Board) :
    (carried texts b).1.radio.networks = b.radio.networks :=
  executeAll_keeps (I := fun b' => b'.radio.networks = b.radio.networks) _ _ rfl
    fun o _ b' hb' => (networks_execute o b').trans hb'

end StationLink.Board

namespace StationLink.Host

open Serial Text Protocol Board

variable {τ : Type}

/-- Between two calls: an open port, whole requests that wait at the board, whole lines at hand. -/
structure Between (h : Host (WiredLine τ)) : Prop where
  held : h.held = true
  ready : h.line.Ready
  pending : h.pending = []
  input : ∃ requests, h.line.board.input = Utf8.encodeLines requests
  holds : ∃ left, h.line.Holds left

/-- What waits at the board can be carried out, and leaves no session. No line of a survey is then on the
link. -/
structure Unsurveyed (h : Host (WiredLine τ)) : Prop where
  whole : h.line.board.servedCrash = none
  alone : h.line.board.served.session = none
  lines : ∃ lines, h.line.received ++ h.line.board.served.output = Utf8.encodeLines lines ∧
    ∀ t ∈ lines, '\n' ∉ t ∧ Unlisted t

/-! ## The lines of the window -/

theorem Unsurveyed.carried {h : Host (WiredLine τ)} (hclear : Unsurveyed h) {requests left : List Text}
    (hinput : h.line.board.input = Utf8.encodeLines requests) (hholds : h.line.Holds left) :
    ∃ b waited, Board.carried (requests.flatMap pieces) h.line.board = (b, none) ∧ b.session = none ∧
      b.output = Utf8.encodeLines waited ∧ (∀ t ∈ waited, '\n' ∉ t) ∧ ∀ t ∈ left ++ waited, Unlisted t := by
  obtain ⟨hserved, hcrash⟩ := served_pieces requests h.line.board hinput
  obtain ⟨all, hall, hunlisted⟩ := hclear.lines
  obtain ⟨waited, hwaited, hfree⟩ :=
    (adds_executeAll ((requests.flatMap pieces).map Order.ofText) h.line.board.bare).lines
  have hout : (Board.carried (requests.flatMap pieces) h.line.board).1.output = Utf8.encodeLines waited :=
    hwaited
  have hlines : left ++ waited = all := by
    refine Utf8.encodeLines_inj _ _ (List.forall_mem_append.mpr ⟨hholds.2, hfree⟩)
      (fun t ht => (hunlisted t ht).1) ?_
    rw [← hall, Utf8.encodeLines_append, ← hholds.1, ← hout, hserved, List.append_assoc]
    rfl
  refine ⟨_, waited, Prod.ext rfl (hcrash.symm.trans hclear.whole), ?_, hout, hfree,
    fun t ht => (hunlisted t (hlines ▸ ht)).2⟩
  exact (congrArg Board.session hserved).symm.trans hclear.alone

theorem Between.links {h : Host (WiredLine τ)} (hb : Between h) :
    ∃ requests left line, h.line.board.input = Utf8.encodeLines requests ∧ h.line.Holds left ∧
      line.board.bare = h.line.board.bare ∧ Reframed h.line line ∧
      Links (requests.flatMap pieces) left (h.onLine line) := by
  obtain ⟨requests, hinput⟩ := hb.input
  obtain ⟨left, hholds⟩ := hb.holds
  refine ⟨requests, left, { h.line with
    board := { h.line.board with input := Utf8.encodeLines (requests.flatMap pieces) } }, hinput, hholds,
    rfl, ⟨_, rfl, hinput ▸ sameFrames_pieces requests⟩, ?_⟩
  exact ⟨hb.held, hb.ready, hb.pending, rfl, sendable_of_mem_flatMap _, hholds⟩

variable [TimeScale τ]

theorem Uncut.onLine {k : Link τ} {r : Request} {h : Host (WiredLine τ)} (hu : Uncut k r h)
    {line : WiredLine τ} (hline : Reframed h.line line) : Uncut k r (h.onLine line) := by
  intro hsome hwindow
  rw [reads_query_onLine indistinct_reframed k r h line hline,
    (query_onLine indistinct_reframed k r h line hline).1]
  exact hu hsome hwindow

theorem answer_survey (b : Board) (networks : List Network) (hnetworks : b.radio.networks = networks)
    (hlist : ∀ n ∈ networks, n.Listable) :
    ∃ head lines, answer .scan b = (Utf8.encodeLines (head ++ lines), none) ∧
      networks.map surveyLine? = lines.map some ∧ (∀ t ∈ head ++ lines, '\n' ∉ t) ∧
      ∀ t ∈ head, Unlisted t := by
  obtain ⟨lines, hlines, hfree⟩ := exists_surveyLines networks hlist
  obtain ⟨head, hreport, hhead⟩ := reportSurvey_eq b.bare lines (hnetworks ▸ hlines)
  refine ⟨head, lines, ?_, hlines, List.forall_mem_append.mpr ⟨fun t ht => (hhead t ht).1, hfree⟩,
    fun t ht => (hhead t ht).2⟩
  rw [answer, execute, hreport]
  rfl

theorem Between.outcome_query {h : Host (WiredLine τ)} (hb : Between h) (hclear : Unsurveyed h)
    (k : Link τ) (hlist : ∀ n ∈ h.line.board.radio.networks, n.Listable) (hu : Uncut k .scan h) :
    ∃ before lines, (Client.query k .scan).outcome h = .ok (shown (before ++ lines)) ∧
      h.line.board.radio.networks.map surveyLine? = lines.map some ∧ ∀ t ∈ before, Unlisted t := by
  obtain ⟨requests, left, line, hinput, hholds, hbare, hsame, hl⟩ := hb.links
  obtain ⟨b, waited, hcarried, hsession, hout, hfree, hunlisted⟩ := hclear.carried hinput hholds
  have hnetworks : b.radio.networks = h.line.board.radio.networks := by
    have hkept := networks_carried (requests.flatMap pieces) h.line.board
    rwa [hcarried] at hkept
  obtain ⟨head, lines, hanswer, hlines, hfree', hhead⟩ := answer_survey b _ hnetworks hlist
  have horder : Order.ofText Verb.scan.word = .scan := by decide
  have hends : Request.scan.FreeOfLineEnds := Request.freeOfLineEnds_of_texts_nil rfl
  rcases hl.reply ((carried_of_bare hbare _).trans hcarried) k .scan Verb.scan.word _ rfl hends rfl
    (hu.onLine hsame) with ⟨crash, _, hc, _⟩ | ⟨waited', own, more, left', h', hreply, hrun, _⟩
  · rw [horder, (execute_answer .scan b).2, hanswer] at hc
    cases hc
  · rw [horder] at hreply
    obtain ⟨rfl, _⟩ := hreply.alone ((byRadio_reportSurvey b).session.trans hsession)
    obtain rfl := hreply.waited_eq hfree hout
    obtain rfl := hreply.own_eq hfree' (congrArg Prod.fst hanswer)
    refine ⟨left ++ waited' ++ head, lines, ?_, hlines, List.forall_mem_append.mpr ⟨hunlisted, hhead⟩⟩
    have hrecorded := (Client.records_query k .scan).outcome (h.onLine line)
    rw [← (query_onLine indistinct_reframed k .scan h line hsame).1, hrecorded, Call.outcome, hrun,
      List.append_nil, List.append_assoc (left ++ waited')]

/-- On a host between two calls, suppose that what waits at the board is carried out without a crash, leaves
no session, and that no line of a survey is on the link then; that each network can be listed in one line;
and that the window stays open until a read brings no line. Then a survey returns, network by network, what
is read from the line of the network, skipping lines that do not parse; and such a line is read back to the
record of its network if and only if the name has no colon. -/
theorem survey_reads_each_network_back (k : Link τ) (h : Host (WiredLine τ)) (hb : Between h)
    (hclear : Unsurveyed h) (hlist : ∀ n ∈ h.line.board.radio.networks, n.Listable)
    (hu : Uncut k .scan h) :
    (Client.survey k).outcome h = .ok (h.line.board.radio.networks.filterMap Network.sighting?) ∧
    (∀ n ∈ h.line.board.radio.networks, (n.sighting? = some n.record ↔ ':' ∉ n.ssid)) ∧
    ((∀ n ∈ h.line.board.radio.networks, ':' ∉ n.ssid) →
      (Client.survey k).outcome h = .ok (h.line.board.radio.networks.map Network.record)) := by
  have hsurvey :
      (Client.survey k).outcome h = .ok (h.line.board.radio.networks.filterMap Network.sighting?) := by
    obtain ⟨before, lines, hquery, hlines, hbefore⟩ := hb.outcome_query hclear k hlist hu
    have hread : survey? (shown before ++ shown lines) =
        some (h.line.board.radio.networks.filterMap Network.sighting?) := by
      rw [survey?_append, survey?_of_unlisted before hbefore, survey?_of_listed _ lines hlist hlines]
      rfl
    rw [outcome_survey, hquery, shown_append]
    simp only [Except.bind, hread]
  refine ⟨hsurvey, fun n hn => sighting?_eq_record_iff (hlist n hn), fun hplain => ?_⟩
  have hrecords : h.line.board.radio.networks.filterMap Network.sighting? =
      h.line.board.radio.networks.map Network.record :=
    List.filterMap_eq_map_iff_forall_eq_some.mpr fun n hn =>
      (sighting?_eq_record_iff (hlist n hn)).mpr (hplain n hn)
  rw [hsurvey, hrecords]

/-! ## Links with more on them -/

def neighbours : List Network :=
  [home, cafe, { ssid := "a:-5:b".toList, rssi := 7 }, { ssid := ":x".toList, rssi := -90 }, home,
    { ssid := [], rssi := -1000 }]

def surrounded : Host (WiredLine Millis) :=
  (Client.call steadyLink (.tcpSend "x\r\n\nDISCONNECT".toList)).after
    ((Client.start steadyLink).after
      { line := { clock := .start ⟨0⟩, board := boot neighbours [], paced := true } })

theorem survey_reads_each_network_back_of_surrounded :
    Between surrounded ∧ Unsurveyed surrounded ∧ (∀ n ∈ surrounded.line.board.radio.networks, n.Listable) ∧
    Uncut steadyLink .scan surrounded ∧
    (Client.survey steadyLink).outcome surrounded = .ok
      [home.record, cafe.record, ⟨"a".toList, -5, false⟩, home.record, ⟨[], -1000, false⟩] := by
  have hbetween : Between surrounded :=
    ⟨by decide +kernel, by unfold WiredLine.Ready; decide +kernel, by decide +kernel,
      ⟨["TCPSEND:x\r\n\nDISCONNECT".toList], by decide +kernel⟩,
      ⟨banner, by unfold WiredLine.Holds; decide +kernel⟩⟩
  have hclear : Unsurveyed surrounded :=
    ⟨by decide +kernel, by decide +kernel, banner ++ ["ERROR:Not connected".toList, "OK:Disconnected".toList],
      by decide +kernel⟩
  have hlist : ∀ n ∈ surrounded.line.board.radio.networks, n.Listable := by decide +kernel
  have huncut : Uncut steadyLink .scan surrounded := fun _ _ => by decide +kernel
  obtain ⟨hsurvey, _⟩ := survey_reads_each_network_back steadyLink surrounded hbetween hclear hlist huncut
  refine ⟨hbetween, hclear, hlist, huncut, hsurvey.trans ?_⟩
  decide +kernel

def unheard (text : Text) (plans : List Plan) : Host (WiredLine Millis) :=
  (Client.sendLine steadyLink text).after
    ((Client.start steadyLink).after
      { line := { clock := .start ⟨0⟩, board := boot [home] plans, paced := true } })

def forging : Plan :=
  .answer { inbox := (PeerEvent.chunk? (Utf8.encode "x\nNETWORK:Free:-1:OPEN".toList)).toList }

/-- It is not enough that no line of a survey is at hand and that there is no session yet. Where another
survey was asked for and not read, the networks are returned twice; where a call was, its peer can add one. -/
theorem waiting_request_adds_to_survey :
    (home.Listable ∧ ':' ∉ home.ssid ∧ ∀ t ∈ banner, Unlisted t) ∧
    (Between (unheard "SCAN".toList []) ∧ (unheard "SCAN".toList []).line.Holds banner ∧
      (unheard "SCAN".toList []).line.board.session = none ∧
      (unheard "SCAN".toList []).line.board.radio.networks = [home] ∧
      Uncut steadyLink .scan (unheard "SCAN".toList []) ∧
      (Client.survey steadyLink).outcome (unheard "SCAN".toList []) = .ok [home.record, home.record]) ∧
    (Between (unheard "TCPCONNECT:h:1".toList [forging]) ∧
      (unheard "TCPCONNECT:h:1".toList [forging]).line.Holds banner ∧
      (unheard "TCPCONNECT:h:1".toList [forging]).line.board.session = none ∧
      (unheard "TCPCONNECT:h:1".toList [forging]).line.board.radio.networks = [home] ∧
      Uncut steadyLink .scan (unheard "TCPCONNECT:h:1".toList [forging]) ∧
      (Client.survey steadyLink).outcome (unheard "TCPCONNECT:h:1".toList [forging]) =
        .ok [home.record, ⟨"Free".toList, -1, false⟩]) := by
  have hholds : (unheard "SCAN".toList []).line.Holds banner := by
    unfold WiredLine.Holds
    decide +kernel
  have hholds' : (unheard "TCPCONNECT:h:1".toList [forging]).line.Holds banner := by
    unfold WiredLine.Holds
    decide +kernel
  refine ⟨by decide +kernel, ⟨?_, hholds, by decide +kernel, by decide +kernel, ?_, by decide +kernel⟩,
    ⟨?_, hholds', by decide +kernel, by decide +kernel, ?_, by decide +kernel⟩⟩
  · exact ⟨by decide +kernel, by unfold WiredLine.Ready; decide +kernel, by decide +kernel,
      ⟨["SCAN".toList], by decide +kernel⟩, ⟨banner, hholds⟩⟩
  · exact fun _ _ => by decide +kernel
  · exact ⟨by decide +kernel, by unfold WiredLine.Ready; decide +kernel, by decide +kernel,
      ⟨["TCPCONNECT:h:1".toList], by decide +kernel⟩, ⟨banner, hholds'⟩⟩
  · exact fun _ _ => by decide +kernel

end StationLink.Host
