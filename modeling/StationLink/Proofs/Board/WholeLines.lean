import StationLink.Proofs.Board.Around
import StationLink.Proofs.Board.Outcomes

/-!
# Whole lines

Whatever names, addresses, fields and data hold, a board prints whole lines: so does each order, also if
a crash cuts it short, and so does the forwarding. On the way it is said which parts of the board an
order can change at all.
-/

namespace StationLink.Board

open Text Protocol

/-- Texts have been printed since, each with a line feed behind it. -/
def Adds (b b' : Board) : Prop :=
  ∃ texts, b'.output = b.output ++ Utf8.encodeLines texts

namespace Adds

variable {a b c : Board}

theorem of_eq (h : b.output = a.output) : Adds a b :=
  ⟨[], by simp [h, Utf8.encodeLines]⟩

theorem trans (h : Adds a b) (h' : Adds b c) : Adds a c := by
  obtain ⟨texts, hb⟩ := h
  obtain ⟨more, hc⟩ := h'
  exact ⟨texts ++ more, by rw [hc, hb, Utf8.encodeLines_append, List.append_assoc]⟩

theorem line (h : Adds a b) (text : Text) : Adds a (b.printLine text) := by
  refine h.trans ⟨[text], ?_⟩
  rw [printLine_eq, Utf8.encodeLines_singleton]

/-- A text that has line feeds of its own is several lines. -/
theorem lines (h : Adds a b) :
    ∃ lines, b.output = a.output ++ Utf8.encodeLines lines ∧ ∀ t ∈ lines, '\n' ∉ t := by
  obtain ⟨texts, hb⟩ := h
  obtain ⟨lines, hlines, hfree⟩ := Utf8.exists_lines texts
  exact ⟨lines, by rw [hb, hlines], hfree⟩

end Adds

/-! ## Orders about WiFi -/

/-- What orders about WiFi can make of a board: dialer and session stay, and the radio is on to a network
of its own if to any. -/
structure ByRadio (b b' : Board) : Prop where
  dialer : b'.dialer = b.dialer
  session : b'.session = b.session
  radio : ∀ P networks, (∀ n ∈ networks, P n) → b.radio.Onto P networks → b'.radio.Onto P networks
  adds : Adds b b'

namespace ByRadio

variable {a b c : Board}

theorem refl (b : Board) : ByRadio b b :=
  ⟨rfl, rfl, fun _ _ _ h => h, .of_eq rfl⟩

theorem trans (h : ByRadio a b) (h' : ByRadio b c) : ByRadio a c where
  dialer := h'.dialer.trans h.dialer
  session := h'.session.trans h.session
  radio P networks hP hr := h'.radio P networks hP (h.radio P networks hP hr)
  adds := h.adds.trans h'.adds

theorem line (h : ByRadio a b) (text : Text) : ByRadio a (b.printLine text) :=
  ⟨h.dialer, h.session, h.radio, h.adds.line text⟩

end ByRadio

theorem byRadio_connect (ssid password : Text) (b : Board) : ByRadio b (b.connect ssid password) := by
  have honto := b.radio.onto_joined ssid password
  rw [connect_eq]
  refine ⟨rfl, rfl, ?_, ⟨_, rfl⟩⟩
  intro P networks hP hr
  refine ⟨honto.networks.trans hr.networks, ?_⟩
  intro n hn
  have hmem : n ∈ b.radio.networks := List.mem_of_find?_eq_some (honto.association n hn)
  exact hP n (hr.networks ▸ hmem)

theorem byRadio_disconnect (b : Board) : ByRadio b b.disconnect := by
  have hleave : ByRadio b { b with radio := b.radio.leave, wifi := .idle } :=
    ⟨rfl, rfl, fun _ _ _ hr => hr.leave, .of_eq rfl⟩
  exact hleave.line _

theorem byRadio_noticeLoss (b : Board) : ByRadio b b.noticeLoss.2 := by
  rw [noticeLoss_snd]
  exact ⟨rfl, rfl, fun _ _ _ hr => hr.poll, .of_eq rfl⟩

theorem byRadio_reportAddress (b : Board) : ByRadio b b.reportAddress := by
  obtain ⟨wifi, heq⟩ := reportAddress_eq b
  rw [heq]
  exact ⟨rfl, rfl, fun _ _ _ hr => hr.poll, [_], by rw [Utf8.encodeLines_singleton]⟩

/-- A signal without a numeral cuts the report before its last line. -/
theorem byRadio_reportStatus (b : Board) : ByRadio b b.reportStatus.1 := by
  have hloss := byRadio_noticeLoss b
  simp only [reportStatus]
  split
  · have hthree := ((hloss.line (Mark.status ++ Mark.connected)).line
      (Mark.ssid ++ b.noticeLoss.2.radio.ssid)).line (Mark.ip ++ b.noticeLoss.2.radio.ip)
    split
    · exact hthree.line _
    · exact hthree
  · exact hloss.line _

theorem byRadio_printSurvey (networks : List Network) (b : Board) :
    ByRadio b (printSurvey networks b).1 := by
  induction networks generalizing b with
  | nil => exact .refl b
  | cons n networks ih =>
    simp only [printSurvey]
    split
    · exact ((ByRadio.refl b).line _).trans (ih _)
    · exact .refl b

theorem byRadio_reportSurvey (b : Board) : ByRadio b b.reportSurvey.1 := by
  simp only [reportSurvey]
  split
  · exact ((ByRadio.refl b).line _).line _
  · exact (((ByRadio.refl b).line _).line _).trans (byRadio_printSurvey _ _)

/-! ## Orders about TCP -/

/-- What orders about TCP can make of a board: its radio stays, and what it takes it for. -/
structure ByWire (b b' : Board) : Prop where
  radio : b'.radio = b.radio
  wifi : b'.wifi = b.wifi
  adds : Adds b b'

theorem byWire_tcpConnect (host : Text) (port : Int) (b : Board) :
    ByWire b (b.tcpConnect host port).1 := by
  cases hnumber : Numeral.write? port with
  | none =>
    simp only [tcpConnect, hnumber]
    exact ⟨rfl, rfl, .of_eq rfl⟩
  | some number =>
    rcases tcpConnect_spec host port number b hnumber with
      ⟨_, _, _, hspec, _⟩ | ⟨_, _, _, hspec⟩ | ⟨_, _, hspec⟩
    all_goals
      rw [hspec]
      exact ⟨rfl, rfl, _, rfl⟩

theorem byWire_tcpSend (data : Text) (b : Board) : ByWire b (b.tcpSend data) := by
  rcases tcpSend_spec data b with ⟨_, _, _, hspec, _⟩ | ⟨_, hspec, _⟩
  all_goals
    rw [hspec]
    exact ⟨rfl, rfl, _, rfl⟩

theorem byWire_tcpClose (b : Board) : ByWire b b.tcpClose := by
  rcases tcpClose_spec b with ⟨_, _, hspec⟩ | ⟨_, _, hspec⟩
  all_goals
    rw [hspec]
    exact ⟨rfl, rfl, _, rfl⟩

theorem byWire_forward (b : Board) : ByWire b b.forward := by
  obtain ⟨dialer, session, texts, heq, _⟩ := forward_spec b
  rw [heq]
  exact ⟨rfl, rfl, texts, rfl⟩

/-! ## All orders -/

theorem byRadio_or_byWire (o : Order) (b : Board) :
    ByRadio b (b.execute o).1 ∨ ByWire b (b.execute o).1 := by
  cases o with
  | connect ssid password => exact .inl (byRadio_connect ssid password b)
  | connectWithoutPassword => exact .inl ((ByRadio.refl b).line _)
  | status => exact .inl (byRadio_reportStatus b)
  | scan => exact .inl (byRadio_reportSurvey b)
  | disconnect => exact .inl (byRadio_disconnect b)
  | tcpConnect host port => exact .inr (byWire_tcpConnect host port b)
  | tcpConnectWithoutHost => exact .inl ((ByRadio.refl b).line _)
  | tcpSend data => exact .inr (byWire_tcpSend data b)
  | tcpClose => exact .inr (byWire_tcpClose b)
  | address => exact .inl (byRadio_reportAddress b)
  | unknown line => exact .inl ((ByRadio.refl b).line _)

theorem adds_execute (o : Order) (b : Board) : Adds b (b.execute o).1 := by
  rcases byRadio_or_byWire o b with h | h
  · exact h.adds
  · exact h.adds

theorem onto_execute {P : Network → Prop} {networks : List Network} (hP : ∀ n ∈ networks, P n)
    (o : Order) (b : Board) (h : b.radio.Onto P networks) : (b.execute o).1.radio.Onto P networks := by
  rcases byRadio_or_byWire o b with hrun | hrun
  · exact hrun.radio P networks hP h
  · rw [hrun.radio]
    exact h

/-- What each order keeps, a run of them keeps. -/
theorem executeAll_keeps {I : Board → Prop} (orders : List Order) (b : Board) (h : I b)
    (hstep : ∀ o ∈ orders, ∀ b, I b → I (b.execute o).1) : I (executeAll orders b).1 := by
  induction orders generalizing b with
  | nil => exact h
  | cons o orders ih =>
    have hnext := hstep o List.mem_cons_self b h
    simp only [executeAll]
    rcases hrun : b.execute o with ⟨b', _ | crash⟩
    · rw [hrun] at hnext
      exact ih b' hnext fun o' ho' => hstep o' (List.mem_cons_of_mem o ho')
    · rw [hrun] at hnext
      exact hnext

theorem Radio.Plain.executeAll {b : Board} (h : b.radio.Plain) (orders : List Order) :
    (executeAll orders b).1.radio.Plain := by
  have honto : (Board.executeAll orders b).1.radio.Onto Network.Plain b.radio.networks :=
    executeAll_keeps orders b h.onto fun o _ b' hb' => onto_execute h.networks o b' hb'
  exact honto.plain h.networks

theorem adds_executeAll (orders : List Order) (b : Board) : Adds b (executeAll orders b).1 :=
  executeAll_keeps orders b (.of_eq rfl) fun o _ b' h => h.trans (adds_execute o b')

theorem adds_turn (b : Board) : Adds b b.turn.1 := by
  have hrun := adds_executeAll ((frame b.input).1.map Order.ofBytes)
    { b with input := (frame b.input).2 }
  simp only [turn]
  generalize executeAll _ _ = run at hrun
  rcases run with ⟨b', _ | crash⟩
  · have hall : Adds b b'.forward := Adds.trans hrun (byWire_forward b').adds
    exact hall
  · exact hrun

end StationLink.Board
