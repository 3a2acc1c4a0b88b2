import StationLink.Proofs.Board.Answers
import StationLink.Proofs.Board.Tame

/-!
# Carrying out what waits

The texts that wait at a board are carried out in its next turn, with an outcome that does not depend on
what is on the link. After that turn the board is idle: its turns only forward, which bears neither on
the radio nor on the plans of the dialer, and so not on how a join, a call or a question for the address
is answered later.
-/

namespace StationLink.Board

open Text Protocol

/-- The board with nothing on its link and no rest in the past. -/
def bare (b : Board) : Board :=
  { b with input := [], output := [], rests := [] }

theorem around_bare (b : Board) (input : Bytes) :
    b.bare.around input b.output b.rests = { b with input } := by
  simp [bare, around]

/-- Texts carried out by a board with nothing on its link. -/
def carried (texts : List Text) (b : Board) : Board × Option Crash :=
  executeAll (texts.map Order.ofText) b.bare

theorem carried_of_bare {b b' : Board} (h : b'.bare = b.bare) (texts : List Text) :
    carried texts b' = carried texts b := by
  rw [carried, carried, h]

theorem input_carried (texts : List Text) (b : Board) : (carried texts b).1.input = [] :=
  input_executeAll _ _

theorem carried_snoc (texts : List Text) (text : Text) (b b₁ : Board)
    (h : carried texts b = (b₁, none)) :
    carried (texts ++ [text]) b = b₁.execute (.ofText text) := by
  rw [carried, List.map_append, executeAll_append]
  rw [carried] at h
  rw [h, List.map_singleton]
  simp only [executeAll]
  rcases b₁.execute (.ofText text) with ⟨b₂, _ | crash⟩ <;> rfl

/-- What the board is once it has carried out what waits at it. -/
def served (b : Board) : Board :=
  (executeAll ((frame b.input).1.map Order.ofBytes) { b with input := (frame b.input).2 }).1

section

variable (texts : List Text) (hsendable : ∀ t ∈ texts, Sendable t) (b : Board)
  (hinput : b.input = Utf8.encodeLines texts)

include hsendable hinput

theorem executeAll_frame :
    (frame b.input).2 = [] ∧
      executeAll ((frame b.input).1.map Order.ofBytes) { b with input := [] } =
        ((carried texts b).1.around [] b.output b.rests, (carried texts b).2) := by
  have horders : (texts.map Utf8.encode).map Order.ofBytes = texts.map Order.ofText := by
    simp [Order.ofBytes, Utf8.decode_encode]
  rw [hinput, frame_encodeLines texts hsendable, horders, ← around_bare b [], executeAll_around]
  exact ⟨rfl, rfl⟩

theorem served_eq : b.served = (carried texts b).1.around [] b.output b.rests := by
  obtain ⟨hrest, hrun⟩ := executeAll_frame texts hsendable b hinput
  rw [served, hrest, hrun]

variable (hout : b.output = []) {b₁ : Board}

include hout

theorem turn_of_carried (hrun : carried texts b = (b₁, none)) :
    ∃ rests, b.turn = ({ b₁.forward with rests }, none) := by
  obtain ⟨hrest, hall⟩ := executeAll_frame texts hsendable b hinput
  have hinput₁ : b₁.input = [] := by
    have h := input_carried texts b
    rwa [hrun] at h
  have hforward : (b₁.around [] b.output b.rests).forward = b₁.forward.around [] b.output b.rests :=
    forward_around _ _ _ b₁
  have hsame : b₁.forward.around [] b.output b.rests =
      { b₁.forward with rests := b.rests ++ b₁.forward.rests } := by
    have hleft : b₁.forward.input = [] := (input_forward b₁).trans hinput₁
    rw [hout, around, List.nil_append, ← hleft]
  refine ⟨b.rests ++ b₁.forward.rests ++ [idleRest], ?_⟩
  simp only [turn, hrest, hall, hrun, hforward, hsame]
  rfl

theorem turn_of_crash {crash : Crash} (hrun : carried texts b = (b₁, some crash)) :
    ∃ rests, b.turn = ({ b₁ with rests }, some crash) := by
  obtain ⟨hrest, hall⟩ := executeAll_frame texts hsendable b hinput
  have hinput₁ : b₁.input = [] := by
    have h := input_carried texts b
    rwa [hrun] at h
  have hsame : b₁.around [] b.output b.rests = { b₁ with rests := b.rests ++ b₁.rests } := by
    rw [hout, around, List.nil_append, ← hinput₁]
  refine ⟨b.rests ++ b₁.rests, ?_⟩
  simp only [turn, hrest, hall, hrun, hsame]

end

/-! ## Idle turns -/

/-- What idle turns can make of a board. Without a session they leave it alone. -/
structure Idled (b b' : Board) : Prop where
  radio : b'.radio = b.radio
  wifi : b'.wifi = b.wifi
  plans : b'.dialer.plans = b.dialer.plans
  tame : b.dialer.Tame → b'.dialer.Tame
  alone : b.session = none → b'.session = none ∧ b'.dialer = b.dialer

namespace Idled

variable {a b c : Board}

theorem of_eq (hradio : b.radio = a.radio) (hwifi : b.wifi = a.wifi) (hdialer : b.dialer = a.dialer)
    (hsession : b.session = a.session) : Idled a b :=
  ⟨hradio, hwifi, congrArg Dialer.plans hdialer, fun ht => hdialer ▸ ht,
    fun hs => ⟨hsession.trans hs, hdialer⟩⟩

theorem trans (h : Idled a b) (h' : Idled b c) : Idled a c := by
  refine ⟨h'.radio.trans h.radio, h'.wifi.trans h.wifi, h'.plans.trans h.plans,
    fun ht => h'.tame (h.tame ht), ?_⟩
  intro hs
  obtain ⟨hb, hdialer⟩ := h.alone hs
  obtain ⟨hc, hdialer'⟩ := h'.alone hb
  exact ⟨hc, hdialer'.trans hdialer⟩

theorem forward (b : Board) : Idled b b.forward := by
  have htame := Tame.lasting.forward (b := b)
  obtain ⟨dialer, session, texts, heq, hplans, _, hnone⟩ := forward_spec b
  rw [heq] at htame ⊢
  exact ⟨rfl, rfl, hplans, htame, fun hs => ⟨(hnone hs).2.1, (hnone hs).1⟩⟩

end Idled

/-- Lines that a board may print in idle turns. -/
structure Unasked (b : Board) (lines : List Text) : Prop where
  alone : b.session = none → lines = []
  data : b.dialer.Tame → ∀ t ∈ lines, IsData t

theorem Unasked.append {b b' : Board} {lines more : List Text} (h : Unasked b lines) (hidled : Idled b b')
    (h' : Unasked b' more) : Unasked b (lines ++ more) := by
  constructor
  · intro hs
    rw [h.alone hs, h'.alone (hidled.alone hs).1]
    rfl
  · intro ht
    exact List.forall_mem_append.mpr ⟨h.data ht, h'.data (hidled.tame ht)⟩

theorem output_forward (b : Board) :
    ∃ more, b.forward.output = b.output ++ Utf8.encodeLines more ∧ (∀ t ∈ more, '\n' ∉ t) ∧
      Unasked b more := by
  obtain ⟨dialer, session, texts, heq, _, hdata, hnone⟩ := forward_spec b
  rw [heq]
  obtain ⟨lines, hlines, hfree⟩ := Utf8.exists_lines texts
  refine ⟨lines, by rw [hlines], hfree, ?_, ?_⟩
  · intro hs
    rw [(hnone hs).2.2] at hlines
    exact Utf8.encodeLines_inj lines [] hfree (by simp) hlines
  · intro htame
    -- Tame data has no line feed, so that each text is one line.
    have hwhole : ∀ t ∈ texts, '\n' ∉ t := by
      intro t ht
      obtain ⟨s, rfl⟩ := hdata t ht
      have hbytes := Utf8.not_mem_decode _ (Tame.inbox htame s).drain.1
      simpa using ⟨by decide, hbytes⟩
    obtain rfl := Utf8.encodeLines_inj lines texts hfree hwhole hlines
    intro t ht
    obtain ⟨s, rfl⟩ := hdata t ht
    exact ⟨_, rfl⟩

theorem turn_of_idle (b : Board) (hinput : b.input = []) (hout : b.output = []) :
    ∃ rests, b.turn = ({ b.bare.forward with rests }, none) :=
  turn_of_carried [] (by simp) b hinput hout rfl

/-! ## Answers after idle turns -/

/-- Orders about a network, a call or the address. -/
def Order.Steady : Order → Prop
  | .connect _ _ | .tcpConnect _ _ | .tcpConnectWithoutHost | .address => True
  | _ => False

/-- What an order prints, and the crash that cuts it short. -/
def answer (o : Order) (b : Board) : Bytes × Option Crash :=
  ((b.bare.execute o).1.output, (b.bare.execute o).2)

theorem execute_bare (o : Order) (b : Board) :
    b.execute o = ((b.bare.execute o).1.around b.input b.output b.rests, (b.bare.execute o).2) := by
  have h := execute_around b.input b.output b.rests b.bare o
  rwa [around_bare b b.input] at h

theorem forward_bare (b : Board) : b.forward = b.bare.forward.around b.input b.output b.rests := by
  have h := forward_around b.input b.output b.rests b.bare
  rwa [around_bare b b.input] at h

theorem execute_answer (o : Order) (b : Board) :
    (b.execute o).1.output = b.output ++ (answer o b).1 ∧ (b.execute o).2 = (answer o b).2 := by
  rw [execute_bare]
  exact ⟨rfl, rfl⟩

theorem answer_connect_eq (ssid password : Text) (b : Board) :
    answer (.connect ssid password) b = (Utf8.encodeLines (b.radio.joinLines ssid password), none) := by
  simp only [answer, execute, connect_eq]
  rfl

namespace Idled

variable {b b' : Board}

theorem answer_connect (h : Idled b b') (ssid password : Text) :
    answer (.connect ssid password) b' = answer (.connect ssid password) b := by
  rw [answer_connect_eq, answer_connect_eq, h.radio]

theorem answer_address (h : Idled b b') : answer .address b' = answer .address b := by
  have hradio : b'.bare.radio = b.bare.radio := h.radio
  obtain ⟨_, heq⟩ := reportAddress_eq b.bare
  obtain ⟨_, heq'⟩ := reportAddress_eq b'.bare
  simp only [answer, execute, heq, heq', hradio]
  rfl

theorem answer_tcpConnect (h : Idled b b') (host : Text) (port : Int) :
    answer (.tcpConnect host port) b' = answer (.tcpConnect host port) b := by
  have hnext : b'.bare.dialer.nextPlan = b.bare.dialer.nextPlan := by
    change b'.dialer.plans.head?.getD _ = b.dialer.plans.head?.getD _
    rw [h.plans]
  cases hnumber : Numeral.write? port with
  | none =>
    simp only [answer, execute, tcpConnect, hnumber]
    rfl
  | some number =>
    obtain ⟨houtput, hcrash⟩ := output_tcpConnect host port number b.bare hnumber
    obtain ⟨houtput', hcrash'⟩ := output_tcpConnect host port number b'.bare hnumber
    rw [hnext] at houtput' hcrash'
    simp only [answer, execute, houtput, houtput', hcrash, hcrash']
    rfl

theorem answer_steady (h : Idled b b') (o : Order) (ho : o.Steady) : answer o b' = answer o b := by
  cases o with
  | connect ssid password => exact h.answer_connect ssid password
  | tcpConnect host port => exact h.answer_tcpConnect host port
  | tcpConnectWithoutHost => rfl
  | address => exact h.answer_address
  | _ => exact absurd ho id

end Idled

/-! ## Without a session -/

/-- Orders that are sent and forgotten are answered in one silent line each, and open no session. -/
theorem execute_of_quiet (o : Order) (ho : o.Quiet) (b : Board) (hs : b.session = none) :
    ∃ b' t, b.execute o = (b', none) ∧ b'.session = none ∧
      b'.output = b.output ++ Utf8.encodeLines [t] ∧ '\n' ∉ t ∧ Silent t := by
  cases o with
  | disconnect =>
    refine ⟨_, "OK:Disconnected".toList, rfl, hs, ?_, by decide, by decide⟩
    rw [disconnect, printLine_eq, Utf8.encodeLines_singleton]
  | tcpSend data =>
    rcases tcpSend_spec data b with ⟨s, _, hsome, _⟩ | ⟨dialer, hspec, _⟩
    · cases hs.symm.trans hsome
    · exact ⟨_, _, congrArg (·, none) hspec, rfl, rfl, by decide, by decide⟩
  | tcpClose =>
    rcases tcpClose_spec b with ⟨_, ⟨s, hsome, _⟩, _⟩ | ⟨dialer, _, hspec⟩
    · cases hs.symm.trans hsome
    · exact ⟨_, _, congrArg (·, none) hspec, rfl, rfl, by decide, by decide⟩
  | _ => exact absurd ho id

theorem executeAll_of_quiet (orders : List Order) (horders : ∀ o ∈ orders, o.Quiet) (b : Board)
    (hs : b.session = none) :
    ∃ b' lines, executeAll orders b = (b', none) ∧ b'.session = none ∧
      b'.output = b.output ++ Utf8.encodeLines lines ∧ ∀ t ∈ lines, '\n' ∉ t ∧ Silent t := by
  induction orders generalizing b with
  | nil => exact ⟨b, [], rfl, hs, (List.append_nil _).symm, by simp⟩
  | cons o orders ih =>
    obtain ⟨b₁, t, hrun, hs₁, hout, ht⟩ := execute_of_quiet o (horders o List.mem_cons_self) b hs
    obtain ⟨b', lines, hrest, hs', hout', hlines⟩ :=
      ih (fun o' ho' => horders o' (List.mem_cons_of_mem o ho')) b₁ hs₁
    refine ⟨b', t :: lines, ?_, hs', ?_, List.forall_mem_cons.mpr ⟨ht, hlines⟩⟩
    · simp only [executeAll, hrun, hrest]
    · rw [hout', hout, List.append_assoc, ← Utf8.encodeLines_append]
      rfl

end StationLink.Board
