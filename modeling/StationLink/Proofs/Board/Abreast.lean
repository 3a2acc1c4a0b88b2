import StationLink.Proofs.Board.Halves
import StationLink.Proofs.Protocol.Telling

/-!
# Boards that differ in their peers

Two boards with the same radio are abreast if their peers are tame and their dialers fault at the same
calls, whatever else these do. Both carry out the same orders to the same end, stay abreast, and print
the same lines as far as these tell something.
-/

namespace StationLink.Board

open Text Protocol

/-- Which of the calls to come fault. -/
def Dialer.faults (d : Dialer) : List Bool :=
  d.plans.map fun plan => plan = .fault

theorem Dialer.faults_modify (d : Dialer) (i : Nat) (f : Socket → Socket) : (d.modify i f).faults = d.faults :=
  rfl

structure Abreast (b b' : Board) : Prop where
  radio : b'.radio = b.radio
  wifi : b'.wifi = b.wifi
  faults : b'.dialer.faults = b.dialer.faults
  tame : b.dialer.Tame
  tame' : b'.dialer.Tame

/-- Whole lines that tell nothing. -/
def Untold (out : Bytes) : Prop :=
  ∃ lines, out = Utf8.encodeLines lines ∧ ∀ t ∈ lines, '\n' ∉ t ∧ tells (trim t) = false

theorem Untold.line (t : Text) (hfree : '\n' ∉ t) (ht : tells (trim t) = false) :
    Untold (Utf8.encodeLines [t]) :=
  ⟨[t], rfl, List.forall_mem_singleton.mpr ⟨hfree, ht⟩⟩

/-- Whole lines on both sides that tell the same. -/
def Agree (out out' : Bytes) : Prop :=
  ∃ lines lines', out = Utf8.encodeLines lines ∧ out' = Utf8.encodeLines lines' ∧
    (∀ t ∈ lines, '\n' ∉ t) ∧ (∀ t ∈ lines', '\n' ∉ t) ∧ answers lines = answers lines'

namespace Agree

theorem of_untold {out out' : Bytes} (h : Untold out) (h' : Untold out') : Agree out out' := by
  obtain ⟨lines, rfl, hlines⟩ := h
  obtain ⟨lines', rfl, hlines'⟩ := h'
  refine ⟨lines, lines', rfl, rfl, fun t ht => (hlines t ht).1, fun t ht => (hlines' t ht).1, ?_⟩
  rw [answers_eq_nil lines fun t ht => (hlines t ht).2, answers_eq_nil lines' fun t ht => (hlines' t ht).2]

/-- What an order prints agrees with itself, whatever it tells. -/
theorem answer (o : Order) (b : Board) : Agree (Board.answer o b).1 (Board.answer o b).1 := by
  obtain ⟨own, hown, hfree⟩ := (adds_execute o b.bare).lines
  exact ⟨own, own, hown, hown, hfree, hfree, rfl⟩

theorem append {out out' more more' : Bytes} (h : Agree out out') (h' : Agree more more') :
    Agree (out ++ more) (out' ++ more') := by
  obtain ⟨lines, lines', rfl, rfl, hfree, hfree', hsame⟩ := h
  obtain ⟨new, new', rfl, rfl, hnew, hnew', hsame'⟩ := h'
  refine ⟨lines ++ new, lines' ++ new', (Utf8.encodeLines_append _ _).symm,
    (Utf8.encodeLines_append _ _).symm, List.forall_mem_append.mpr ⟨hfree, hnew⟩,
    List.forall_mem_append.mpr ⟨hfree', hnew'⟩, ?_⟩
  rw [answers_append, answers_append, hsame, hsame']

theorem answers_eq {lines lines' : List Text} (h : Agree (Utf8.encodeLines lines) (Utf8.encodeLines lines'))
    (hfree : ∀ t ∈ lines, '\n' ∉ t) (hfree' : ∀ t ∈ lines', '\n' ∉ t) : answers lines = answers lines' := by
  obtain ⟨found, found', hfound, hfound', hwhole, hwhole', hsame⟩ := h
  obtain rfl := Utf8.encodeLines_inj lines found hfree hwhole hfound
  obtain rfl := Utf8.encodeLines_inj lines' found' hfree' hwhole' hfound'
  exact hsame

end Agree

namespace Abreast

variable {a a' b b' : Board}

theorem of_idled (h : Abreast a a') (hidled : Idled a b) (hidled' : Idled a' b') : Abreast b b' where
  radio := (hidled'.radio.trans h.radio).trans hidled.radio.symm
  wifi := (hidled'.wifi.trans h.wifi).trans hidled.wifi.symm
  faults := by
    rw [Dialer.faults, Dialer.faults, hidled.plans, hidled'.plans]
    exact h.faults
  tame := hidled.tame h.tame
  tame' := hidled'.tame h.tame'

theorem feed (h : Abreast b b') (bytes bytes' : Bytes) : Abreast (b.feed bytes) (b'.feed bytes') :=
  ⟨h.radio, h.wifi, h.faults, h.tame, h.tame'⟩

theorem nextPlan (h : Abreast b b') : b'.dialer.nextPlan = .fault ↔ b.dialer.nextPlan = .fault := by
  have hhead (d : Dialer) : decide (d.nextPlan = .fault) = d.faults.head?.getD false := by
    rw [Dialer.nextPlan, Dialer.faults, List.head?_map]
    cases d.plans.head? with
    | none => rfl
    | some plan => rfl
  rw [← decide_eq_decide, hhead, hhead, h.faults]

/-! ## Orders about WiFi -/

theorem wireless (h : Abreast b b') (o : Order) (ho : o.Wireless) :
    Abreast (b.execute o).1 (b'.execute o).1 ∧ answer o b' = answer o b := by
  obtain ⟨hside, hanswer⟩ := execute_of_wifiSide (Prod.ext h.radio h.wifi) o ho
  obtain ⟨hradio, hwifi⟩ := Prod.ext_iff.mp hside
  refine ⟨⟨hradio, hwifi, ?_, Tame.execute h.tame o, Tame.execute h.tame' o⟩, hanswer⟩
  rw [(wire_execute b o ho).1, (wire_execute b' o ho).1]
  exact h.faults

/-! ## Orders about TCP -/

theorem untold_tcpSend (data : Text) (b : Board) : Untold (answer (.tcpSend data) b).1 := by
  change Untold (b.bare.tcpSend data).output
  rcases tcpSend_spec data b.bare with ⟨_, _, _, hspec, _⟩ | ⟨_, hspec, _⟩
  · rw [hspec]
    exact .line _ (by decide) (by decide)
  · rw [hspec]
    exact .line _ (by decide) (by decide)

theorem untold_tcpClose (b : Board) : Untold (answer .tcpClose b).1 := by
  change Untold b.bare.tcpClose.output
  rcases tcpClose_spec b.bare with ⟨_, _, hspec⟩ | ⟨_, _, hspec⟩
  · rw [hspec]
    exact .line _ (by decide) (by decide)
  · rw [hspec]
    exact .line _ (by decide) (by decide)

theorem untold_tcpConnect (host number : Text) (port : Int) (b : Board) (hhost : '\n' ∉ host)
    (hnumber : Numeral.write? port = some number) : Untold (answer (.tcpConnect host port) b).1 := by
  obtain ⟨houtput, _⟩ := output_tcpConnect host port number b.bare hnumber
  refine ⟨_, houtput, List.forall_mem_cons.mpr ⟨⟨?_, ?_⟩, ?_⟩⟩
  · exact lineFeed_not_mem_callLine host number port hhost hnumber
  · exact tells_of_head 'T' _ (by decide) (by decide) (by decide) (by decide) (by decide)
  · rw [callVerdict]
    split
    · simp
    · split
      · decide
      · decide

theorem onWire (h : Abreast a a') (hwire : ByWire a b) (hwire' : ByWire a' b')
    (hfaults : b'.dialer.faults = b.dialer.faults) (htame : b.dialer.Tame) (htame' : b'.dialer.Tame) :
    Abreast b b' where
  radio := (hwire'.radio.trans h.radio).trans hwire.radio.symm
  wifi := (hwire'.wifi.trans h.wifi).trans hwire.wifi.symm
  faults := hfaults
  tame := htame
  tame' := htame'

theorem tcpSend (h : Abreast b b') (data : Text) : Abreast (b.tcpSend data) (b'.tcpSend data) := by
  have hplans (b : Board) : (b.tcpSend data).dialer.plans = b.dialer.plans :=
    (lasting_plans b.dialer.plans).tcpSend rfl data
  apply h.onWire (byWire_tcpSend data b) (byWire_tcpSend data b')
  · rw [Dialer.faults, Dialer.faults, hplans, hplans]
    exact h.faults
  · exact Tame.execute h.tame (.tcpSend data)
  · exact Tame.execute h.tame' (.tcpSend data)

theorem tcpClose (h : Abreast b b') : Abreast b.tcpClose b'.tcpClose := by
  have hplans (b : Board) : b.tcpClose.dialer.plans = b.dialer.plans :=
    (lasting_plans b.dialer.plans).tcpClose rfl
  apply h.onWire (byWire_tcpClose b) (byWire_tcpClose b')
  · rw [Dialer.faults, Dialer.faults, hplans, hplans]
    exact h.faults
  · exact Tame.execute h.tame .tcpClose
  · exact Tame.execute h.tame' .tcpClose

theorem tcpConnect (h : Abreast b b') (host number : Text) (port : Int)
    (hnumber : Numeral.write? port = some number) :
    Abreast (b.tcpConnect host port).1 (b'.tcpConnect host port).1 ∧
      (b'.tcpConnect host port).2 = (b.tcpConnect host port).2 := by
  have hfaults (b : Board) : (b.tcpConnect host port).1.dialer.faults = b.dialer.faults.tail := by
    rw [Dialer.faults, plans_tcpConnect host number port b hnumber, Dialer.faults, List.map_tail]
  constructor
  · apply h.onWire (byWire_tcpConnect host port b) (byWire_tcpConnect host port b')
    · rw [hfaults, hfaults, h.faults]
    · exact Tame.execute h.tame (.tcpConnect host port)
    · exact Tame.execute h.tame' (.tcpConnect host port)
  · rw [(output_tcpConnect host port number b hnumber).2, (output_tcpConnect host port number b' hnumber).2]
    simp only [h.nextPlan]

/-! ## All orders -/

theorem execute (h : Abreast b b') (o : Order) (ho : o.Plain) :
    Abreast (b.execute o).1 (b'.execute o).1 ∧ (b'.execute o).2 = (b.execute o).2 ∧
      Agree (answer o b).1 (answer o b').1 := by
  have hwireless (ho : o.Wireless) : Abreast (b.execute o).1 (b'.execute o).1 ∧
      (b'.execute o).2 = (b.execute o).2 ∧ Agree (answer o b).1 (answer o b').1 := by
    obtain ⟨habreast, hanswer⟩ := h.wireless o ho
    rw [(execute_answer o b').2, (execute_answer o b).2, hanswer]
    exact ⟨habreast, rfl, .answer o b⟩
  cases o with
  | tcpConnect host port =>
    obtain ⟨hhost, number, hnumber⟩ := ho
    obtain ⟨habreast, hcrash⟩ := h.tcpConnect host number port hnumber
    exact ⟨habreast, hcrash, .of_untold (untold_tcpConnect host number port b hhost hnumber)
      (untold_tcpConnect host number port b' hhost hnumber)⟩
  | tcpSend data =>
    exact ⟨h.tcpSend data, rfl, .of_untold (untold_tcpSend data b) (untold_tcpSend data b')⟩
  | tcpClose => exact ⟨h.tcpClose, rfl, .of_untold (untold_tcpClose b) (untold_tcpClose b')⟩
  | _ => exact hwireless trivial

end Abreast

theorem Abreast.executeAll {b b' : Board} (h : Abreast b b') (hout : Agree b.output b'.output)
    (orders : List Order) (horders : ∀ o ∈ orders, o.Plain) :
    Abreast (executeAll orders b).1 (executeAll orders b').1 ∧
      (executeAll orders b').2 = (executeAll orders b).2 ∧
      Agree (executeAll orders b).1.output (executeAll orders b').1.output := by
  induction orders generalizing b b' with
  | nil => exact ⟨h, rfl, hout⟩
  | cons o orders ih =>
    obtain ⟨hnext, hcrash, hanswer⟩ := h.execute o (horders o List.mem_cons_self)
    have hprinted := hout.append hanswer
    rw [← (execute_answer o b).1, ← (execute_answer o b').1] at hprinted
    simp only [Board.executeAll]
    rcases hrun : b.execute o with ⟨b₁, _ | crash⟩
    · rcases hrun' : b'.execute o with ⟨b₁', _ | crash'⟩
      · rw [hrun, hrun'] at hnext hprinted
        exact ih hnext hprinted fun o' ho' => horders o' (List.mem_cons_of_mem o ho')
      · rw [hrun, hrun'] at hcrash
        cases hcrash
    · rcases hrun' : b'.execute o with ⟨b₁', _ | crash'⟩
      · rw [hrun, hrun'] at hcrash
        cases hcrash
      · rw [hrun, hrun'] at hnext hcrash hprinted
        exact ⟨hnext, hcrash, hprinted⟩

/-- Boards that are abreast carry out the texts that wait at both to the same end. -/
theorem Abreast.carried {b b' : Board} (h : Abreast b b') (texts : List Text)
    (hsendable : ∀ t ∈ texts, Sendable t) :
    Abreast (carried texts b).1 (carried texts b').1 ∧ (carried texts b').2 = (carried texts b).2 ∧
      Agree (carried texts b).1.output (carried texts b').1.output := by
  have hbare : Abreast b.bare b'.bare := ⟨h.radio, h.wifi, h.faults, h.tame, h.tame'⟩
  apply hbare.executeAll
  · exact ⟨[], [], rfl, rfl, by simp, by simp, rfl⟩
  · intro o ho
    obtain ⟨t, ht, rfl⟩ := List.mem_map.mp ho
    exact Order.plain_ofText t (hsendable t ht).lineFeed

end StationLink.Board
