import StationLink.Proofs.Board.Codec
import StationLink.Proofs.Board.Report

/-!
# What a turn prints

A plain board carries out the orders of plain texts without a crash. It prints whole lines in answer
to each of them, and behind these at most one line of data from the remote peer.
-/

namespace StationLink.Board

open Text Protocol

namespace Order

/-- What the answer repeats of the order is one line, and a port has a numeral. -/
def Plain : Order → Prop
  | connect ssid _ => '\n' ∉ ssid
  | tcpConnect host port => '\n' ∉ host ∧ ∃ number, Numeral.write? port = some number
  | unknown line => '\n' ∉ line
  | _ => True

/-- Orders that are sent and forgotten. -/
def Quiet : Order → Prop
  | disconnect | tcpSend _ | tcpClose => True
  | _ => False

theorem plain_ofConnect (fields : Text) (h : '\n' ∉ fields) : (ofConnect fields).Plain := by
  simp only [ofConnect]
  split
  · rename_i ssid password hcut
    obtain ⟨rfl, _⟩ := (cutFirst?_eq_some_iff _ _ _ _).mp hcut
    exact fun hmem => h (List.mem_append_left _ hmem)
  · trivial

theorem plain_ofTcpConnect (fields : Text) (h : '\n' ∉ fields) : (ofTcpConnect fields).Plain := by
  simp only [ofTcpConnect]
  split
  · rename_i host port hcut
    obtain ⟨rfl, _⟩ := (cutLast?_eq_some_iff _ _ _ _).mp hcut
    split
    · trivial
    · exact ⟨fun hmem => h (List.mem_append_left _ hmem), Numeral.exists_write?_lenient port⟩
  · trivial

theorem plain_ofText (text : Text) (h : '\n' ∉ text) : (ofText text).Plain := by
  have htrim : '\n' ∉ trim text := fun hmem => h (mem_of_mem_trim hmem)
  have hafter (start fields : Text) (hf : after? start (trim text) = some fields) : '\n' ∉ fields := by
    rw [(after?_eq_some_iff _ _ _).mp hf] at htrim
    exact fun hmem => htrim (List.mem_append_right _ hmem)
  simp only [ofText]
  split
  · rename_i fields hf
    exact plain_ofConnect fields (hafter _ fields hf)
  · split
    · trivial
    split
    · trivial
    split
    · trivial
    split
    · rename_i fields hf
      exact plain_ofTcpConnect fields (hafter _ fields hf)
    split
    · trivial
    split
    · trivial
    split
    · trivial
    · exact htrim

end Order

/-- An order is carried out to its end, and whole lines of this kind are printed. -/
def Completes (P : Text → Prop) (b : Board) (run : Board × Option Crash) : Prop :=
  run.2 = none ∧ Prints P b run.1

theorem completes_execute (o : Order) (b : Board) (h : b.Plain) (ho : o.Plain) :
    Completes Mute b (b.execute o) := by
  cases o with
  | connect ssid password => exact ⟨rfl, prints_connect ssid password b h ho⟩
  | connectWithoutPassword => exact ⟨rfl, .line _ h (by decide) (by decide)⟩
  | status =>
    obtain ⟨b', lines, hrun, hplain, hreports, houtput, hlines⟩ := reportStatus_of_plain b h
    rw [execute, hrun]
    exact ⟨rfl, hplain, lines, houtput, fun t ht => ⟨hlines t ht, mute_of_reports hreports t ht⟩⟩
  | scan => exact reportSurvey_of_plain b h
  | disconnect => exact ⟨rfl, prints_disconnect (by decide) b h⟩
  | tcpConnect host port =>
    obtain ⟨hhost, number, hnumber⟩ := ho
    exact tcpConnect_of_plain host port number b h hhost hnumber
  | tcpConnectWithoutHost => exact ⟨rfl, .line _ h (by decide) (by decide)⟩
  | tcpSend data => exact ⟨rfl, prints_tcpSend (by decide) (by decide) data b h⟩
  | tcpClose => exact ⟨rfl, prints_tcpClose (by decide) (by decide) b h⟩
  | address => exact ⟨rfl, prints_reportAddress b h⟩
  | unknown line =>
    exact ⟨rfl, .line _ h (not_mem_append (by decide) ho) (mute_of_head 'E' _ (by decide) (by decide))⟩

theorem completes_execute_of_quiet (o : Order) (b : Board) (h : b.Plain) (ho : o.Quiet) :
    Completes Silent b (b.execute o) := by
  cases o with
  | disconnect => exact ⟨rfl, prints_disconnect (by decide) b h⟩
  | tcpSend data => exact ⟨rfl, prints_tcpSend (by decide) (by decide) data b h⟩
  | tcpClose => exact ⟨rfl, prints_tcpClose (by decide) (by decide) b h⟩
  | _ => exact absurd ho id

theorem completes_executeAll (P : Text → Prop) (orders : List Order) (b : Board) (h : b.Plain)
    (horders : ∀ o ∈ orders, ∀ b : Board, b.Plain → Completes P b (b.execute o)) :
    Completes P b (executeAll orders b) := by
  induction orders generalizing b with
  | nil => exact ⟨rfl, .quiet h rfl⟩
  | cons o orders ih =>
    obtain ⟨hcrash, hprints⟩ := horders o List.mem_cons_self b h
    obtain ⟨hcrash', hprints'⟩ := ih (b.execute o).1 hprints.plain
      fun o' ho' => horders o' (List.mem_cons_of_mem o ho')
    have hrun : executeAll (o :: orders) b = executeAll orders (b.execute o).1 := by
      simp only [executeAll]
      rcases hexec : b.execute o with ⟨b', _ | crash⟩
      · rfl
      · rw [hexec] at hcrash
        cases hcrash
    rw [hrun]
    exact ⟨hcrash', hprints.trans hprints'⟩

/-! ## Texts -/

/-- A plain board that is sent these texts carries them out, and prints whole lines; `S` says what
these lines are, given the radio after them. -/
def Carries (texts : List Text) (S : List Text → Radio → Prop) : Prop :=
  ∀ b : Board, b.Plain → ∃ b' lines, executeAll (texts.map Order.ofText) b = (b', none) ∧ b'.Plain ∧
    b'.output = b.output ++ Utf8.encodeLines lines ∧ (∀ t ∈ lines, '\n' ∉ t) ∧ S lines b'.radio

theorem Completes.carries {P : Text → Prop} {texts : List Text}
    (h : ∀ b : Board, b.Plain → Completes P b (executeAll (texts.map Order.ofText) b)) :
    Carries texts fun lines _ => ∀ t ∈ lines, P t := by
  intro b hb
  obtain ⟨hcrash, hprints⟩ := h b hb
  obtain ⟨lines, houtput, hlines⟩ := hprints.output
  exact ⟨_, lines, Prod.ext rfl hcrash, hprints.plain, houtput, fun t ht => (hlines t ht).1,
    fun t ht => (hlines t ht).2⟩

theorem carries_of_plain (texts : List Text) (h : ∀ t ∈ texts, '\n' ∉ t) :
    Carries texts fun lines _ => ∀ t ∈ lines, Mute t := by
  refine Completes.carries fun b hb => completes_executeAll Mute _ b hb ?_
  intro o ho b hb
  obtain ⟨t, ht, rfl⟩ := List.mem_map.mp ho
  exact completes_execute _ b hb (Order.plain_ofText t (h t ht))

theorem carries_of_quiet (texts : List Text) (h : ∀ t ∈ texts, (Order.ofText t).Quiet) :
    Carries texts fun lines _ => ∀ t ∈ lines, Silent t := by
  refine Completes.carries fun b hb => completes_executeAll Silent _ b hb ?_
  intro o ho b hb
  obtain ⟨t, ht, rfl⟩ := List.mem_map.mp ho
  exact completes_execute_of_quiet _ b hb (h t ht)

/-- The lines end with the report of the radio, and those before it are silent. -/
def EndsInReport (lines : List Text) (r : Radio) : Prop :=
  ∃ before report, lines = before ++ report ∧ (∀ t ∈ before, Silent t) ∧ Reports r report

theorem carries_status (texts : List Text) (h : ∀ t ∈ texts, (Order.ofText t).Quiet) :
    Carries (texts ++ [Verb.status.word]) EndsInReport := by
  intro b hb
  obtain ⟨b', before, hrun, hplain, houtput, hlines, hsilent⟩ := carries_of_quiet texts h b hb
  obtain ⟨b'', report, hrun', hplain', hreports, houtput', hlines'⟩ := reportStatus_of_plain b' hplain
  have hstatus : Order.ofText Verb.status.word = .status := by decide
  refine ⟨b'', before ++ report, ?_, hplain', ?_, List.forall_mem_append.mpr ⟨hlines, hlines'⟩, before,
    report, rfl, hsilent, hreports⟩
  · rw [List.map_append, executeAll_append, hrun, List.map_singleton, hstatus]
    simp only [executeAll, execute, hrun']
  · rw [houtput', houtput, Utf8.encodeLines_append, List.append_assoc]

/-! ## A turn -/

theorem parted_encodeLines (texts : List Text) (h : ∀ t ∈ texts, Sendable t) :
    Parted isLineEnd (Utf8.encodeLines texts) (texts.map Utf8.encode) [] := by
  induction texts with
  | nil =>
    change Parted isLineEnd [] [] []
    exact .tail (by simp)
  | cons t texts ih =>
    rw [Utf8.encodeLines_cons, Utf8.encodeLine, List.append_assoc]
    exact .piece (h t List.mem_cons_self).isLineEnd_of_mem_encode (by decide)
      (ih fun u hu => h u (List.mem_cons_of_mem t hu))

theorem frame_encodeLines (texts : List Text) (h : ∀ t ∈ texts, Sendable t) :
    frame (Utf8.encodeLines texts) = (texts.map Utf8.encode, []) := by
  rw [frame_of_parted (parted_encodeLines texts h), List.filter_eq_self.mpr]
  intro run hrun
  obtain ⟨t, ht, rfl⟩ := List.mem_map.mp hrun
  simpa using (h t ht).encode_ne_nil

theorem radio_forward (b : Board) : b.forward.radio = b.radio := by
  have hclose (b : Board) : b.closeSession.radio = b.radio := by
    simp only [closeSession]
    split <;> rfl
  simp only [forward]
  split
  · rfl
  · split
    · rw [hclose]
      split <;> rfl
    · split <;> rfl

theorem turn_of_run (texts : List Text) (hsendable : ∀ t ∈ texts, Sendable t) (b : Board)
    (hinput : b.input = Utf8.encodeLines texts) (b₁ : Board) (lines : List Text)
    (hrun : executeAll (texts.map Order.ofText) { b with input := [] } = (b₁, none))
    (hplain : b₁.Plain) (houtput : b₁.output = b.output ++ Utf8.encodeLines lines)
    (hlines : ∀ t ∈ lines, '\n' ∉ t) :
    ∃ b' more, b.turn = (b', none) ∧ b'.Plain ∧ b'.input = [] ∧
      b'.output = b.output ++ Utf8.encodeLines (lines ++ more) ∧
      (∀ t ∈ lines ++ more, '\n' ∉ t) ∧ (∀ t ∈ more, Silent t) ∧ b'.radio = b₁.radio := by
  have hframe := frame_encodeLines texts hsendable
  have horders : (texts.map Utf8.encode).map Order.ofBytes = texts.map Order.ofText := by
    simp [Order.ofBytes, Utf8.decode_encode]
  have hturn : b.turn = (b₁.forward.rest idleRest, none) := by
    simp only [turn, hinput, hframe, horders, hrun]
  have hforward := prints_forward b₁ hplain
  obtain ⟨more, houtput', hmore⟩ := hforward.output
  refine ⟨_, more, hturn, ⟨hforward.plain.radio, hforward.plain.dialer⟩, ?_, ?_, ?_, ?_, ?_⟩
  · have hleft := input_turn b
    rw [hturn, hinput, hframe] at hleft
    exact hleft
  · change b₁.forward.output = _
    rw [houtput', houtput, Utf8.encodeLines_append, List.append_assoc]
  · exact List.forall_mem_append.mpr ⟨hlines, fun t ht => (hmore t ht).1⟩
  · exact fun t ht => (hmore t ht).2
  · exact radio_forward b₁

theorem turn_carries {texts : List Text} {S : List Text → Radio → Prop}
    (hsendable : ∀ t ∈ texts, Sendable t) (hcarries : Carries texts S) (b : Board) (hb : b.Plain)
    (hinput : b.input = Utf8.encodeLines texts) :
    ∃ b' lines more, b.turn = (b', none) ∧ b'.Plain ∧ b'.input = [] ∧
      b'.output = b.output ++ Utf8.encodeLines (lines ++ more) ∧
      (∀ t ∈ lines ++ more, '\n' ∉ t) ∧ (∀ t ∈ more, Silent t) ∧ S lines b'.radio := by
  obtain ⟨b₁, lines, hrun, hplain, houtput, hlines, hS⟩ :=
    hcarries { b with input := [] } ⟨hb.radio, hb.dialer⟩
  obtain ⟨b', more, hturn, hplain', hinput', houtput', hall, hmore, hradio⟩ :=
    turn_of_run texts hsendable b hinput b₁ lines hrun hplain houtput hlines
  exact ⟨b', lines, more, hturn, hplain', hinput', houtput', hall, hmore, hradio ▸ hS⟩

theorem turn_idle (b : Board) (hb : b.Plain) (hinput : b.input = []) :
    ∃ b' more, b.turn = (b', none) ∧ b'.Plain ∧ b'.input = [] ∧
      b'.output = b.output ++ Utf8.encodeLines more ∧ (∀ t ∈ more, '\n' ∉ t) ∧
      (∀ t ∈ more, Silent t) ∧ b'.radio = b.radio :=
  turn_of_run [] (by simp) b hinput { b with input := [] } [] rfl ⟨hb.radio, hb.dialer⟩
    (List.append_nil _).symm (by simp)

end StationLink.Board
