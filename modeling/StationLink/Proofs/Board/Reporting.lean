import StationLink.Proofs.Board.Association
import StationLink.Proofs.Board.Rebooting

/-!
# What the board takes its link for, and what it says of it

Both follow from the attempt at hand: the board takes the link for up if the join came about while it was
waited for, and says that it is up if the join has come about by now. So the two agree except after a
join that has come about too late.
-/

namespace StationLink.Board

open Text Protocol

/-! ## Inquiries -/

inductive Inquiry where
  | status
  | address
deriving DecidableEq, Repr

namespace Inquiry

def order : Inquiry → Order
  | status => .status
  | address => .address

/-- The first line of the answer on a network. -/
def yes : Inquiry → Network → Text
  | status, _ => Mark.status ++ Mark.connected
  | address, n => Mark.ip ++ n.ip

def no : Inquiry → Text
  | status => Mark.status ++ Mark.disconnected
  | address => "ERROR:Not connected to WiFi".toList

end Inquiry

theorem inquiry_of_down (q : Inquiry) (b : Board) (h : b.radio.poll.2.network? = none) :
    (b.execute q.order).1 =
      { b with
        radio := b.radio.poll.2
        wifi := if b.wifi = .connected then .idle else b.wifi
        output := b.output ++ Utf8.encodeLines [q.no] } := by
  have hdown : b.radio.poll.1 = false := by rw [Radio.poll_fst, h]; rfl
  have hboard : b.noticeLoss.2 =
      { b with radio := b.radio.poll.2, wifi := if b.wifi = .connected then .idle else b.wifi } := by
    rw [noticeLoss_snd, hdown]
    simp
  have hprinted (line : Text) : b.noticeLoss.2.printLines [line] =
      { b with
        radio := b.radio.poll.2
        wifi := if b.wifi = .connected then .idle else b.wifi
        output := b.output ++ Utf8.encodeLines [line] } := by
    rw [printLines_eq, hboard]
  cases q with
  | status =>
    have hrun := b.reportStatus_of_down (by rw [hboard]; exact h)
    exact (congrArg Prod.fst hrun).trans (hprinted _)
  | address =>
    have hloss : b.noticeLoss = (false, b.noticeLoss.2) := Prod.ext hdown rfl
    refine Eq.trans ?_ (hprinted _)
    change b.reportAddress = _
    rw [reportAddress, hloss]
    rfl

/-- Also a report that crashes on its last line has told the link before. -/
theorem inquiry_of_up (q : Inquiry) (b : Board) (n : Network) (h : b.radio.poll.2.network? = some n) :
    ∃ more, (b.execute q.order).1 =
      { b with
        radio := b.radio.poll.2
        output := b.output ++ Utf8.encodeLines (q.yes n :: more) } := by
  have hup : b.radio.poll.1 = true := by rw [Radio.poll_fst, h]; rfl
  have hboard : b.noticeLoss.2 = { b with radio := b.radio.poll.2 } := by
    rw [noticeLoss_snd, hup]
    rfl
  have hprinted (lines : List Text) : b.noticeLoss.2.printLines lines =
      { b with radio := b.radio.poll.2, output := b.output ++ Utf8.encodeLines lines } := by
    rw [printLines_eq, hboard]
  have hloss : b.noticeLoss = (true, b.noticeLoss.2) := Prod.ext hup rfl
  have hn : b.noticeLoss.2.radio.network? = some n := by
    rw [hboard]
    exact h
  have hip : b.noticeLoss.2.radio.ip = n.ip := by rw [Radio.ip, hn]; rfl
  cases q with
  | status =>
    cases hsignal : Numeral.write? n.rssi with
    | some signal =>
      refine ⟨[Mark.ssid ++ n.ssid, Mark.ip ++ n.ip, Mark.rssi ++ signal ++ " dBm".toList], ?_⟩
      exact (congrArg Prod.fst (b.reportStatus_of_up n signal hn hsignal)).trans (hprinted _)
    | none =>
      have hssid : b.noticeLoss.2.radio.ssid = n.ssid := by rw [Radio.ssid, hn]; rfl
      have hrssi : b.noticeLoss.2.radio.rssi = n.rssi := by rw [Radio.rssi, hn]; rfl
      have hrun : b.reportStatus =
          (b.noticeLoss.2.printLines
            [Mark.status ++ Mark.connected, Mark.ssid ++ n.ssid, Mark.ip ++ n.ip], some .numeralTooLong) := by
        have hfound : b.noticeLoss.1 = true := hup
        simp only [reportStatus, hfound, radio_printLine, hrssi, hsignal, hssid, hip]
        rfl
      exact ⟨_, (congrArg Prod.fst hrun).trans (hprinted _)⟩
  | address =>
    refine ⟨[], Eq.trans ?_ (hprinted _)⟩
    change b.reportAddress = _
    rw [reportAddress, hloss]
    dsimp only
    rw [hip]
    rfl

theorem affirmed_ne_denied (q : Inquiry) (n : Network) (more : List Text) :
    Utf8.encodeLines (q.yes n :: more) ≠ Utf8.encodeLines [q.no] := by
  intro h
  rw [Utf8.encodeLines_cons, Utf8.encodeLines_singleton, Utf8.encodeLine, List.append_assoc] at h
  cases q with
  | status =>
    have hbegins : Utf8.encode (Mark.status ++ Mark.connected) <+: Utf8.encodeLine (Inquiry.no .status) :=
      ⟨_, h⟩
    exact absurd hbegins (by decide)
  | address =>
    rw [Inquiry.yes, Utf8.encode_append, List.append_assoc] at h
    have hbegins : Utf8.encode Mark.ip <+: Utf8.encodeLine (Inquiry.no .address) := ⟨_, h⟩
    exact absurd hbegins (by decide)

/-- The answer begins with the line that an inquiry on a network begins with. -/
def Affirms (q : Inquiry) (b b' : Board) : Prop :=
  ∃ n more, b'.output = b.output ++ Utf8.encodeLines (q.yes n :: more)

theorem affirms_iff (q : Inquiry) (b : Board) :
    Affirms q b (b.execute q.order).1 ↔ b.radio.poll.2.network?.isSome = true := by
  cases hn : b.radio.poll.2.network? with
  | none =>
    rw [inquiry_of_down q b hn]
    refine iff_of_false ?_ (by simp)
    rintro ⟨n, more, houtput⟩
    exact affirmed_ne_denied q n more (List.append_cancel_left houtput).symm
  | some n =>
    obtain ⟨more, hrun⟩ := inquiry_of_up q b n hn
    rw [hrun]
    exact iff_of_true ⟨n, more, rfl⟩ rfl

theorem up_of_connected (q : Inquiry) (b : Board) (h : (b.execute q.order).1.wifi = .connected) :
    b.radio.poll.2.network?.isSome = true := by
  rw [Option.isSome_iff_ne_none]
  intro hnone
  rw [inquiry_of_down q b hnone] at h
  dsimp only at h
  split at h
  · cases h
  · contradiction

/-! ## What the board takes the link for -/

theorem kept_of_no_deeds (o : Order) (ho : o.deeds = []) (b : Board) :
    (b.execute o).1.radio = b.radio ∧ (b.execute o).1.wifi = b.wifi := by
  have hsurvey (networks : List Network) (b : Board) :
      (printSurvey networks b).1.radio = b.radio ∧ (printSurvey networks b).1.wifi = b.wifi := by
    induction networks generalizing b with
    | nil => exact ⟨rfl, rfl⟩
    | cons n networks ih =>
      simp only [printSurvey]
      split
      · exact ih _
      · exact ⟨rfl, rfl⟩
  cases o with
  | connect ssid password => cases ho
  | status => cases ho
  | address => cases ho
  | disconnect => cases ho
  | scan =>
    simp only [execute, reportSurvey]
    split
    · exact ⟨rfl, rfl⟩
    · exact hsurvey _ _
  | tcpConnect host port =>
    exact ⟨(byWire_tcpConnect host port b).radio, (byWire_tcpConnect host port b).wifi⟩
  | tcpSend data => exact ⟨(byWire_tcpSend data b).radio, (byWire_tcpSend data b).wifi⟩
  | tcpClose => exact ⟨(byWire_tcpClose b).radio, (byWire_tcpClose b).wifi⟩
  | connectWithoutPassword => exact ⟨rfl, rfl⟩
  | tcpConnectWithoutHost => exact ⟨rfl, rfl⟩
  | unknown line => exact ⟨rfl, rfl⟩

/-- The attempt explains the association, and the link is taken for up if the join came about in time.
Without an attempt it may be taken for up as long as its loss has not been noticed. -/
structure Explains (networks : List Network) (a : Option Attempt) (b : Board) : Prop where
  networks : b.radio.networks = networks
  association : b.radio.association = associationOf a
  settled : b.wifi = .connected ∨ b.wifi = .idle
  prompt : ∀ t ∈ a, b.wifi = .connected ↔ t.Prompt

namespace Explains

variable {networks : List Network} {a : Option Attempt} {b b' : Board}

theorem of_eq (h : Explains networks a b) (hradio : b'.radio = b.radio) (hwifi : b'.wifi = b.wifi) :
    Explains networks a b' := by
  obtain ⟨networks, association, settled, prompt⟩ := h
  rw [← hradio, ← hwifi] at *
  exact ⟨networks, association, settled, prompt⟩

theorem leave (h : Explains networks a b) (hradio : b'.radio = b.radio.leave)
    (hwifi : b'.wifi = .connected ∨ b'.wifi = .idle) : Explains networks none b' := by
  refine ⟨?_, ?_, hwifi, fun t ht => nomatch ht⟩
  · rw [hradio]
    exact h.networks
  · rw [hradio]
    rfl

theorem connect (h : Explains networks a b) (ssid password : Text) :
    Explains networks (begun networks ssid password) (b.connect ssid password) := by
  have hassociation : (b.radio.joined ssid password).association =
      associationOf (begun networks ssid password) := by
    rw [← h.networks]
    exact association_joined b.radio ssid password
  have hprompt : ∀ t ∈ begun networks ssid password,
      (joinState (b.radio.joined ssid password) = .connected ↔ t.Prompt) := by
    intro t ht
    rw [joinState_eq_connected, network?_joined, h.networks]
    constructor
    · rintro ⟨u, hu, hdone⟩
      rwa [Option.mem_unique ht hu]
    · exact fun hdone => ⟨t, ht, hdone⟩
  rw [connect_eq]
  exact ⟨(b.radio.onto_joined ssid password).networks.trans h.networks, hassociation,
    joinState_settled _, hprompt⟩

theorem poll_association (h : Explains networks a b) :
    b.radio.poll.2.association = associationOf (Deed.ask.after networks a) := by
  have hold := h.association
  cases a with
  | none =>
    rw [poll_of_idle hold]
    exact hold
  | some t => exact poll_of_progress hold

theorem inquiry (h : Explains networks a b) (q : Inquiry) :
    Explains networks (Deed.ask.after networks a) (b.execute q.order).1 := by
  have hnetworks := (networks_execute q.order b).trans h.networks
  have hassociation := h.poll_association
  cases hn : b.radio.poll.2.network? with
  | none =>
    have hidle : (if b.wifi = .connected then .idle else b.wifi) = Wifi.idle := by
      rcases h.settled with hwifi | hwifi <;> rw [hwifi] <;> rfl
    rw [inquiry_of_down q b hn, hidle] at hnetworks ⊢
    refine ⟨hnetworks, hassociation, .inr rfl, ?_⟩
    intro t ht
    have hdown : ¬ t.Up := fun hup => by
      have hfound := (network?_of_association hassociation).mpr ⟨t, ht, hup⟩
      rw [hn] at hfound
      cases hfound
    exact ⟨fun hwifi => (nomatch hwifi), fun hprompt => absurd hprompt.up hdown⟩
  | some n =>
    obtain ⟨more, hrun⟩ := inquiry_of_up q b n hn
    rw [hrun] at hnetworks ⊢
    refine ⟨hnetworks, hassociation, h.settled, ?_⟩
    intro t ht
    obtain ⟨u, hu, rfl⟩ := Option.map_eq_some_iff.mp ht
    exact h.prompt u hu

theorem execute (h : Explains networks a b) (o : Order) :
    Explains networks (attempt networks a o.deeds) (b.execute o).1 := by
  cases o with
  | connect ssid password => exact h.connect ssid password
  | status => exact h.inquiry .status
  | address => exact h.inquiry .address
  | disconnect => exact h.leave rfl (.inr rfl)
  | _ =>
    exact h.of_eq (kept_of_no_deeds _ (by rfl) b).1 (kept_of_no_deeds _ (by rfl) b).2

theorem dispatch (h : Explains networks a b) (texts : List Text) :
    Explains networks
      (attempt networks a ((dispatch texts b).1.flatMap fun text => (Order.ofText text).deeds))
      (dispatch texts b).2.1 := by
  induction texts generalizing a b with
  | nil => exact h
  | cons text texts ih =>
    have hfirst := h.execute (.ofText text)
    simp only [Board.dispatch]
    rcases hrun : b.execute (.ofText text) with ⟨b', _ | crash⟩
    · rw [hrun] at hfirst
      dsimp only
      rw [List.flatMap_cons, attempt_append]
      exact ih hfirst
    · rw [hrun] at hfirst
      dsimp only
      rw [List.flatMap_singleton]
      exact hfirst

theorem turn (h : Explains networks a b) :
    Explains networks (attempt networks a (Occurrence.poll.deeds b)) b.turn.1 := by
  have hframed : Explains networks a { b with input := (frame b.input).2 } := h.of_eq rfl rfl
  have hrun := hframed.dispatch ((frame b.input).1.map Utf8.decode)
  rw [Occurrence.deeds, dispatchTurn_fst, ← dispatchTurn_snd]
  simp only [dispatchTurn]
  generalize Board.dispatch _ _ = run at hrun
  rcases run with ⟨texts, b', _ | crash⟩
  · exact hrun.of_eq (byWire_forward b').radio (byWire_forward b').wifi
  · exact hrun

theorem befall (h : Explains networks a b) (o : Occurrence) :
    Explains networks (attempt networks a (o.deeds b)) (o.befall b) := by
  cases o with
  | poll => exact h.turn
  | order text => exact h.execute (.ofText text)
  | reset =>
    refine h.leave ?_ (.inr ?_)
    · change b.reset.radio = _
      rw [reset_eq]
    · change b.reset.wifi = _
      rw [reset_eq]
  | dropRadio => exact h.leave rfl h.settled
  | _ => exact h.of_eq rfl rfl

theorem befallen (h : Explains networks a b) (occurrences : List Occurrence) :
    Explains networks (attempt networks a (deeds b occurrences)) (b.befallen occurrences) := by
  induction occurrences generalizing a b with
  | nil => exact h
  | cons o occurrences ih =>
    rw [deeds, attempt_append]
    exact ih (h.befall o)

end Explains

theorem explains_boot (networks : List Network) (plans : List Plan) :
    Explains networks none (boot networks plans) :=
  ⟨rfl, rfl, .inr rfl, fun _ ht => nomatch ht⟩

/-! ## What is reported -/

/-- The join has come about after it was given up. -/
def Late (a : Option Attempt) : Prop :=
  ∃ t ∈ a, t.Up ∧ ¬ t.Prompt

/-- What an inquiry says and leaves behind, of an attempt that takes this inquiry into account. -/
structure Tells (q : Inquiry) (a : Option Attempt) (b b' : Board) : Prop where
  affirms : Affirms q b b' ↔ ∃ t ∈ a, t.Up
  denies : ¬ Affirms q b b' → b'.output = b.output ++ Utf8.encodeLines [q.no]
  connected : b'.wifi = .connected ↔ ∃ t ∈ a, t.Prompt
  idle : b'.wifi ≠ .connected → b'.wifi = .idle
  agrees : (b'.wifi = .connected ↔ Affirms q b b') ↔ ¬ Late a

structure Joins (networks : List Network) (ssid password : Text) (b b' : Board) : Prop where
  success : (Deed.join ssid password).Succeeds networks → b'.wifi = .connected ∧
    ∃ dots, ∃ n : Network, b'.output = b.output ++ Utf8.encodeLines
      ["CONNECTING:".toList ++ ssid, List.replicate dots '.', "OK:Connected".toList, Mark.ip ++ n.ip]
  failure : ¬ (Deed.join ssid password).Succeeds networks → b'.wifi = .idle ∧
    ∃ dots, b'.output = b.output ++ Utf8.encodeLines
      ["CONNECTING:".toList ++ ssid, List.replicate dots '.', "ERROR:Connection failed".toList]

theorem Explains.joins {networks : List Network} {a : Option Attempt} {b : Board}
    (h : Explains networks a b) (ssid password : Text) :
    Joins networks ssid password b (b.execute (.connect ssid password)).1 := by
  have hfound := network?_joined b.radio ssid password
  rw [h.networks] at hfound
  change Joins networks ssid password b (b.connect ssid password)
  rw [connect_eq, Radio.joinLines]
  generalize b.radio.joined ssid password = r at hfound
  constructor
  · intro hsuccess
    obtain ⟨n, hn⟩ := Option.isSome_iff_exists.mp (hfound.mpr hsuccess)
    have hlines : joinVerdict r = ["OK:Connected".toList, Mark.ip ++ n.ip] := by rw [joinVerdict, hn]
    rw [hlines]
    exact ⟨(joinState_eq_connected r).mpr (hfound.mpr hsuccess), _, n, rfl⟩
  · intro hfailure
    have hnone : r.network? = none := Option.not_isSome_iff_eq_none.mp fun h => hfailure (hfound.mp h)
    have hlines : joinVerdict r = ["ERROR:Connection failed".toList] := by rw [joinVerdict, hnone]
    rw [hlines]
    refine ⟨(joinState_settled r).resolve_left ?_, _, rfl⟩
    intro hwifi
    exact hfailure (hfound.mp ((joinState_eq_connected r).mp hwifi))

theorem Explains.tells {networks : List Network} {a : Option Attempt} {b : Board}
    (h : Explains networks a b) (q : Inquiry) :
    Tells q (Deed.ask.after networks a) b (b.execute q.order).1 := by
  have hafter := h.inquiry q
  have haffirms : Affirms q b (b.execute q.order).1 ↔ ∃ t ∈ Deed.ask.after networks a, t.Up :=
    (affirms_iff q b).trans (network?_of_association h.poll_association)
  have hconnected : (b.execute q.order).1.wifi = .connected ↔
      ∃ t ∈ Deed.ask.after networks a, t.Prompt := by
    constructor
    · intro hwifi
      have hup : ∃ t ∈ Deed.ask.after networks a, t.Up :=
        (network?_of_association h.poll_association).mp (up_of_connected q b hwifi)
      obtain ⟨t, ht, _⟩ := hup
      exact ⟨t, ht, (hafter.prompt t ht).mp hwifi⟩
    · rintro ⟨t, ht, hprompt⟩
      exact (hafter.prompt t ht).mpr hprompt
  refine ⟨haffirms, ?_, hconnected, hafter.settled.resolve_left, ?_⟩
  · intro hdenied
    have hnone : b.radio.poll.2.network? = none :=
      Option.not_isSome_iff_eq_none.mp fun hfound => hdenied ((affirms_iff q b).mpr hfound)
    rw [inquiry_of_down q b hnone]
  · rw [hconnected, haffirms]
    constructor
    · rintro hsame ⟨t, ht, hup, hlate⟩
      obtain ⟨u, hu, hprompt⟩ := hsame.mpr ⟨t, ht, hup⟩
      rw [Option.mem_unique ht hu] at hlate
      exact hlate hprompt
    · intro htimely
      constructor
      · rintro ⟨t, ht, hprompt⟩
        exact ⟨t, ht, hprompt.up⟩
      · rintro ⟨t, ht, hup⟩
        by_cases hprompt : t.Prompt
        · exact ⟨t, ht, hprompt⟩
        · exact absurd ⟨t, ht, hup, hprompt⟩ htimely

/-- What a board on which these deeds have been done says of its link. -/
structure ReportsLink (networks : List Network) (done : List Deed) (b : Board) : Prop where
  tells : ∀ q, Tells q (attempt networks none (done ++ [.ask])) b (b.execute q.order).1
  joins : ∀ ssid password, Joins networks ssid password b (b.execute (.connect ssid password)).1
  silent : ∀ before ssid password after, done = before ++ .join ssid password :: after →
    (∀ d ∈ .join ssid password :: after, ¬ d.Succeeds networks) →
      ∀ q, (b.execute q.order).1.wifi = .idle ∧
        (Affirms q b (b.execute q.order).1 → Late (attempt networks none (done ++ [.ask])))

/-- Whatever befalls a board, what it takes the link for agrees with what it says of it, unless the
last join has come about late. -/
theorem reports_agree_unless_late (networks : List Network) (plans : List Plan)
    (occurrences : List Occurrence) :
    ReportsLink networks (deeds (boot networks plans) occurrences)
      ((boot networks plans).befallen occurrences) := by
  have hexplains := (explains_boot networks plans).befallen occurrences
  generalize deeds (boot networks plans) occurrences = done at hexplains
  generalize (boot networks plans).befallen occurrences = b at hexplains
  have htells (q : Inquiry) : Tells q (attempt networks none (done ++ [.ask])) b (b.execute q.order).1 := by
    rw [attempt_append]
    exact hexplains.tells q
  refine ⟨htells, hexplains.joins, ?_⟩
  intro before ssid password after hdone hfailed q
  have hnever : ∀ t ∈ attempt networks none (done ++ [.ask]), ¬ t.Prompt := by
    rw [hdone, List.append_assoc, attempt_append]
    change ∀ t ∈ attempt networks (begun networks ssid password) (after ++ [.ask]), ¬ t.Prompt
    refine not_prompt_attempt ?_ ?_
    · exact fun t ht hprompt => hfailed _ List.mem_cons_self ⟨t, ht, hprompt⟩
    · intro d hd
      rcases List.mem_append.mp hd with hd | hd
      · exact hfailed d (List.mem_cons_of_mem _ hd)
      · rw [List.mem_singleton.mp hd]
        exact id
  have hwifi : (b.execute q.order).1.wifi ≠ .connected := by
    intro hwifi
    obtain ⟨t, ht, hprompt⟩ := (htells q).connected.mp hwifi
    exact hnever t ht hprompt
  refine ⟨(htells q).idle hwifi, ?_⟩
  intro haffirms
  obtain ⟨t, ht, hup⟩ := (htells q).affirms.mp haffirms
  exact ⟨t, ht, hup, hnever t ht⟩

/-- The join is given up one poll before the one that would complete it, and the question makes that
poll. -/
theorem reports_agree_unless_late_of_straggler :
    let straggler : Network := { ssid := "Home".toList, rssi := -45, joinPolls := 22 }
    let b := (boot [straggler] []).befallen [.order "CONNECT:Home:".toList]
    (b.execute .status).1.wifi = .idle ∧ Affirms .status b (b.execute .status).1 := by
  intro straggler b
  have hreports := reports_agree_unless_late [straggler] [] [.order "CONNECT:Home:".toList]
  have hfailed : ¬ (Deed.join "Home".toList []).Succeeds [straggler] := by
    rintro ⟨t, ht, hprompt⟩
    rw [← Option.some.inj ht] at hprompt
    exact absurd hprompt (by decide)
  have hsilent := hreports.silent [] "Home".toList [] [] (by decide) (by
    intro d hd
    rw [List.mem_singleton.mp hd]
    exact hfailed) .status
  have hup : ∃ t ∈ attempt [straggler] none [.join "Home".toList [], .ask], t.Up :=
    ⟨{ network := straggler, asked := 1 }, by decide, by decide⟩
  exact ⟨hsilent.1, (hreports.tells .status).affirms.mpr hup⟩

end StationLink.Board
