import StationLink.Proofs.Board.Codec
import StationLink.Proofs.Board.Printing

/-!
# The verdict tells the truth

A join and the orders about TCP each print one verdict, in a line of its own. It says what has become
of the board, whatever the radio, the session, its inbox and the plans of the dialer are.
-/

namespace StationLink.Board

open Text Protocol

/-- Whole lines are printed; of the two verdicts one is among them, once, and each says what it stands
for. -/
def Says (b b' : Board) (success failure : Text) (done undone : Prop) : Prop :=
  ∃ lines, b'.output = b.output ++ Utf8.encodeLines lines ∧ (∀ t ∈ lines, '\n' ∉ t) ∧
    lines.count success + lines.count failure = 1 ∧
    (success ∈ lines ↔ done) ∧ (failure ∈ lines ↔ undone)

/-- A line that is no verdict. -/
structure Aside (t : Text) : Prop where
  lineFeed : '\n' ∉ t
  success : t.head? ≠ some 'O'
  failure : t.head? ≠ some 'E'

theorem aside_of_head (c : Char) (t : Text) (ht : '\n' ∉ c :: t) (hO : c ≠ 'O') (hE : c ≠ 'E') :
    Aside (c :: t) :=
  ⟨ht, by simpa using hO, by simpa using hE⟩

theorem aside_dots (dots : Nat) : Aside (List.replicate dots '.') := by
  cases dots with
  | zero => exact ⟨by decide, by decide, by decide⟩
  | succ dots => exact aside_of_head '.' (List.replicate dots '.') (by simp) (by decide) (by decide)

section

variable {b b' : Board} {success failure : Text} {done undone : Prop} {before after : List Text}

theorem Says.done_or_undone (h : Says b b' success failure done undone) : done ∨ undone := by
  obtain ⟨lines, _, _, hone, hdone, hundone⟩ := h
  rcases Nat.eq_zero_or_pos (lines.count success) with hzero | hpos
  · have hfailed : 0 < lines.count failure := by omega
    exact .inr (hundone.mp (List.count_pos_iff.mp hfailed))
  · exact .inl (hdone.mp (List.count_pos_iff.mp hpos))

theorem not_mem_of_aside {t : Text} {c : Char} (ht : t.head? = some c) (hc : c = 'O' ∨ c = 'E')
    {lines : List Text} (h : ∀ u ∈ lines, Aside u) : t ∉ lines := by
  intro hmem
  have haside := h t hmem
  rcases hc with rfl | rfl
  · exact haside.success ht
  · exact haside.failure ht

theorem says_of_verdict {verdict other : Text} {c d : Char} (hverdict : verdict.head? = some c)
    (hother : other.head? = some d) (hc : c = 'O' ∨ c = 'E') (hd : d = 'O' ∨ d = 'E') (hne : c ≠ d)
    (hfree : '\n' ∉ verdict) (hbefore : ∀ t ∈ before, Aside t) (hafter : ∀ t ∈ after, Aside t) :
    (∀ t ∈ before ++ verdict :: after, '\n' ∉ t) ∧
      (before ++ verdict :: after).count verdict = 1 ∧
      (before ++ verdict :: after).count other = 0 := by
  have hdiffer : verdict ≠ other := by
    rintro rfl
    exact hne (Option.some.inj (hverdict.symm.trans hother))
  refine ⟨?_, ?_, ?_⟩
  · intro t ht
    rcases List.mem_append.mp ht with ht | ht
    · exact (hbefore t ht).lineFeed
    · rcases List.mem_cons.mp ht with rfl | ht
      · exact hfree
      · exact (hafter t ht).lineFeed
  · rw [List.count_append, List.count_cons_self,
      List.count_eq_zero_of_not_mem (not_mem_of_aside hverdict hc hbefore),
      List.count_eq_zero_of_not_mem (not_mem_of_aside hverdict hc hafter)]
  · rw [List.count_append, List.count_cons_of_ne hdiffer,
      List.count_eq_zero_of_not_mem (not_mem_of_aside hother hd hbefore),
      List.count_eq_zero_of_not_mem (not_mem_of_aside hother hd hafter)]

variable (before after) (hsuccess : success.head? = some 'O') (hfailure : failure.head? = some 'E')
  (hbefore : ∀ t ∈ before, Aside t) (hafter : ∀ t ∈ after, Aside t)

include hsuccess hfailure hbefore hafter

theorem says_success (hfree : '\n' ∉ success)
    (houtput : b'.output = b.output ++ Utf8.encodeLines (before ++ success :: after))
    (hdone : done) (hnot : ¬ undone) : Says b b' success failure done undone := by
  obtain ⟨hlines, hone, hnone⟩ := says_of_verdict hsuccess hfailure (.inl rfl) (.inr rfl) (by decide)
    hfree hbefore hafter
  refine ⟨_, houtput, hlines, by rw [hone, hnone], ?_, ?_⟩
  · exact iff_of_true (List.count_pos_iff.mp (by omega)) hdone
  · exact iff_of_false (List.count_eq_zero.mp hnone) hnot

theorem says_failure (hfree : '\n' ∉ failure)
    (houtput : b'.output = b.output ++ Utf8.encodeLines (before ++ failure :: after))
    (hundone : undone) (hnot : ¬ done) : Says b b' success failure done undone := by
  obtain ⟨hlines, hone, hnone⟩ := says_of_verdict hfailure hsuccess (.inr rfl) (.inl rfl) (by decide)
    hfree hbefore hafter
  refine ⟨_, houtput, hlines, by rw [hone, hnone], ?_, ?_⟩
  · exact iff_of_false (List.count_eq_zero.mp hnone) hnot
  · exact iff_of_true (List.count_pos_iff.mp (by omega)) hundone

end

/-! ## A join -/

theorem connect_says (ssid password : Text) (b : Board) (hssid : '\n' ∉ ssid)
    (hips : ∀ n ∈ b.radio.networks, '\n' ∉ n.ip) :
    Says b (b.connect ssid password) "OK:Connected".toList "ERROR:Connection failed".toList
      ((b.connect ssid password).wifi = .connected ∧
        ∃ n, b.radio.find? ssid = some n ∧ (b.connect ssid password).radio.network? = some n)
      ((b.connect ssid password).wifi = .idle ∧ (b.connect ssid password).radio.network? = none) := by
  have honto := b.radio.onto_joined ssid password
  rw [connect_eq, Radio.joinLines]
  generalize b.radio.joined ssid password = radio at honto
  generalize b.radio.waits ssid password = dots
  have hbefore : ∀ t ∈ ["CONNECTING:".toList ++ ssid, List.replicate dots '.'], Aside t := by
    intro t ht
    simp only [List.mem_cons, List.not_mem_nil, or_false] at ht
    rcases ht with rfl | rfl
    · have hfree : '\n' ∉ "CONNECTING:".toList ++ ssid := not_mem_append (by decide) hssid
      exact aside_of_head 'C' _ hfree (by decide) (by decide)
    · exact aside_dots dots
  cases hn : radio.network? with
  | none =>
    have hlines : joinVerdict radio = ["ERROR:Connection failed".toList] := by rw [joinVerdict, hn]
    have hstate : joinState radio = .idle := by rw [joinState, hn]; rfl
    refine says_failure _ [] rfl rfl hbefore (by simp) (by decide) ?_ ⟨hstate, rfl⟩ ?_
    · rw [hlines]
      rfl
    · rintro ⟨_, n, _, hsome⟩
      cases hsome
  | some n =>
    have hlines : joinVerdict radio = ["OK:Connected".toList, Mark.ip ++ n.ip] := by rw [joinVerdict, hn]
    have hstate : joinState radio = .connected := by rw [joinState, hn]; rfl
    have hfind : b.radio.find? ssid = some n := honto.network n hn
    have hip : '\n' ∉ Mark.ip ++ n.ip :=
      not_mem_append (by decide) (hips n (List.mem_of_find?_eq_some hfind))
    have hafter : ∀ t ∈ [Mark.ip ++ n.ip], Aside t :=
      List.forall_mem_singleton.mpr (aside_of_head 'I' _ hip (by decide) (by decide))
    refine says_success _ _ rfl rfl hbefore hafter (by decide) ?_ ⟨hstate, n, hfind, rfl⟩ ?_
    · rw [hlines]
      rfl
    · rintro ⟨_, hnone⟩
      cases hnone

/-! ## The orders about TCP -/

theorem tcpConnect_says (host port : Text) (b b' : Board) (hhost : '\n' ∉ host)
    (hrun : b.tcpConnect host (Numeral.lenient port) = (b', none)) :
    Says b b' "OK:TCP connected".toList "ERROR:TCP connection failed".toList
      (∃ socket, b.dialer.nextPlan = .answer socket ∧
        b'.session = some ⟨host, Numeral.lenient port, b.dialer.sockets.length⟩ ∧
        b'.dialer.sockets[b.dialer.sockets.length]? = some socket.unblock)
      (b'.session = none) := by
  obtain ⟨number, hnumber⟩ := Numeral.exists_write?_lenient port
  have hcall : '\n' ∉ callLine host number := lineFeed_not_mem_callLine host number _ hhost hnumber
  have hbefore : ∀ t ∈ [callLine host number], Aside t :=
    List.forall_mem_singleton.mpr (aside_of_head 'T' _ hcall (by decide) (by decide))
  rcases tcpConnect_spec host _ number b hnumber with
    ⟨socket, dialer, husable, hspec, hsocket⟩ | ⟨dialer, _, _, hspec⟩ | ⟨dialer, _, hspec⟩
  · obtain rfl := congrArg Prod.fst (hspec.symm.trans hrun)
    have hplan : b.dialer.nextPlan = .answer socket := Plan.eq_answer_of_usable? husable
    exact says_success _ [] rfl rfl hbefore (by simp) (by decide) rfl
      ⟨socket, hplan, rfl, hsocket⟩ (by simp)
  · obtain rfl := congrArg Prod.fst (hspec.symm.trans hrun)
    refine says_failure _ [] rfl rfl hbefore (by simp) (by decide) rfl rfl ?_
    rintro ⟨_, _, hsome, _⟩
    cases hsome
  · cases hspec.symm.trans hrun

theorem tcpSend_says (data : Text) (b : Board) :
    Says b (b.tcpSend data) "OK:Data sent".toList "ERROR:Not connected".toList
      (∃ s, b.session = some s ∧ (b.tcpSend data).session = some s ∧
        (b.tcpSend data).dialer.sent = b.dialer.sent.modify s.socket (· ++ Utf8.encode data))
      ((b.tcpSend data).session = none ∧ ((b.tcpSend data).dialer.sent = b.dialer.sent ∨
        b.PartSent (Utf8.encode data) (b.tcpSend data).dialer.sent)) := by
  rcases tcpSend_spec data b with ⟨s, dialer, hs, hspec, hsent⟩ | ⟨dialer, hspec, hsent⟩
  · rw [hspec]
    refine says_success [] [] rfl rfl (by simp) (by simp) (by decide) rfl
      ⟨s, hs, hs, hsent⟩ ?_
    rintro ⟨hnone, _⟩
    cases hs.symm.trans hnone
  · rw [hspec]
    refine says_failure [] [] rfl rfl (by simp) (by simp) (by decide) rfl
      ⟨rfl, hsent⟩ ?_
    rintro ⟨_, _, hsome, _⟩
    cases hsome

theorem tcpClose_says (b : Board) :
    b.tcpClose.session = none ∧
      Says b b.tcpClose "OK:TCP connection closed".toList "ERROR:No active TCP connection".toList
        b.Live (¬ b.Live) := by
  rcases tcpClose_spec b with ⟨dialer, hlive, hspec⟩ | ⟨dialer, hlive, hspec⟩
  · rw [hspec]
    exact ⟨rfl, says_success [] [] rfl rfl (by simp) (by simp) (by decide) rfl
      hlive fun hnot => hnot hlive⟩
  · rw [hspec]
    exact ⟨rfl, says_failure [] [] rfl rfl (by simp) (by simp) (by decide) rfl
      hlive hlive⟩

/-! ## The verdict of a text -/

/-- A text that is carried out without a crash prints one verdict if it is a join, a call, data to send
or the end of a session. The verdict of a join says whether the station is associated with the first
network of that name; that of a call, whether the session is now the one with the socket that the dialer
has handed out; that of data, whether just these bytes have gone to the socket of the session, which
otherwise is gone and has taken part of them at most; and that of the end, whether there was a session
that was alive. -/
theorem verdict_is_true (b b' : Board) (text : Text) (hips : ∀ n ∈ b.radio.networks, '\n' ∉ n.ip)
    (htext : '\n' ∉ text) (hrun : b.execute (.ofText text) = (b', none)) :
    (∀ ssid password, ':' ∉ ssid → trim text = "CONNECT:".toList ++ (ssid ++ ':' :: password) →
      Says b b' "OK:Connected".toList "ERROR:Connection failed".toList
        (b'.wifi = .connected ∧ ∃ n, b.radio.find? ssid = some n ∧ b'.radio.network? = some n)
        (b'.wifi = .idle ∧ b'.radio.network? = none)) ∧
    (∀ host port, host ≠ [] → ':' ∉ port →
      trim text = "TCPCONNECT:".toList ++ (host ++ ':' :: port) →
      Says b b' "OK:TCP connected".toList "ERROR:TCP connection failed".toList
        (∃ socket, b.dialer.nextPlan = .answer socket ∧
          b'.session = some ⟨host, Numeral.lenient port, b.dialer.sockets.length⟩ ∧
          b'.dialer.sockets[b.dialer.sockets.length]? = some socket.unblock)
        (b'.session = none)) ∧
    (∀ data, trim text = "TCPSEND:".toList ++ data →
      Says b b' "OK:Data sent".toList "ERROR:Not connected".toList
        (∃ s, b.session = some s ∧ b'.session = some s ∧
          b'.dialer.sent = b.dialer.sent.modify s.socket (· ++ Utf8.encode data))
        (b'.session = none ∧
          (b'.dialer.sent = b.dialer.sent ∨ b.PartSent (Utf8.encode data) b'.dialer.sent))) ∧
    (trim text = "TCPCLOSE".toList →
      b'.session = none ∧
        Says b b' "OK:TCP connection closed".toList "ERROR:No active TCP connection".toList
          b.Live (¬ b.Live)) := by
  have htrim : '\n' ∉ trim text := fun hmem => htext (mem_of_mem_trim hmem)
  refine ⟨?_, ?_, ?_, ?_⟩
  · intro ssid password hssid hline
    rw [Order.ofText_of_trim_connect text ssid password hssid hline] at hrun
    obtain rfl : b.connect ssid password = b' := congrArg Prod.fst hrun
    rw [hline] at htrim
    refine connect_says ssid password b ?_ hips
    intro hmem
    exact htrim (List.mem_append_right _ (List.mem_append_left _ hmem))
  · intro host port hhost hport hline
    rw [Order.ofText_of_trim_tcpConnect text host port hhost hport hline] at hrun
    rw [hline] at htrim
    refine tcpConnect_says host port b b' ?_ hrun
    intro hmem
    exact htrim (List.mem_append_right _ (List.mem_append_left _ hmem))
  · intro data hline
    rw [Order.ofText_of_trim_tcpSend text data hline] at hrun
    obtain rfl : b.tcpSend data = b' := congrArg Prod.fst hrun
    exact tcpSend_says data b
  · intro hline
    rw [Order.ofText_of_trim_tcpClose text hline] at hrun
    obtain rfl : b.tcpClose = b' := congrArg Prod.fst hrun
    exact tcpClose_says b

/-- Two networks of one name, of which the first takes three polls to join, and a session whose peer has
interrupted a read. -/
def crowded : Board where
  radio := { networks := [⟨"Home".toList, -45, some "a:b".toList, "10.0.0.2".toList, 3, true⟩,
    ⟨"Home".toList, -40, none, "10.0.0.3".toList, 0, true⟩] }
  dialer := { plans := [], sockets := [{}, { inbox := [.interrupt, .eof] }] }
  session := some ⟨"h".toList, 80, 1⟩

theorem verdict_is_true_of_crowded :
    (∀ n ∈ crowded.radio.networks, '\n' ∉ n.ip) ∧
      (∃ b', crowded.execute (.ofText "CONNECT:Home:a:b \r".toList) = (b', none) ∧
        Says crowded b' "OK:Connected".toList "ERROR:Connection failed".toList
          (b'.wifi = .connected ∧
            ∃ n, crowded.radio.find? "Home".toList = some n ∧ b'.radio.network? = some n)
          (b'.wifi = .idle ∧ b'.radio.network? = none)) ∧
      (∃ b', crowded.execute (.ofText "TCPSEND:é".toList) = (b', none) ∧
        Says crowded b' "OK:Data sent".toList "ERROR:Not connected".toList
          (∃ s, crowded.session = some s ∧ b'.session = some s ∧
            b'.dialer.sent = crowded.dialer.sent.modify s.socket (· ++ Utf8.encode "é".toList))
          (b'.session = none ∧ (b'.dialer.sent = crowded.dialer.sent ∨
            crowded.PartSent (Utf8.encode "é".toList) b'.dialer.sent))) := by
  have hips : ∀ n ∈ crowded.radio.networks, '\n' ∉ n.ip := by decide
  have hjoin : crowded.execute (.ofText "CONNECT:Home:a:b \r".toList) =
      ((crowded.execute (.ofText "CONNECT:Home:a:b \r".toList)).1, none) := Prod.ext rfl rfl
  have hsend : crowded.execute (.ofText "TCPSEND:é".toList) =
      ((crowded.execute (.ofText "TCPSEND:é".toList)).1, none) := Prod.ext rfl rfl
  refine ⟨hips, ⟨_, hjoin, ?_⟩, ⟨_, hsend, ?_⟩⟩
  · exact (verdict_is_true crowded _ _ hips (by decide) hjoin).1 "Home".toList "a:b".toList
      (by decide) (by decide)
  · exact (verdict_is_true crowded _ _ hips (by decide) hsend).2.2.1 "é".toList (by decide)

/-- The board after a call that the dialer has answered with this socket. -/
def called (socket : Socket) : Board :=
  ((boot [] [.answer socket]).execute (.ofText "TCPCONNECT:h:80".toList)).1

/-- A socket that gets one byte of what it is to send through. -/
def leaky : Socket where
  failsSend := true
  partialSend := 1

/-- An error does not mean that nothing was sent, as one byte of two may have gone out. Nor are the bytes
of the text as it came sent, but of what trimming leaves of it. -/
theorem sent_beside_verdict :
    (∃ b', (called leaky).execute (.ofText "TCPSEND:xy".toList) = (b', none) ∧
      ¬ Says (called leaky) b' "OK:Data sent".toList "ERROR:Not connected".toList
        (∃ s, (called leaky).session = some s ∧ b'.session = some s ∧
          b'.dialer.sent = (called leaky).dialer.sent.modify s.socket (· ++ Utf8.encode "xy".toList))
        (b'.session = none ∧ b'.dialer.sent = (called leaky).dialer.sent)) ∧
    (∃ b', (called {}).execute (.ofText "TCPSEND:x ".toList) = (b', none) ∧
      ¬ Says (called {}) b' "OK:Data sent".toList "ERROR:Not connected".toList
        (∃ s, (called {}).session = some s ∧ b'.session = some s ∧
          b'.dialer.sent = (called {}).dialer.sent.modify s.socket (· ++ Utf8.encode "x ".toList))
        (b'.session = none ∧ b'.dialer.sent = (called {}).dialer.sent)) := by
  have hleaky : (called leaky).execute (.ofText "TCPSEND:xy".toList) =
      (((called leaky).execute (.ofText "TCPSEND:xy".toList)).1, none) := Prod.ext rfl rfl
  have hended : ((called leaky).execute (.ofText "TCPSEND:xy".toList)).1.session = none := rfl
  have htrimmed : (called {}).execute (.ofText "TCPSEND:x ".toList) =
      (((called {}).execute (.ofText "TCPSEND:x ".toList)).1, none) := Prod.ext rfl rfl
  have hstands : ((called {}).execute (.ofText "TCPSEND:x ".toList)).1.session =
      some ⟨"h".toList, 80, 0⟩ := rfl
  refine ⟨⟨_, hleaky, ?_⟩, ⟨_, htrimmed, ?_⟩⟩
  · intro hsays
    rcases hsays.done_or_undone with ⟨s, _, hsome, _⟩ | ⟨_, hsent⟩
    · cases hended.symm.trans hsome
    · exact absurd hsent (by decide)
  · intro hsays
    rcases hsays.done_or_undone with ⟨s, _, hsome, hsent⟩ | ⟨hnone, _⟩
    · obtain rfl := Option.some.inj (hstands.symm.trans hsome)
      exact absurd hsent (by decide)
    · cases hstands.symm.trans hnone

end StationLink.Board
