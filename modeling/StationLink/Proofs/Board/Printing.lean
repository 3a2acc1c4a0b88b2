import StationLink.Proofs.Board.Outcomes
import StationLink.Proofs.Protocol.Inbound

/-!
# What the orders print

A plain board stays plain and prints whole lines. What it prints of itself, and in answer to the
orders that are sent and forgotten, is silent about the status. No answer is taken for data from the
remote peer.
-/

namespace StationLink.Board

open Text Protocol

/-- The second board is plain, and has printed whole lines of this kind since the first. -/
structure Prints (P : Text → Prop) (b b' : Board) : Prop where
  plain : b'.Plain
  output : ∃ lines, b'.output = b.output ++ Utf8.encodeLines lines ∧ ∀ t ∈ lines, '\n' ∉ t ∧ P t

namespace Prints

variable {P : Text → Prop} {a b c : Board}

theorem quiet (hplain : b.Plain) (houtput : b.output = a.output) : Prints P a b :=
  ⟨hplain, [], by simp [houtput, Utf8.encodeLines], by simp⟩

theorem trans (h : Prints P a b) (h' : Prints P b c) : Prints P a c := by
  obtain ⟨lines, hout, hlines⟩ := h.output
  obtain ⟨more, hout', hmore⟩ := h'.output
  refine ⟨h'.plain, lines ++ more, ?_, List.forall_mem_append.mpr ⟨hlines, hmore⟩⟩
  rw [hout', hout, Utf8.encodeLines_append, List.append_assoc]

theorem line (t : Text) (h : b.Plain) (ht : '\n' ∉ t) (hP : P t) : Prints P b (b.printLine t) := by
  refine ⟨⟨h.radio, h.dialer⟩, [t], ?_, by simpa using ⟨ht, hP⟩⟩
  rw [printLine_eq, Utf8.encodeLines_singleton]

end Prints

theorem Plain.printLines {b : Board} (h : b.Plain) (lines : List Text) : (b.printLines lines).Plain := by
  rw [printLines_eq]
  exact ⟨h.radio, h.dialer⟩

theorem output_closeSession (b : Board) : b.closeSession.output = b.output := by
  simp only [closeSession]
  split <;> rfl

/-! ## Starting afresh -/

theorem Plain.reset {b : Board} (h : b.Plain) : b.reset.Plain := by
  have hclosed := h.closeSession
  have hleft : Plain { b.closeSession with
      radio := b.closeSession.radio.leave, wifi := .idle, input := [], output := [] } :=
    ⟨hclosed.radio.leave, hclosed.dialer⟩
  exact hleft.printLines banner

theorem input_reset (b : Board) : b.reset.input = [] := rfl

theorem output_reset (b : Board) : b.reset.output = Utf8.encodeLines banner :=
  congrArg Board.output (printLines_eq banner _)

theorem silent_banner : ∀ t ∈ banner, '\n' ∉ t ∧ Silent t := by
  decide

/-! ## Orders about WiFi -/

theorem not_mem_append {c : Char} {t u : Text} (ht : c ∉ t) (hu : c ∉ u) : c ∉ t ++ u := by
  simp [ht, hu]

theorem Radio.Plain.joined {r : Radio} (h : r.Plain) (ssid password : Text) : (r.joined ssid password).Plain := by
  have honto := r.onto_joined ssid password
  refine ⟨fun n hn => h.networks n (honto.networks ▸ hn), fun n hn => ?_⟩
  exact h.networks n (List.mem_of_find?_eq_some (honto.association n hn))

theorem mute_joinLines (r : Radio) (ssid password : Text) : ∀ t ∈ r.joinLines ssid password, Mute t := by
  have hverdict : ∀ t ∈ joinVerdict (r.joined ssid password), Mute t := by
    rw [joinVerdict]
    split
    · rename_i n _
      have hip : Mute (Mark.ip ++ n.ip) := mute_of_head 'I' _ (by decide) (by decide)
      exact List.forall_mem_cons.mpr ⟨by decide, List.forall_mem_singleton.mpr hip⟩
    · decide
  have hdots (n : Nat) : Mute (List.replicate n '.') := by
    cases n with
    | zero => decide
    | succ n => exact mute_of_head '.' (List.replicate n '.') (by decide) (by decide)
  exact List.forall_mem_cons.mpr ⟨mute_of_head 'C' _ (by decide) (by decide),
    List.forall_mem_cons.mpr ⟨hdots _, hverdict⟩⟩

theorem lineFeed_not_mem_joinLines (r : Radio) (ssid password : Text) (hssid : '\n' ∉ ssid)
    (hips : ∀ n ∈ r.networks, '\n' ∉ n.ip) : ∀ t ∈ r.joinLines ssid password, '\n' ∉ t := by
  have hverdict : ∀ t ∈ joinVerdict (r.joined ssid password), '\n' ∉ t := by
    rw [joinVerdict]
    split
    · rename_i n hn
      have hmem : n ∈ r.networks :=
        List.mem_of_find?_eq_some ((r.onto_joined ssid password).network n hn)
      have hip : '\n' ∉ Mark.ip ++ n.ip := not_mem_append (by decide) (hips n hmem)
      simpa using hip
    · decide
  refine List.forall_mem_cons.mpr ⟨not_mem_append (by decide) hssid, List.forall_mem_cons.mpr ⟨?_, hverdict⟩⟩
  simp [List.mem_replicate]

theorem prints_connect (ssid password : Text) (b : Board) (h : b.Plain) (hssid : '\n' ∉ ssid) :
    Prints Mute b (b.connect ssid password) := by
  rw [connect_eq]
  refine ⟨⟨h.radio.joined ssid password, h.dialer⟩, _, rfl,
    fun t ht => ⟨?_, mute_joinLines _ ssid password t ht⟩⟩
  exact lineFeed_not_mem_joinLines _ ssid password hssid (fun n hn => (h.radio.networks n hn).ip) t ht

theorem prints_disconnect {P : Text → Prop} (hP : P "OK:Disconnected".toList) (b : Board) (h : b.Plain) :
    Prints P b b.disconnect := by
  have hleave : Prints P b { b with radio := b.radio.leave, wifi := .idle } :=
    .quiet ⟨h.radio.leave, h.dialer⟩ rfl
  exact hleave.trans (.line _ hleave.plain (by decide) hP)

theorem prints_reportAddress (b : Board) (h : b.Plain) : Prints Mute b b.reportAddress := by
  obtain ⟨wifi, heq⟩ := reportAddress_eq b
  have hline : '\n' ∉ addressLine b.radio.poll.2 ∧ Mute (addressLine b.radio.poll.2) := by
    rw [addressLine]
    split
    · rename_i n hn
      exact ⟨not_mem_append (by decide) (h.radio.poll.network n hn).ip,
        mute_of_head 'I' _ (by decide) (by decide)⟩
    · exact ⟨by decide, by decide⟩
  rw [heq]
  refine ⟨⟨h.radio.poll, h.dialer⟩, [_], ?_, List.forall_mem_singleton.mpr hline⟩
  rw [Utf8.encodeLines_singleton]

theorem write?_of_plain {n : Network} (h : n.Plain) : ∃ signal, Numeral.write? n.rssi = some signal :=
  Option.isSome_iff_exists.mp ((Numeral.write?_isSome_iff n.rssi).mpr h.signal)

theorem not_mem_signal {n : Int} {signal : Text} (h : Numeral.write? n = some signal) :
    '\n' ∉ signal :=
  Numeral.not_mem_write? n signal '\n' h (by decide) (by decide)

theorem surveyLine?_of_plain (n : Network) (h : n.Plain) :
    ∃ line, surveyLine? n = some line ∧ '\n' ∉ line ∧ Mute line := by
  obtain ⟨signal, hsignal⟩ := write?_of_plain h
  have hend : '\n' ∉ (':' :: if n.password.isNone then Mark.unsecured else Mark.secured) := by
    split <;> decide
  have hnumber : '\n' ∉ ':' :: signal := by simpa using not_mem_signal hsignal
  refine ⟨_, by rw [surveyLine?, hsignal]; rfl, ?_, ?_⟩
  · exact not_mem_append (not_mem_append (not_mem_append (by decide) h.ssid) hnumber) hend
  · exact mute_of_head 'N' _ (by decide) (by decide)

theorem printSurvey_of_plain (networks : List Network) (b : Board) (h : b.Plain)
    (hnetworks : ∀ n ∈ networks, n.Plain) :
    (printSurvey networks b).2 = none ∧ Prints Mute b (printSurvey networks b).1 := by
  induction networks generalizing b with
  | nil => exact ⟨rfl, .quiet h rfl⟩
  | cons n networks ih =>
    obtain ⟨line, hline, hmem, hmute⟩ := surveyLine?_of_plain n (hnetworks n List.mem_cons_self)
    have hprint := Prints.line line h hmem hmute
    obtain ⟨hcrash, hrest⟩ := ih (b.printLine line) hprint.plain
      fun m hm => hnetworks m (List.mem_cons_of_mem n hm)
    simp only [printSurvey, hline]
    exact ⟨hcrash, hprint.trans hrest⟩

theorem reportSurvey_of_plain (b : Board) (h : b.Plain) :
    b.reportSurvey.2 = none ∧ Prints Mute b b.reportSurvey.1 := by
  have hbegin := Prints.line (P := Mute) "SCANNING...".toList h (by decide) (by decide)
  simp only [reportSurvey]
  split
  · exact ⟨rfl, hbegin.trans (.line _ hbegin.plain (by decide) (by decide))⟩
  · have hcount : '\n' ∉ Nat.toDigits 10 b.radio.networks.length := by
      intro hmem
      have hdigit := Numeral.isDigit_of_mem_toDigits hmem
      cases hdigit
    have hfound := Prints.line (P := Mute) ("SCAN:Found ".toList ++
        Nat.toDigits 10 (b.printLine "SCANNING...".toList).radio.networks.length ++
        " networks".toList) hbegin.plain
      (not_mem_append (not_mem_append (by decide) hcount) (by decide))
      (mute_of_head 'S' _ (by decide) (by decide))
    obtain ⟨hcrash, hrest⟩ := printSurvey_of_plain b.radio.networks _ hfound.plain h.radio.networks
    exact ⟨hcrash, hbegin.trans (hfound.trans hrest)⟩

/-! ## Orders about TCP -/

theorem prints_closeSession (P : Text → Prop) (b : Board) (h : b.Plain) :
    Prints P b b.closeSession :=
  .quiet h.closeSession (output_closeSession b)

theorem dial_of_plain (host : Text) (port : Int) (b : Board) (h : b.Plain) :
    (b.dial host port).2 = none ∧ Prints Mute b (b.dial host port).1 := by
  obtain ⟨hplan, hdialer⟩ := h.dialer.dial host port
  have hdialed : Prints Mute b { b with dialer := (b.dialer.dial host port).2 } :=
    .quiet ⟨h.radio, hdialer⟩ rfl
  simp only [dial]
  split
  · exact ⟨rfl, hdialed.trans (.line _ hdialed.plain (by decide) (by decide))⟩
  · rename_i hfault
    rw [hfault] at hplan
    exact absurd hplan id
  · rename_i socket hsocket
    have hunblocked : (((b.dialer.dial host port).2).modify b.dialer.sockets.length Socket.unblock).Plain :=
      hdialer.modify _ _ fun s hs => by
        rw [Socket.unblock]
        split
        · exact hs
        · exact hs
    split
    · have hfailed : Prints Mute b
          { b with
            dialer := ((b.dialer.dial host port).2).modify b.dialer.sockets.length Socket.unblock } :=
        .quiet ⟨h.radio, hunblocked⟩ rfl
      exact ⟨rfl, hfailed.trans (.line _ hfailed.plain (by decide) (by decide))⟩
    · have hopened : Prints Mute b
          { b with
            dialer := ((b.dialer.dial host port).2).modify b.dialer.sockets.length Socket.unblock
            session := some ⟨host, port, b.dialer.sockets.length⟩ } :=
        .quiet ⟨h.radio, hunblocked⟩ rfl
      exact ⟨rfl, hopened.trans (.line _ hopened.plain (by decide) (by decide))⟩

theorem lineFeed_not_mem_callLine (host number : Text) (port : Int) (hhost : '\n' ∉ host)
    (hnumber : Numeral.write? port = some number) : '\n' ∉ callLine host number := by
  have htail : '\n' ∉ ':' :: number := by simpa using not_mem_signal hnumber
  exact not_mem_append (not_mem_append (by decide) hhost) htail

theorem tcpConnect_of_plain (host : Text) (port : Int) (number : Text) (b : Board) (h : b.Plain)
    (hhost : '\n' ∉ host) (hnumber : Numeral.write? port = some number) :
    (b.tcpConnect host port).2 = none ∧ Prints Mute b (b.tcpConnect host port).1 := by
  have hmute : Mute (callLine host number) := mute_call ("Connecting to ".toList ++ host ++ ':' :: number)
  have hbegin := Prints.line (P := Mute) (callLine host number) h
    (lineFeed_not_mem_callLine host number port hhost hnumber) hmute
  have hclose := prints_closeSession Mute _ hbegin.plain
  obtain ⟨hcrash, hdial⟩ := dial_of_plain host port _ hclose.plain
  simp only [tcpConnect, hnumber]
  exact ⟨hcrash, hbegin.trans (hclose.trans hdial)⟩

theorem prints_aliveSession (P : Text → Prop) (b : Board) (h : b.Plain) :
    Prints P b b.aliveSession.2 := by
  refine .quiet h.aliveSession ?_
  simp only [aliveSession]
  split
  · rfl
  · split
    · exact output_closeSession _
    · exact output_closeSession _
    · rfl
    · rfl

theorem prints_tcpSend {P : Text → Prop} (hsent : P "OK:Data sent".toList)
    (hlost : P "ERROR:Not connected".toList) (data : Text) (b : Board) (h : b.Plain) :
    Prints P b (b.tcpSend data) := by
  have halive := prints_aliveSession P b h
  simp only [tcpSend]
  split
  · rename_i b' hsession
    rw [hsession] at halive
    exact halive.trans (.line _ halive.plain (by decide) hlost)
  · rename_i s b' hsession
    rw [hsession] at halive
    have hsend : Prints P b'
        { b' with dialer := b'.dialer.modify s.socket (Socket.send (Utf8.encode data)) } :=
      .quiet ⟨halive.plain.radio, halive.plain.dialer.modify _ _ fun _ hs => hs⟩ rfl
    split
    · have hclose := prints_closeSession P _ hsend.plain
      exact halive.trans (hsend.trans (hclose.trans (.line _ hclose.plain (by decide) hlost)))
    · exact halive.trans (hsend.trans (.line _ hsend.plain (by decide) hsent))

theorem prints_tcpClose {P : Text → Prop} (hclosed : P "OK:TCP connection closed".toList)
    (hnone : P "ERROR:No active TCP connection".toList) (b : Board) (h : b.Plain) :
    Prints P b b.tcpClose := by
  have halive := prints_aliveSession P b h
  simp only [tcpClose]
  split
  · rename_i b' hsession
    rw [hsession] at halive
    exact halive.trans (.line _ halive.plain (by decide) hnone)
  · rename_i s b' hsession
    rw [hsession] at halive
    have hclose := prints_closeSession P b' halive.plain
    exact halive.trans (hclose.trans (.line _ hclose.plain (by decide) hclosed))

/-- Data from the remote peer is forwarded in a line that is silent, and not even at every turn. -/
theorem prints_forward (b : Board) (h : b.Plain) : Prints Silent b b.forward := by
  simp only [forward]
  split
  · exact .quiet h rfl
  · rename_i s hs
    obtain ⟨hbytes, hrest⟩ := (h.inbox s).drain
    generalize drain (b.inbox s) = drained at hbytes hrest
    obtain ⟨bytes, ended, inbox⟩ := drained
    have hset : Prints Silent b (b.setInbox s inbox) := .quiet (h.setInbox s hrest) rfl
    have hforwarded : Prints Silent b
        (if bytes = [] then b.setInbox s inbox
          else (b.setInbox s inbox).printLine (Mark.tcpData ++ Utf8.decode bytes)) := by
      split
      · exact hset
      · exact hset.trans (.line _ hset.plain
          (not_mem_append (by decide) (Utf8.not_mem_decode bytes hbytes)) (silent_tcpData _))
    dsimp only
    split
    · exact hforwarded.trans (prints_closeSession Silent _ hforwarded.plain)
    · exact hforwarded

end StationLink.Board
