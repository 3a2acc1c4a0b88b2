import StationLink.Proofs.Board.Printing

/-!
# The answer to a status request

The answer is read off the radio, in one line if it is not associated and in four if it is. Whoever
reads these lines, among any silent ones, has the state of the radio again, but for the blanks at the
end of a name or an address.
-/

namespace StationLink.Board

open Text Protocol

/-- The report of a network, with its signal as a numeral. -/
def reportOf (n : Network) (signal : Text) : List Text :=
  [Mark.status ++ Mark.connected, Mark.ssid ++ n.ssid, Mark.ip ++ n.ip,
    Mark.rssi ++ signal ++ " dBm".toList]

def Reports (r : Radio) (lines : List Text) : Prop :=
  match r.network? with
  | none => lines = [Mark.status ++ Mark.disconnected]
  | some n => ∃ signal, Numeral.write? n.rssi = some signal ∧ lines = reportOf n signal

theorem noticeLoss_spec (b : Board) :
    b.noticeLoss.1 = b.noticeLoss.2.radio.network?.isSome ∧
      b.noticeLoss.2.output = b.output := by
  rw [noticeLoss_snd]
  exact ⟨b.radio.poll_fst, rfl⟩

theorem reportStatus_of_up (b : Board) (n : Network) (signal : Text)
    (hn : b.noticeLoss.2.radio.network? = some n) (hsignal : Numeral.write? n.rssi = some signal) :
    b.reportStatus = (b.noticeLoss.2.printLines (reportOf n signal), none) := by
  have hup : b.noticeLoss.1 = true := by rw [b.noticeLoss_spec.1, hn]; rfl
  have hssid : b.noticeLoss.2.radio.ssid = n.ssid := by rw [Radio.ssid, hn]; rfl
  have hip : b.noticeLoss.2.radio.ip = n.ip := by rw [Radio.ip, hn]; rfl
  have hrssi : b.noticeLoss.2.radio.rssi = n.rssi := by rw [Radio.rssi, hn]; rfl
  simp only [reportStatus, hup, radio_printLine, hrssi, hsignal, hssid, hip]
  rfl

theorem reportStatus_of_down (b : Board) (hn : b.noticeLoss.2.radio.network? = none) :
    b.reportStatus = (b.noticeLoss.2.printLines [Mark.status ++ Mark.disconnected], none) := by
  have hdown : b.noticeLoss.1 = false := by rw [b.noticeLoss_spec.1, hn]; rfl
  simp only [reportStatus, hdown]
  rfl

theorem not_mem_reportOf (n : Network) (signal : Text) (hn : n.Plain)
    (hsignal : Numeral.write? n.rssi = some signal) : ∀ t ∈ reportOf n signal, '\n' ∉ t := by
  have hlast : '\n' ∉ Mark.rssi ++ signal ++ " dBm".toList :=
    not_mem_append (not_mem_append (by decide) (not_mem_signal hsignal)) (by decide)
  intro t ht
  simp only [reportOf, List.mem_cons, List.not_mem_nil, or_false] at ht
  rcases ht with rfl | rfl | rfl | rfl
  · decide
  · exact not_mem_append (by decide) hn.ssid
  · exact not_mem_append (by decide) hn.ip
  · exact hlast

theorem reportStatus_of_radio (b : Board) (h : b.radio.Plain) :
    ∃ b' lines, b.reportStatus = (b', none) ∧ b'.radio.Plain ∧ b'.dialer = b.dialer ∧
      b'.session = b.session ∧ Reports b'.radio lines ∧
      b'.output = b.output ++ Utf8.encodeLines lines ∧ ∀ t ∈ lines, '\n' ∉ t := by
  have hloss := noticeLoss_snd b
  have hplain : b.noticeLoss.2.radio.Plain := by
    rw [hloss]
    exact h.poll
  have hprinted (lines : List Text) : b.noticeLoss.2.printLines lines =
      { b.noticeLoss.2 with output := b.output ++ Utf8.encodeLines lines } := by
    rw [printLines_eq, b.noticeLoss_spec.2]
  have hdialer : b.noticeLoss.2.dialer = b.dialer := by rw [hloss]
  have hsession : b.noticeLoss.2.session = b.session := by rw [hloss]
  cases hn : b.noticeLoss.2.radio.network? with
  | none =>
    have hreports : Reports b.noticeLoss.2.radio [Mark.status ++ Mark.disconnected] := by
      rw [Reports, hn]
    refine ⟨_, [Mark.status ++ Mark.disconnected], reportStatus_of_down b hn, ?_⟩
    rw [hprinted]
    exact ⟨hplain, hdialer, hsession, hreports, rfl, by decide⟩
  | some n =>
    have hnet := hplain.network n hn
    obtain ⟨signal, hsignal⟩ := write?_of_plain hnet
    have hreports : Reports b.noticeLoss.2.radio (reportOf n signal) := by
      rw [Reports, hn]
      exact ⟨signal, hsignal, rfl⟩
    refine ⟨_, reportOf n signal, reportStatus_of_up b n signal hn hsignal, ?_⟩
    rw [hprinted]
    exact ⟨hplain, hdialer, hsession, hreports, rfl, not_mem_reportOf n signal hnet hsignal⟩

theorem reportStatus_of_plain (b : Board) (h : b.Plain) :
    ∃ b' lines, b.reportStatus = (b', none) ∧ b'.Plain ∧ Reports b'.radio lines ∧
      b'.output = b.output ++ Utf8.encodeLines lines ∧ ∀ t ∈ lines, '\n' ∉ t := by
  obtain ⟨b', lines, hrun, hradio, hdialer, _, hreports, houtput, hfree⟩ :=
    reportStatus_of_radio b h.radio
  exact ⟨b', lines, hrun, ⟨hradio, hdialer ▸ h.dialer⟩, hreports, houtput, hfree⟩

theorem mute_of_reports {r : Radio} {lines : List Text} (h : Reports r lines) : ∀ t ∈ lines, Mute t := by
  rw [Reports] at h
  cases hn : r.network? with
  | none =>
    rw [hn] at h
    obtain rfl := h
    decide
  | some n =>
    rw [hn] at h
    obtain ⟨signal, _, rfl⟩ := h
    intro t ht
    simp only [reportOf, List.mem_cons, List.not_mem_nil, or_false] at ht
    rcases ht with rfl | rfl | rfl | rfl
    · decide
    · exact mute_of_head 'S' _ (by decide) (by decide)
    · exact mute_of_head 'I' _ (by decide) (by decide)
    · exact mute_of_head 'R' _ (by decide) (by decide)

/-! ## The status that is read from it -/

/-- The status of the station as its radio has it. -/
def Radio.status (r : Radio) : Status :=
  match r.network? with
  | none => {}
  | some n => { connected := true, ssid := trimEnd n.ssid, ip := trimEnd n.ip, rssi := n.rssi }

theorem said_eq_of_reports (r : Radio) (lines : List Text) (h : Reports r lines) :
    said lines =
      match r.network? with
      | none => [.link false]
      | some n => [.link true, .ssid (trimEnd n.ssid), .ip (trimEnd n.ip), .rssi n.rssi] := by
  rw [Reports] at h
  cases hn : r.network? with
  | none =>
    rw [hn] at h
    obtain rfl := h
    decide
  | some n =>
    rw [hn] at h
    obtain ⟨signal, hsignal, rfl⟩ := h
    have hlink : StatusLine.ofText (trim (Mark.status ++ Mark.connected)) = .link true := by decide
    have hssid : StatusLine.ofText (trim (Mark.ssid ++ n.ssid)) = .ssid (trimEnd n.ssid) := by
      rw [trim_append_of_not_blank _ _ (by decide) (by decide), ofText_ssid]
    have hip : StatusLine.ofText (trim (Mark.ip ++ n.ip)) = .ip (trimEnd n.ip) := by
      rw [trim_append_of_not_blank _ _ (by decide) (by decide), ofText_ip]
    have hrssi := ofText_signal n.rssi signal hsignal
    simp only [said, reportOf, List.map_cons, List.map_nil, hlink, hssid, hip, hrssi]
    rfl

theorem said_of_reports (r : Radio) (lines : List Text) (h : Reports r lines) :
    (said lines).contains .overlong = false ∧ (said lines).foldl Status.set {} = r.status := by
  rw [said_eq_of_reports r lines h, Radio.status]
  cases r.network? with
  | none => decide
  | some n => exact ⟨rfl, rfl⟩

theorem ofLines?_of_reports (r : Radio) (before lines after : List Text) (h : Reports r lines)
    (hbefore : ∀ t ∈ before, Silent t) (hafter : ∀ t ∈ after, Silent t) :
    Status.ofLines? (shown (before ++ lines ++ after)) = some r.status := by
  obtain ⟨hshort, hstatus⟩ := said_of_reports r lines h
  have hsaid : said (before ++ lines ++ after) = said lines := by
    rw [said_append, said_append, said_of_silent before hbefore, said_of_silent after hafter,
      List.nil_append, List.append_nil]
  rw [ofLines?_shown, hsaid, hshort, hstatus]
  rfl

/-- Whatever was said before it, after a report the status is up if and only if the radio is. -/
theorem exists_status_of_reports (r : Radio) (before lines : List Text) (h : Reports r lines)
    (hbefore : ∀ t ∈ before, StatusLine.ofText (trim t) ≠ .overlong) :
    ∃ s, Status.ofLines? (shown (before ++ lines)) = some s ∧ s.connected = r.network?.isSome := by
  have hsaid := said_eq_of_reports r lines h
  have hshort : (said (before ++ lines)).contains .overlong = false := by
    have hmem : StatusLine.overlong ∉ said before := by
      intro hmem
      obtain ⟨t, ht, hoverlong⟩ := List.mem_map.mp (List.mem_filter.mp hmem).1
      exact hbefore t ht hoverlong
    simpa [said_append, hmem] using (said_of_reports r lines h).1
  refine ⟨_, by rw [ofLines?_shown, hshort]; rfl, ?_⟩
  rw [said_append, List.foldl_append, hsaid]
  cases r.network? with
  | none => rfl
  | some n => rfl

end StationLink.Board
