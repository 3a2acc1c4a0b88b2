import StationLink.Proofs.Text.Lines
import StationLink.Proofs.Text.Numbers
import StationLink.Protocol.Status

/-!
# Lines that say nothing of the status

Most lines are silent: they say nothing of the status, wherever they stand in a window. What a window
amounts to is decided by its other lines alone.
-/

namespace StationLink.Protocol

open Text

/-- A line that says nothing of the status, whatever blanks are around it. -/
def Silent (line : Text) : Prop :=
  StatusLine.ofText (trim line) = .other

instance (line : Text) : Decidable (Silent line) :=
  inferInstanceAs (Decidable (StatusLine.ofText (trim line) = .other))

theorem after?_of_head (start t : Text) (hne : start ≠ []) (h : start.head? ≠ t.head?) :
    after? start t = none := by
  cases start with
  | nil => exact absurd rfl hne
  | cons a start =>
    cases t with
    | nil => rfl
    | cons b t =>
      have hab : a ≠ b := fun he => h (congrArg some he)
      rw [after?, if_neg hab]

theorem silent_of_head (c : Char) (t : Text) (hblank : isBlank c = false) (hS : 'S' ≠ c)
    (hI : 'I' ≠ c) (hR : 'R' ≠ c) : Silent (c :: t) := by
  rw [Silent, trim_cons_of_not_blank c t hblank]
  have hstatus : after? Mark.status (c :: trimEnd t) = none :=
    after?_of_head _ _ (by decide) fun h => hS (Option.some.inj h)
  have hssid : after? Mark.ssid (c :: trimEnd t) = none :=
    after?_of_head _ _ (by decide) fun h => hS (Option.some.inj h)
  have hip : after? Mark.ip (c :: trimEnd t) = none :=
    after?_of_head _ _ (by decide) fun h => hI (Option.some.inj h)
  have hrssi : after? Mark.rssi (c :: trimEnd t) = none :=
    after?_of_head _ _ (by decide) fun h => hR (Option.some.inj h)
  simp only [StatusLine.ofText, hstatus, hssid, hip, hrssi]

theorem silent_tcpData (t : Text) : Silent (Mark.tcpData ++ t) :=
  silent_of_head 'T' _ (by decide) (by decide) (by decide) (by decide)

/-! ## What the lines of an answer say -/

theorem ofText_ssid (name : Text) : StatusLine.ofText (Mark.ssid ++ name) = .ssid name := by
  have hstatus : after? Mark.status (Mark.ssid ++ name) = none := rfl
  have hssid : after? Mark.ssid (Mark.ssid ++ name) = some name :=
    (after?_eq_some_iff _ _ _).mpr rfl
  simp only [StatusLine.ofText, hstatus, hssid]

theorem ofText_ip (address : Text) : StatusLine.ofText (Mark.ip ++ address) = .ip address := by
  have hstatus : after? Mark.status (Mark.ip ++ address) = none := rfl
  have hssid : after? Mark.ssid (Mark.ip ++ address) = none := rfl
  have hip : after? Mark.ip (Mark.ip ++ address) = some address :=
    (after?_eq_some_iff _ _ _).mpr rfl
  simp only [StatusLine.ofText, hstatus, hssid, hip]

theorem ofText_rssi (signal : Text) :
    StatusLine.ofText (Mark.rssi ++ signal) = StatusLine.ofSignal signal := by
  have hstatus : after? Mark.status (Mark.rssi ++ signal) = none := rfl
  have hssid : after? Mark.ssid (Mark.rssi ++ signal) = none := rfl
  have hip : after? Mark.ip (Mark.rssi ++ signal) = none := rfl
  have hrssi : after? Mark.rssi (Mark.rssi ++ signal) = some signal :=
    (after?_eq_some_iff _ _ _).mpr rfl
  simp only [StatusLine.ofText, hstatus, hssid, hip, hrssi]

theorem ofText_signal (n : Int) (signal : Text) (h : Numeral.write? n = some signal) :
    StatusLine.ofText (trim (Mark.rssi ++ signal ++ " dBm".toList)) = .rssi n := by
  have hend : trimEnd (signal ++ " dBm".toList) = signal ++ " dBm".toList := by
    have hsplit : signal ++ " dBm".toList = (signal ++ " dB".toList) ++ ['m'] := by simp
    rw [hsplit]
    exact trimEnd_append_of_not_blank _ 'm' (by decide)
  rw [List.append_assoc, trim_append_of_not_blank Mark.rssi _ (by decide) (by decide), hend, ofText_rssi,
    StatusLine.ofSignal, Numeral.leading_of_write? n signal _ h (by decide)]

/-! ## Windows -/

/-- What is said by the lines that are not silent. -/
def said (lines : List Text) : List StatusLine :=
  (lines.map fun line => StatusLine.ofText (trim line)).filter (· ≠ .other)

theorem said_append (lines more : List Text) : said (lines ++ more) = said lines ++ said more := by
  simp [said]

theorem said_of_silent (lines : List Text) (h : ∀ line ∈ lines, Silent line) : said lines = [] := by
  have hall : ∀ line ∈ lines, StatusLine.ofText (trim line) = .other := h
  simpa [said] using hall

/-- Lines of blanks are silent too, so that it does not matter that they are dropped. -/
theorem said_shown (lines : List Text) :
    ((shown lines).map StatusLine.ofText).filter (· ≠ .other) = said lines := by
  induction lines with
  | nil => rfl
  | cons line lines ih =>
    have hcons : said (line :: lines) = said [line] ++ said lines := said_append [line] lines
    rw [hcons, ← ih]
    by_cases hline : trim line = []
    · have hnone : said [line] = [] := by
        rw [said, List.map_singleton, hline]
        decide
      rw [hnone, shown, List.map_cons, hline]
      rfl
    · have hone : shown (line :: lines) = trim line :: shown lines := by simp [shown, hline]
      rw [hone, List.map_cons, List.filter_cons]
      by_cases hsilent : StatusLine.ofText (trim line) = .other
      · simp [said, hsilent]
      · simp [said, hsilent]

theorem foldl_set_filter (lines : List StatusLine) (s : Status) :
    (lines.filter (· ≠ .other)).foldl Status.set s = lines.foldl Status.set s := by
  induction lines generalizing s with
  | nil => rfl
  | cons line lines ih =>
    by_cases hother : line = .other
    · subst hother
      exact ih s
    · simpa [hother] using ih (s.set line)

theorem ofLines?_filter (lines : List Text) :
    Status.ofLines? lines =
      if ((lines.map StatusLine.ofText).filter (· ≠ .other)).contains .overlong then none
      else some (((lines.map StatusLine.ofText).filter (· ≠ .other)).foldl Status.set {}) := by
  have hcontains : (lines.map StatusLine.ofText).contains .overlong =
      ((lines.map StatusLine.ofText).filter (· ≠ .other)).contains .overlong := by
    rw [Bool.eq_iff_iff]
    simp
  rw [Status.ofLines?, hcontains, foldl_set_filter]

theorem ofLines?_shown (lines : List Text) :
    Status.ofLines? (shown lines) =
      if (said lines).contains .overlong then none else some ((said lines).foldl Status.set {}) := by
  rw [ofLines?_filter, said_shown]

end StationLink.Protocol
