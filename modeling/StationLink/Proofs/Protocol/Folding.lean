import StationLink.Proofs.Protocol.Malformed

/-!
# The status, field by field

Each field of a status is said by lines with a mark of their own, and the last of these counts. So the lines of
different fields may be mixed in any way, with any other lines among them.
-/

namespace StationLink.Protocol

open Text

/-- The last that is said by any of the lines, for one way of reading them. -/
def lastSaid? {α : Type} (read : Text → Option α) (lines : List Text) : Option α :=
  (lines.filterMap read).getLast?

def linkOf? (line : Text) : Option Bool :=
  (after? Mark.status line).map fun state => contains Mark.connected state && !contains Mark.disconnected state

def signalOf? (line : Text) : Option Int :=
  (after? Mark.rssi line).bind fun signal =>
    match Numeral.leading signal with
    | .value n => some n
    | .absent | .overlong => none

/-! ## One line -/

theorem ofText_status (state : Text) :
    StatusLine.ofText (Mark.status ++ state) = StatusLine.ofLink state := by
  have hstatus : after? Mark.status (Mark.status ++ state) = some state := (after?_eq_some_iff _ _ _).mpr rfl
  rw [StatusLine.ofText, hstatus]

/-- A line sets the field of its mark, and no other. -/
theorem Status.set_ofText (s : Status) (line : Text) :
    s.set (StatusLine.ofText line) =
      { connected := (linkOf? line).getD s.connected
        ssid := (after? Mark.ssid line).getD s.ssid
        ip := (after? Mark.ip line).getD s.ip
        rssi := (signalOf? line).getD s.rssi } := by
  cases hstatus : after? Mark.status line with
  | some state =>
    obtain rfl := (after?_eq_some_iff _ _ _).mp hstatus
    rw [ofText_status, linkOf?, hstatus]
    rfl
  | none =>
    cases hssid : after? Mark.ssid line with
    | some name =>
      obtain rfl := (after?_eq_some_iff _ _ _).mp hssid
      rw [ofText_ssid]
      rfl
    | none =>
      cases hip : after? Mark.ip line with
      | some address =>
        obtain rfl := (after?_eq_some_iff _ _ _).mp hip
        rw [ofText_ip]
        rfl
      | none =>
        rw [linkOf?, signalOf?, hstatus, StatusLine.ofText]
        simp only [hstatus, hssid, hip]
        cases hrssi : after? Mark.rssi line with
        | none => rfl
        | some signal =>
          simp only [StatusLine.ofSignal, Option.bind_some]
          cases Numeral.leading signal with
          | absent => rfl
          | overlong => rfl
          | value n => rfl

/-! ## All lines -/

theorem foldl_set_field {α : Type} (field : Status → α) (read : Text → Option α)
    (hset : ∀ s line, field (s.set (StatusLine.ofText line)) = (read line).getD (field s))
    (lines : List Text) (s : Status) :
    field ((lines.map StatusLine.ofText).foldl Status.set s) = (lastSaid? read lines).getD (field s) := by
  induction lines generalizing s with
  | nil => rfl
  | cons line lines ih =>
    rw [List.map_cons, List.foldl_cons, ih, hset, lastSaid?, lastSaid?, List.filterMap_cons]
    cases read line with
    | none => rfl
    | some a => rw [List.getLast?_cons, Option.getD_some, Option.getD_some]

/-- The status of which each field is the last that is said of it. -/
def lastStatus (lines : List Text) : Status where
  connected := (lastSaid? linkOf? lines).getD false
  ssid := (lastSaid? (after? Mark.ssid) lines).getD []
  ip := (lastSaid? (after? Mark.ip) lines).getD []
  rssi := (lastSaid? signalOf? lines).getD 0

theorem foldl_set_eq (lines : List Text) :
    (lines.map StatusLine.ofText).foldl Status.set {} = lastStatus lines := by
  have hconnected : _ = (lastStatus lines).connected :=
    foldl_set_field Status.connected linkOf? (fun s line => by rw [s.set_ofText]) lines {}
  have hssid : _ = (lastStatus lines).ssid :=
    foldl_set_field Status.ssid (after? Mark.ssid) (fun s line => by rw [s.set_ofText]) lines {}
  have hip : _ = (lastStatus lines).ip :=
    foldl_set_field Status.ip (after? Mark.ip) (fun s line => by rw [s.set_ofText]) lines {}
  have hrssi : _ = (lastStatus lines).rssi :=
    foldl_set_field Status.rssi signalOf? (fun s line => by rw [s.set_ofText]) lines {}
  calc
    _ = { connected := _, ssid := _, ip := _, rssi := _ } := rfl
    _ = lastStatus lines := by rw [hconnected, hssid, hip, hrssi]

theorem ofLines?_eq_lastStatus (lines : List Text) (hshort : ∀ line ∈ lines, ¬ OverlongSignal line) :
    Status.ofLines? lines = some (lastStatus lines) := by
  have hnone : ¬ ((lines.map StatusLine.ofText).contains .overlong = true) := by
    simp only [List.contains_eq_mem, List.mem_map, decide_eq_true_eq, not_exists, not_and]
    exact fun line hline hover => hshort line hline ((overlongSignal_iff line).mpr hover)
  simp only [Status.ofLines?, hnone, foldl_set_eq]
  rfl

/-! ## Lines in other places -/

/-- The beginnings of the lines that say something of the status. -/
def Mark.ofStatus : List Text :=
  [Mark.status, Mark.ssid, Mark.ip, Mark.rssi]

def Marked (line : Text) : Prop :=
  ∃ mark ∈ Mark.ofStatus, mark <+: line

instance (line : Text) : Decidable (Marked line) :=
  inferInstanceAs (Decidable (∃ mark ∈ Mark.ofStatus, mark <+: line))

theorem lastSaid?_filter {α : Type} {read : Text → Option α} {mark : Text}
    (hread : ∀ line, after? mark line = none → read line = none) (lines : List Text) :
    lastSaid? read (lines.filter (mark <+: ·)) = lastSaid? read lines := by
  rw [lastSaid?, List.filterMap_filter, lastSaid?]
  congr 2
  funext line
  split
  · rfl
  · rename_i hmark
    refine (hread line ?_).symm
    cases hafter : after? mark line with
    | none => rfl
    | some rest =>
      obtain rfl := (after?_eq_some_iff _ _ _).mp hafter
      simp at hmark

theorem lastStatus_of_filter {lines more : List Text}
    (hsame : ∀ mark ∈ Mark.ofStatus, more.filter (mark <+: ·) = lines.filter (mark <+: ·)) :
    lastStatus more = lastStatus lines := by
  have hfield {α : Type} (read : Text → Option α) (mark : Text) (hmark : mark ∈ Mark.ofStatus)
      (hread : ∀ line, after? mark line = none → read line = none) : lastSaid? read more = lastSaid? read lines := by
    rw [← lastSaid?_filter hread, hsame mark hmark, lastSaid?_filter hread]
  have hlink := hfield linkOf? Mark.status (by decide) fun line h => by rw [linkOf?, h]; rfl
  have hssid := hfield (after? Mark.ssid) Mark.ssid (by decide) fun _ h => h
  have hip := hfield (after? Mark.ip) Mark.ip (by decide) fun _ h => h
  have hsignal := hfield signalOf? Mark.rssi (by decide) fun line h => by rw [signalOf?, h]; rfl
  rw [lastStatus, hlink, hssid, hip, hsignal]
  rfl

theorem short_of_filter {lines more : List Text}
    (hsame : more.filter (Mark.rssi <+: ·) = lines.filter (Mark.rssi <+: ·))
    (hshort : ∀ line ∈ lines, ¬ OverlongSignal line) : ∀ line ∈ more, ¬ OverlongSignal line := by
  rintro line hline ⟨signal, rfl, hlong⟩
  have hmem : Mark.rssi ++ signal ∈ more.filter (Mark.rssi <+: ·) :=
    List.mem_filter.mpr ⟨hline, decide_eq_true (List.prefix_append _ _)⟩
  rw [hsame] at hmem
  exact hshort _ (List.mem_filter.mp hmem).1 ⟨signal, rfl, hlong⟩

theorem filter_of_marked {lines more : List Text} (hsame : more.filter (Marked ·) = lines.filter (Marked ·)) :
    ∀ mark ∈ Mark.ofStatus, more.filter (mark <+: ·) = lines.filter (mark <+: ·) := by
  intro mark hmark
  have hfilter (ls : List Text) : (ls.filter (Marked ·)).filter (mark <+: ·) = ls.filter (mark <+: ·) := by
    rw [List.filter_filter]
    congr 1
    funext line
    by_cases hline : mark <+: line
    · have hmarked : Marked line := ⟨mark, hmark, hline⟩
      simp [hline, hmarked]
    · simp [hline]
  rw [← hfilter more, hsame, hfilter lines]

/-- Every field is what the last line of its mark says, where a signal line without a number says nothing. So lines
without a mark make no difference wherever they stand, and neither does the order in which the lines of different
marks follow each other. -/
theorem last_line_of_each_field_counts (lines : List Text) (hshort : ∀ line ∈ lines, ¬ OverlongSignal line) :
    Status.ofLines? lines = some (lastStatus lines) ∧
    (∀ more, more.filter (Marked ·) = lines.filter (Marked ·) → Status.ofLines? more = Status.ofLines? lines) ∧
    ∀ more, (∀ mark ∈ Mark.ofStatus, more.filter (mark <+: ·) = lines.filter (mark <+: ·)) →
      Status.ofLines? more = Status.ofLines? lines := by
  have hmixed (more : List Text)
      (hsame : ∀ mark ∈ Mark.ofStatus, more.filter (mark <+: ·) = lines.filter (mark <+: ·)) :
      Status.ofLines? more = Status.ofLines? lines := by
    have hshort' := short_of_filter (hsame Mark.rssi (by decide)) hshort
    rw [ofLines?_eq_lastStatus lines hshort, ofLines?_eq_lastStatus more hshort', lastStatus_of_filter hsame]
  exact ⟨ofLines?_eq_lastStatus lines hshort, fun more hsame => hmixed more (filter_of_marked hsame), hmixed⟩

/-- Two reports, the later of them with a signal that is no number. -/
def twoReports : List Text :=
  ["STATUS:DISCONNECTED".toList, "SSID:Old".toList, "RSSI:-70 dBm".toList, "STATUS:CONNECTED".toList,
    "SSID:Home".toList, "IP:10.0.0.7".toList, "RSSI:weak".toList]

theorem last_line_of_each_field_counts_in_twoReports :
    (∀ line ∈ twoReports, ¬ OverlongSignal line) ∧
    Status.ofLines? twoReports = some ⟨true, "Home".toList, "10.0.0.7".toList, -70⟩ ∧
    Status.ofLines? ("READY".toList :: twoReports ++ ["TCPDATA:SSID:x".toList]) = Status.ofLines? twoReports ∧
    Status.ofLines? ["RSSI:-70 dBm".toList, "IP:10.0.0.7".toList, "SSID:Old".toList, "SSID:Home".toList,
        "STATUS:DISCONNECTED".toList, "RSSI:weak".toList, "STATUS:CONNECTED".toList] =
      Status.ofLines? twoReports := by
  have hshort : ∀ line ∈ twoReports, ¬ OverlongSignal line := by
    simp only [overlongSignal_iff]
    decide
  obtain ⟨hlast, hunmarked, hmixed⟩ := last_line_of_each_field_counts twoReports hshort
  refine ⟨hshort, ?_, hunmarked _ (by decide), hmixed _ (by decide)⟩
  rw [hlast]
  decide

end StationLink.Protocol
