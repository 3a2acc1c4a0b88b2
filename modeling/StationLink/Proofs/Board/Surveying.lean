import StationLink.Proofs.Board.Carrying
import StationLink.Proofs.Board.Rebooting
import StationLink.Proofs.Protocol.Malformed

/-!
# The lines of a survey, written and read

The fields of a survey line are joined by colons and parted at every colon. A name without a colon is read
back with the rest of its record; a name with one is cut at it, so that another record is read, or none.
-/

namespace StationLink.Board

open Text Protocol

/-! ## Parting at colons -/

theorem splitOn_of_not_mem {mark : Char} {t : Text} (h : mark ∉ t) : t.splitOn mark = [t] := by
  apply List.splitOnP_eq_singleton
  intro c hc
  exact beq_eq_false_iff_ne.mpr fun heq => h (heq ▸ hc)

theorem splitOn_append_cons {mark : Char} {t : Text} (h : mark ∉ t) (rest : Text) :
    (t ++ mark :: rest).splitOn mark = t :: rest.splitOn mark := by
  apply List.splitOnP_append_cons_of_forall_mem
  · intro c hc
    exact beq_eq_false_iff_ne.mpr fun heq => h (heq ▸ hc)
  · exact beq_self_eq_true mark

/-- What stands before the first mark. -/
theorem exists_cut {mark : Char} {t : Text} (h : mark ∈ t) :
    ∃ field rest, t = field ++ mark :: rest ∧ mark ∉ field := by
  obtain ⟨pieces, tail, hparted⟩ := exists_parted (· == mark) t
  cases hparted with
  | tail ht => exact absurd (ht mark h) (by simp)
  | @piece field rest e _ _ hfield he _ =>
    obtain rfl : e = mark := beq_iff_eq.mp he
    exact ⟨field, rest, rfl, fun hmem => by simpa using hfield e hmem⟩

/-! ## The line of a network -/

/-- What a survey should say of a network. -/
def Network.record (n : Network) : Sighting where
  ssid := n.ssid
  rssi := n.rssi
  secured := n.password.isSome

/-- What is read from the survey line of a network. -/
def Network.sighting? (n : Network) : Option Sighting :=
  (surveyLine? n).bind fun line => (SightingLine.ofText line).sighting?

/-- A network whose survey line is one line, with no field that is too long to be read as a number. -/
structure Network.Listable (n : Network) : Prop where
  free : '\n' ∉ n.ssid
  short : n.ssid.length < Numeral.limit
  signal : (Nat.toDigits 10 n.rssi.natAbs).length < Numeral.limit

instance : DecidablePred Network.Listable := fun n =>
  decidable_of_iff ('\n' ∉ n.ssid ∧ n.ssid.length < Numeral.limit ∧
      (Nat.toDigits 10 n.rssi.natAbs).length < Numeral.limit)
    ⟨fun ⟨hfree, hshort, hsignal⟩ => ⟨hfree, hshort, hsignal⟩, fun h => ⟨h.free, h.short, h.signal⟩⟩

def Network.security (n : Network) : Text :=
  if n.password.isNone then Mark.unsecured else Mark.secured

theorem surveyLine?_eq {n : Network} {signal : Text} (hsignal : Numeral.write? n.rssi = some signal) :
    surveyLine? n = some (Mark.network ++ (n.ssid ++ ':' :: (signal ++ ':' :: n.security))) := by
  rw [surveyLine?, hsignal, Option.map_some]
  simp [Network.security]

theorem security_cases (n : Network) :
    n.security = Mark.unsecured ∧ n.password.isSome = false ∨
      n.security = Mark.secured ∧ n.password.isSome = true := by
  rw [Network.security]
  cases n.password with
  | none => exact .inl ⟨rfl, rfl⟩
  | some password => exact .inr ⟨rfl, rfl⟩

section

variable {n : Network} {signal : Text}

theorem fields_of_signal (hsignal : Numeral.write? n.rssi = some signal) :
    (signal ++ ':' :: n.security).splitOn ':' = [signal, n.security] := by
  have hcolon : ':' ∉ signal := Numeral.not_mem_write? n.rssi signal ':' hsignal (by decide) (by decide)
  have hsecurity : ':' ∉ n.security := by
    rcases security_cases n with ⟨h, _⟩ | ⟨h, _⟩ <;> rw [h] <;> decide
  rw [splitOn_append_cons hcolon, splitOn_of_not_mem hsecurity]

/-- A name without a colon leaves the fields where they belong. -/
theorem ofText_surveyLine_of_plain (hsignal : Numeral.write? n.rssi = some signal) (hname : ':' ∉ n.ssid) :
    SightingLine.ofText (Mark.network ++ (n.ssid ++ ':' :: (signal ++ ':' :: n.security))) =
      .sighting n.record := by
  have hread : Numeral.leading signal = .value n.rssi := by
    have h := Numeral.leading_of_write? n.rssi signal [] hsignal rfl
    rwa [List.append_nil] at h
  have hsecured : decide (n.security = Mark.secured) = n.password.isSome := by
    rcases security_cases n with ⟨h, hopen⟩ | ⟨h, hopen⟩ <;> rw [h, hopen] <;> decide
  rw [ofText_network, splitOn_append_cons hname, fields_of_signal hsignal]
  simp only [SightingLine.ofFields, hread, hsecured, Network.record]

/-- A name with a colon ends at it, and its next part is read for the signal. -/
theorem ofText_surveyLine_of_colon (signal : Text) (hname : ':' ∈ n.ssid)
    (hshort : n.ssid.length < Numeral.limit) :
    SightingLine.ofText (Mark.network ++ (n.ssid ++ ':' :: (signal ++ ':' :: n.security))) ≠ .overlong ∧
    (SightingLine.ofText
      (Mark.network ++ (n.ssid ++ ':' :: (signal ++ ':' :: n.security)))).sighting? ≠ some n.record := by
  obtain ⟨field, rest, hssid, hfield⟩ := exists_cut hname
  obtain ⟨next, more, hnext, hlength⟩ : ∃ next more,
      (rest ++ ':' :: (signal ++ ':' :: n.security)).splitOn ':' = next :: more ∧
        next.length ≤ rest.length := by
    by_cases hrest : ':' ∈ rest
    · obtain ⟨next, after, rfl, hnext⟩ := exists_cut hrest
      refine ⟨next, (after ++ ':' :: (signal ++ ':' :: n.security)).splitOn ':', ?_, by simp⟩
      rw [List.append_assoc, List.cons_append, splitOn_append_cons hnext]
    · exact ⟨rest, _, splitOn_append_cons hrest _, Nat.le_refl _⟩
  have hfields : (n.ssid ++ ':' :: (signal ++ ':' :: n.security)).splitOn ':' = field :: next :: more := by
    rw [hssid, List.append_assoc, List.cons_append, splitOn_append_cons hfield, hnext]
  have hlt : field.length + next.length < n.ssid.length := by
    have hlen : n.ssid.length = field.length + (rest.length + 1) := by rw [hssid]; simp
    omega
  have hreadable : Numeral.leading next ≠ .overlong := by
    rw [Ne, Numeral.leading_eq_overlong_iff, Nat.not_lt]
    have hdigits := Numeral.length_leadingDigits_le next
    omega
  have hother : field ≠ n.ssid := by
    intro h
    rw [h] at hlt
    omega
  rw [ofText_network, hfields]
  cases more with
  | nil => exact ⟨SightingLine.noConfusion, by simp [SightingLine.ofFields, SightingLine.sighting?]⟩
  | cons security more =>
    simp only [SightingLine.ofFields]
    cases hread : Numeral.leading next with
    | absent => exact ⟨SightingLine.noConfusion, by simp [SightingLine.sighting?]⟩
    | overlong => exact absurd hread hreadable
    | value strength =>
      refine ⟨SightingLine.noConfusion, ?_⟩
      simp only [SightingLine.sighting?]
      intro h
      exact hother (congrArg Sighting.ssid (Option.some.inj h))

end

namespace Network.Listable

variable {n : Network} (h : n.Listable)

include h

theorem exists_signal : ∃ signal, Numeral.write? n.rssi = some signal :=
  Option.isSome_iff_exists.mp ((Numeral.write?_isSome_iff n.rssi).mpr (Nat.le_of_lt h.signal))

/-- The line of the network is printed as one line, nothing is trimmed off it, and it is read back to the
record of the network if and only if the name has no colon. -/
theorem exists_line : ∃ line, surveyLine? n = some line ∧ '\n' ∉ line ∧ trim line = line ∧ line ≠ [] ∧
    SightingLine.ofText line ≠ .overlong ∧
    ((SightingLine.ofText line).sighting? = some n.record ↔ ':' ∉ n.ssid) := by
  obtain ⟨signal, hsignal⟩ := h.exists_signal
  have hsecurity : ∃ word last, n.security = word ++ [last] ∧ isBlank last = false ∧ '\n' ∉ n.security := by
    rcases security_cases n with ⟨hword, _⟩ | ⟨hword, _⟩ <;> rw [hword]
    · exact ⟨"OPE".toList, 'N', rfl, by decide, by decide⟩
    · exact ⟨"SECURE".toList, 'D', rfl, by decide, by decide⟩
  obtain ⟨word, last, hword, hlast, hfree⟩ := hsecurity
  have hsplit : n.ssid ++ ':' :: (signal ++ ':' :: n.security) =
      (n.ssid ++ ':' :: (signal ++ ':' :: word)) ++ [last] := by
    simp [hword]
  refine ⟨_, surveyLine?_eq hsignal, ?_, ?_, ?_, ?_⟩
  · have hmark : '\n' ∉ Mark.network := by decide
    have hnumber : '\n' ∉ signal := not_mem_signal hsignal
    simp [hmark, h.free, hnumber, hfree]
  · rw [trim_append_of_not_blank Mark.network _ (by decide) (by decide), hsplit,
      trimEnd_append_of_not_blank _ last hlast]
  · exact List.append_ne_nil_of_left_ne_nil (by decide) _
  · by_cases hname : ':' ∈ n.ssid
    · obtain ⟨hread, hother⟩ := ofText_surveyLine_of_colon signal hname h.short
      exact ⟨hread, fun h => absurd h hother, fun hfree => absurd hname hfree⟩
    · rw [ofText_surveyLine_of_plain hsignal hname]
      exact ⟨SightingLine.noConfusion, fun _ => hname, fun _ => rfl⟩

end Network.Listable

theorem sighting?_eq_record_iff {n : Network} (h : n.Listable) :
    n.sighting? = some n.record ↔ ':' ∉ n.ssid := by
  obtain ⟨line, hline, _, _, _, _, hread⟩ := h.exists_line
  rw [Network.sighting?, hline]
  exact hread

/-! ## The lines of a survey -/

/-- No line of a survey, whatever blanks are around it. -/
def Unlisted (line : Text) : Prop :=
  SightingLine.ofText (trim line) = .other

instance : DecidablePred Unlisted := fun line =>
  inferInstanceAs (Decidable (SightingLine.ofText (trim line) = .other))

theorem survey?_of_unlisted (lines : List Text) (h : ∀ t ∈ lines, Unlisted t) :
    survey? (shown lines) = some [] := by
  induction lines with
  | nil => rfl
  | cons line lines ih =>
    obtain ⟨hline, hlines⟩ := List.forall_mem_cons.mp h
    have hcons : shown (line :: lines) = shown [line] ++ shown lines := shown_append [line] lines
    have hone : survey? (shown [line]) = some [] := by
      by_cases hblank : trim line = []
      · simp [shown, hblank, survey?]
      · have hother : SightingLine.ofText (trim line) = .other := hline
        simp [shown, hblank, survey?, hother, SightingLine.sighting?]
    rw [hcons, survey?_append, hone, ih hlines]
    rfl

/-- A survey is read network by network. -/
theorem survey?_of_listed (networks : List Network) (lines : List Text)
    (hlist : ∀ n ∈ networks, n.Listable) (hlines : networks.map surveyLine? = lines.map some) :
    survey? (shown lines) = some (networks.filterMap Network.sighting?) := by
  induction networks generalizing lines with
  | nil =>
    obtain rfl : lines = [] := by simpa using hlines.symm
    rfl
  | cons n networks ih =>
    obtain ⟨hn, hnetworks⟩ := List.forall_mem_cons.mp hlist
    obtain ⟨line, hline, _, htrim, hne, hshort, _⟩ := hn.exists_line
    cases lines with
    | nil => simp at hlines
    | cons first lines =>
      obtain ⟨hfirst, hrest⟩ := List.cons.inj hlines
      obtain rfl := Option.some.inj (hline.symm.trans hfirst)
      have hcons : shown (line :: lines) = shown [line] ++ shown lines := shown_append [line] lines
      have hone : survey? (shown [line]) = some n.sighting?.toList := by
        have hread : n.sighting? = (SightingLine.ofText line).sighting? := by
          rw [Network.sighting?, hline]
          rfl
        rw [hread]
        simp only [shown, List.map_cons, List.map_nil, htrim, List.filter_cons, hne, ne_eq,
          not_false_eq_true, decide_true, if_true, List.filter_nil, survey?, List.contains_cons,
          List.contains_nil, Bool.or_false, List.filterMap_cons, List.filterMap_nil]
        rw [if_neg (by simpa using hshort.symm)]
        cases (SightingLine.ofText line).sighting? <;> rfl
      rw [hcons, survey?_append, hone, ih lines hnetworks hrest]
      cases hsighting : n.sighting? <;> simp [hsighting]

theorem exists_surveyLines (networks : List Network) (hlist : ∀ n ∈ networks, n.Listable) :
    ∃ lines : List Text, networks.map surveyLine? = lines.map some ∧ ∀ t ∈ lines, '\n' ∉ t := by
  induction networks with
  | nil => exact ⟨[], rfl, by simp⟩
  | cons n networks ih =>
    obtain ⟨hn, hnetworks⟩ := List.forall_mem_cons.mp hlist
    obtain ⟨line, hline, hfree, _⟩ := hn.exists_line
    obtain ⟨lines, hlines, hfrees⟩ := ih hnetworks
    refine ⟨line :: lines, ?_, List.forall_mem_cons.mpr ⟨hfree, hfrees⟩⟩
    rw [List.map_cons, List.map_cons, hline, hlines]

theorem printSurvey_eq (networks : List Network) (lines : List Text)
    (hlines : networks.map surveyLine? = lines.map some) (b : Board) :
    printSurvey networks b = ({ b with output := b.output ++ Utf8.encodeLines lines }, none) := by
  induction networks generalizing lines b with
  | nil =>
    obtain rfl : lines = [] := by simpa using hlines.symm
    rw [printSurvey, Utf8.encodeLines, List.flatMap_nil, List.append_nil]
  | cons n networks ih =>
    cases lines with
    | nil => simp at hlines
    | cons line lines =>
      obtain ⟨hline, hrest⟩ := List.cons.inj hlines
      simp only [printSurvey, hline]
      rw [ih lines hrest, printLine_eq, Utf8.encodeLines_cons, List.append_assoc]

theorem unlisted_of_head (c : Char) (t : Text) (hblank : isBlank c = false) (hN : 'N' ≠ c) :
    Unlisted (c :: t) := by
  have hnetwork : after? Mark.network (c :: trimEnd t) = none :=
    after?_of_head _ _ (by decide) fun h => hN (Option.some.inj h)
  rw [Unlisted, trim_cons_of_not_blank c t hblank, SightingLine.ofText, hnetwork]

/-- A survey prints its head and then the line of each network. -/
theorem reportSurvey_eq (b : Board) (lines : List Text)
    (hlines : b.radio.networks.map surveyLine? = lines.map some) :
    ∃ head, b.reportSurvey = ({ b with output := b.output ++ Utf8.encodeLines (head ++ lines) }, none) ∧
      ∀ t ∈ head, '\n' ∉ t ∧ Unlisted t := by
  have hscanning : '\n' ∉ "SCANNING...".toList ∧ Unlisted "SCANNING...".toList :=
    ⟨by decide, unlisted_of_head 'S' _ (by decide) (by decide)⟩
  cases hnetworks : b.radio.networks with
  | nil =>
    obtain rfl : lines = [] := by simpa [hnetworks] using hlines.symm
    refine ⟨["SCANNING...".toList, "SCAN:No networks found".toList], ?_, List.forall_mem_cons.mpr
      ⟨hscanning, List.forall_mem_singleton.mpr ⟨by decide, unlisted_of_head 'S' _ (by decide) (by decide)⟩⟩⟩
    simp [reportSurvey, hnetworks, printLine_eq, Utf8.encodeLines]
  | cons n networks =>
    have hne : b.radio.networks ≠ [] := by simp [hnetworks]
    have hrun : b.reportSurvey = printSurvey b.radio.networks
        ((b.printLine "SCANNING...".toList).printLine ("SCAN:Found ".toList ++
          Nat.toDigits 10 b.radio.networks.length ++ " networks".toList)) :=
      if_neg hne
    refine ⟨["SCANNING...".toList, "SCAN:Found ".toList ++ Nat.toDigits 10 b.radio.networks.length ++
      " networks".toList], ?_, List.forall_mem_cons.mpr ⟨hscanning, List.forall_mem_singleton.mpr ⟨?_, ?_⟩⟩⟩
    · rw [hrun, printSurvey_eq _ lines hlines, printLine_eq, printLine_eq]
      simp [Utf8.encodeLines]
    · have hcount : '\n' ∉ Nat.toDigits 10 b.radio.networks.length := by
        intro hmem
        have hdigit := Numeral.isDigit_of_mem_toDigits hmem
        cases hdigit
      exact not_mem_append (not_mem_append (by decide) hcount) (by decide)
    · exact unlisted_of_head 'S' _ (by decide) (by decide)

end StationLink.Board
