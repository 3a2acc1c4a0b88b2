import StationLink.Proofs.Protocol.Telling

/-!
# Malformed lines

A line that has the mark of an answer but is none is dropped: all answers come to the same with it as
without it. Only a number of too many digits is neither read nor dropped.
-/

namespace StationLink.Text.Numeral

/-- The digits that are read from the beginning of a text. -/
def leadingDigits (t : Text) : Text :=
  (takeSign (trimStart t)).2.takeWhile isDecimal

theorem leading_eq_overlong_iff (t : Text) : leading t = .overlong ↔ limit < (leadingDigits t).length := by
  simp only [leading, leadingDigits]
  split
  · rename_i hrun
    simp [hrun]
  · split
    · rename_i hshort
      simp [hshort]
    · rename_i hlong
      simpa using hlong

theorem length_leadingDigits_le (t : Text) : (leadingDigits t).length ≤ t.length := by
  have hsign (t : Text) : (takeSign t).2 <:+ t := by
    rw [takeSign.eq_def]
    split
    · exact List.suffix_cons _ _
    · exact List.suffix_cons _ _
    · exact List.suffix_refl _
  calc (leadingDigits t).length
    _ ≤ (takeSign (trimStart t)).2.length := (List.takeWhile_prefix _).length_le
    _ ≤ (trimStart t).length := (hsign _).length_le
    _ ≤ t.length := (List.dropWhile_suffix _).length_le

end StationLink.Text.Numeral

namespace StationLink.Protocol

open Text

/-! ## Signals -/

/-- Only what follows the mark of the signal is read for a number. -/
theorem StatusLine.ofText_eq_iff (line : Text) (said : StatusLine)
    (hsaid : said = .noNumber ∨ said = .overlong) :
    ofText line = said ↔ ∃ signal, line = Mark.rssi ++ signal ∧ ofSignal signal = said := by
  constructor
  · intro h
    simp only [ofText] at h
    split at h
    · rcases hsaid with rfl | rfl <;> cases h
    · split at h
      · rcases hsaid with rfl | rfl <;> cases h
      · split at h
        · rcases hsaid with rfl | rfl <;> cases h
        · split at h
          · rename_i signal hmark
            exact ⟨signal, (after?_eq_some_iff _ _ _).mp hmark, h⟩
          · rcases hsaid with rfl | rfl <;> cases h
  · rintro ⟨signal, rfl, h⟩
    exact (ofText_rssi signal).trans h

theorem StatusLine.ofSignal_eq_overlong_iff (signal : Text) :
    ofSignal signal = .overlong ↔ Numeral.limit < (Numeral.leadingDigits signal).length := by
  rw [← Numeral.leading_eq_overlong_iff, ofSignal]
  cases Numeral.leading signal <;> simp

/-- A line whose signal has too many digits. -/
def OverlongSignal (line : Text) : Prop :=
  ∃ signal, line = Mark.rssi ++ signal ∧ Numeral.limit < (Numeral.leadingDigits signal).length

theorem overlongSignal_iff (line : Text) : OverlongSignal line ↔ StatusLine.ofText line = .overlong := by
  rw [StatusLine.ofText_eq_iff line .overlong (.inr rfl), OverlongSignal]
  simp only [StatusLine.ofSignal_eq_overlong_iff]

/-! ## Networks -/

theorem ofText_network (record : Text) :
    SightingLine.ofText (Mark.network ++ record) = SightingLine.ofFields (record.splitOn ':') := by
  rw [SightingLine.ofText, (after?_eq_some_iff _ _ record).mpr rfl]

/-- A network line whose signal has too many digits. -/
def OverlongSighting (line : Text) : Prop :=
  ∃ record ssid signal security more, line = Mark.network ++ record ∧
    record.splitOn ':' = ssid :: signal :: security :: more ∧
    Numeral.limit < (Numeral.leadingDigits signal).length

theorem SightingLine.ofFields_eq_overlong_iff (fields : List Text) :
    ofFields fields = .overlong ↔ ∃ ssid signal security more,
      fields = ssid :: signal :: security :: more ∧
        Numeral.limit < (Numeral.leadingDigits signal).length := by
  constructor
  · intro h
    match fields, h with
    | ssid :: signal :: security :: more, h =>
      refine ⟨ssid, signal, security, more, rfl, (Numeral.leading_eq_overlong_iff signal).mp ?_⟩
      simp only [ofFields] at h
      split at h
      · cases h
      · cases h
      · assumption
  · rintro ⟨ssid, signal, security, more, rfl, hlong⟩
    simp only [ofFields, (Numeral.leading_eq_overlong_iff signal).mpr hlong]

theorem overlongSighting_iff (line : Text) :
    OverlongSighting line ↔ SightingLine.ofText line = .overlong := by
  constructor
  · rintro ⟨record, ssid, signal, security, more, rfl, hfields, hlong⟩
    rw [ofText_network]
    exact (SightingLine.ofFields_eq_overlong_iff _).mpr ⟨ssid, signal, security, more, hfields, hlong⟩
  · intro h
    cases hmark : after? Mark.network line with
    | none => simp [SightingLine.ofText, hmark] at h
    | some record =>
      rw [SightingLine.ofText, hmark] at h
      obtain ⟨ssid, signal, security, more, hfields, hlong⟩ :=
        (SightingLine.ofFields_eq_overlong_iff _).mp h
      exact ⟨record, ssid, signal, security, more, (after?_eq_some_iff _ _ _).mp hmark, hfields, hlong⟩

/-! ## What is dropped -/

/-- A signal without a number, or a network with too few fields or without a number for its signal. -/
def Malformed (line : Text) : Prop :=
  StatusLine.ofText line = .noNumber ∨ SightingLine.ofText line = .tooFewFields ∨
    SightingLine.ofText line = .noNumber

theorem Malformed.cases {line : Text} (h : Malformed line) :
    (∃ signal, line = Mark.rssi ++ signal ∧ StatusLine.ofSignal signal = .noNumber) ∨
    ∃ record, line = Mark.network ++ record ∧
      (SightingLine.ofFields (record.splitOn ':') = .tooFewFields ∨
        SightingLine.ofFields (record.splitOn ':') = .noNumber) := by
  rcases h with h | h
  · exact .inl ((StatusLine.ofText_eq_iff line .noNumber (.inl rfl)).mp h)
  · rw [SightingLine.ofText] at h
    cases hmark : after? Mark.network line with
    | none => simp [hmark] at h
    | some record =>
      rw [hmark] at h
      exact .inr ⟨record, (after?_eq_some_iff _ _ _).mp hmark, h⟩

theorem ofLines?_drop (before after : List Text) (line : Text)
    (hline : StatusLine.ofText line = .noNumber ∨ StatusLine.ofText line = .other) :
    Status.ofLines? (before ++ line :: after) = Status.ofLines? (before ++ after) := by
  have hset (s : Status) : s.set (StatusLine.ofText line) = s := by
    rcases hline with hline | hline <;> rw [hline] <;> rfl
  have hshort : StatusLine.ofText line ≠ .overlong := by
    rcases hline with hline | hline <;> rw [hline] <;> exact StatusLine.noConfusion
  simp only [Status.ofLines?, List.map_append, List.map_cons, List.contains_append, List.contains_cons,
    List.foldl_append, List.foldl_cons, hset]
  simp [Ne.symm hshort]

theorem survey?_drop (before after : List Text) (line : Text)
    (hnone : (SightingLine.ofText line).sighting? = none) (hshort : SightingLine.ofText line ≠ .overlong) :
    survey? (before ++ line :: after) = survey? (before ++ after) := by
  simp only [survey?, List.map_append, List.map_cons, List.contains_append, List.contains_cons,
    List.filterMap_append, List.filterMap_cons, hnone]
  simp [Ne.symm hshort]

/-- The lines before and after a malformed line come to what they come to without it. -/
theorem Malformed.dropped {line : Text} (h : Malformed line) (before after : List Text) :
    Status.ofLines? (before ++ line :: after) = Status.ofLines? (before ++ after) ∧
    survey? (before ++ line :: after) = survey? (before ++ after) ∧
    address? (before ++ line :: after) = address? (before ++ after) ∧
    payloads (before ++ line :: after) = payloads (before ++ after) := by
  have hdrop (hform : StatusLine.ofText line = .noNumber ∨ StatusLine.ofText line = .other)
      (hnone : (SightingLine.ofText line).sighting? = none)
      (hshort : SightingLine.ofText line ≠ .overlong) (hip : after? Mark.ip line = none)
      (hdata : after? Mark.tcpData line = none) :
      Status.ofLines? (before ++ line :: after) = Status.ofLines? (before ++ after) ∧
      survey? (before ++ line :: after) = survey? (before ++ after) ∧
      address? (before ++ line :: after) = address? (before ++ after) ∧
      payloads (before ++ line :: after) = payloads (before ++ after) := by
    refine ⟨ofLines?_drop _ _ _ hform, survey?_drop _ _ _ hnone hshort, ?_, ?_⟩
    · simp [address?, List.findSome?_append, hip]
    · simp [payloads, hdata]
  rcases h.cases with ⟨signal, rfl, hsignal⟩ | ⟨record, rfl, hrecord⟩
  · have hnetwork : after? Mark.network (Mark.rssi ++ signal) = none := rfl
    have hother : SightingLine.ofText (Mark.rssi ++ signal) = .other := by
      rw [SightingLine.ofText, hnetwork]
    refine hdrop (.inl ((ofText_rssi signal).trans hsignal)) ?_ ?_ rfl rfl
    · rw [hother]
      rfl
    · rw [hother]
      exact SightingLine.noConfusion
  · have hform : SightingLine.ofText (Mark.network ++ record) = .tooFewFields ∨
        SightingLine.ofText (Mark.network ++ record) = .noNumber := by
      rw [ofText_network]
      exact hrecord
    refine hdrop (.inr rfl) ?_ ?_ rfl rfl
    · rcases hform with hform | hform <;> rw [hform] <;> rfl
    · rcases hform with hform | hform <;> rw [hform] <;> exact SightingLine.noConfusion

/-- A status and a survey are read from any lines unless one of their numbers has too many digits. -/
theorem isSome_answers_iff (lines : List Text) :
    ((Status.ofLines? lines).isSome = true ↔ ∀ line ∈ lines, ¬ OverlongSignal line) ∧
    ((survey? lines).isSome = true ↔ ∀ line ∈ lines, ¬ OverlongSighting line) := by
  constructor
  · simp only [Status.ofLines?_isSome_iff, overlongSignal_iff, ne_eq]
  · simp only [overlongSighting_iff, survey?]
    split
    · rename_i hlong
      simp only [List.contains_eq_mem, List.mem_map, decide_eq_true_eq] at hlong
      obtain ⟨line, hline, hover⟩ := hlong
      simpa using ⟨line, hline, hover⟩
    · rename_i hshort
      simpa using hshort

end StationLink.Protocol
