import StationLink.Protocol.Verdict

/-!
# What decides a verdict

A window succeeds by the first of its lines that has the phrase of success, unless an error was reported
before it.
-/

namespace StationLink.Protocol

open Text

/-- A line has the phrase, and no line before it the mark of an error. -/
def Succeeds (phrase : Text) (lines : List Text) : Prop :=
  ∃ before line after, lines = before ++ line :: after ∧ contains phrase line = true ∧
    ∀ t ∈ before, contains Mark.error t = false

theorem succeeds_cons (phrase line : Text) (lines : List Text) :
    Succeeds phrase (line :: lines) ↔
      contains phrase line = true ∨ contains Mark.error line = false ∧ Succeeds phrase lines := by
  constructor
  · rintro ⟨_ | ⟨t, before⟩, mark, after, heq, hmark, hbefore⟩
    · obtain ⟨rfl, rfl⟩ := List.cons.inj heq
      exact .inl hmark
    · obtain ⟨rfl, rfl⟩ := List.cons.inj heq
      obtain ⟨ht, hbefore⟩ := List.forall_mem_cons.mp hbefore
      exact .inr ⟨ht, before, mark, after, rfl, hmark, hbefore⟩
  · rintro (hmark | ⟨hline, before, mark, after, rfl, hmark, hbefore⟩)
    · exact ⟨[], line, lines, rfl, hmark, by simp⟩
    · exact ⟨line :: before, mark, after, rfl, hmark, List.forall_mem_cons.mpr ⟨hline, hbefore⟩⟩

theorem succeeds_iff (phrase : Text) (lines : List Text) :
    Succeeds phrase lines ↔ ∃ line, Verdict.ofLines phrase lines = .ok line := by
  induction lines with
  | nil =>
    constructor
    · rintro ⟨before, line, after, heq, _⟩
      cases before <;> cases heq
    · rintro ⟨line, hline⟩
      cases hline
  | cons line lines ih =>
    rw [succeeds_cons, ih, Verdict.ofLines]
    cases contains phrase line with
    | true => simp
    | false => cases contains Mark.error line <;> simp

/-- The first line with the mark of an error, if neither it nor a line before it has the phrase. -/
def Refuses (phrase : Text) (lines : List Text) (line : Text) : Prop :=
  ∃ before after, lines = before ++ line :: after ∧
    (contains phrase line = false ∧ contains Mark.error line = true) ∧
    ∀ t ∈ before, contains phrase t = false ∧ contains Mark.error t = false

def Undecided (phrase : Text) (lines : List Text) : Prop :=
  ∀ line ∈ lines, contains phrase line = false ∧ contains Mark.error line = false

/-! ## The line that decides -/

def decides (phrase line : Text) : Bool :=
  contains phrase line || contains Mark.error line

theorem not_decides {phrase line : Text} :
    (!decides phrase line) = true ↔ contains phrase line = false ∧ contains Mark.error line = false := by
  rw [Bool.not_eq_true', decides, Bool.or_eq_false_iff]

namespace Verdict

def byLine (phrase : Text) : Option Text → Verdict
  | some line => if contains phrase line then .ok line else .error line
  | none => .timeout

theorem ofLines_eq_byLine (phrase : Text) (lines : List Text) :
    ofLines phrase lines = byLine phrase (lines.find? (decides phrase)) := by
  induction lines with
  | nil => rfl
  | cons line lines ih =>
    rw [ofLines, ih, List.find?_cons, decides]
    cases hphrase : contains phrase line with
    | true => simp [byLine, hphrase]
    | false => cases contains Mark.error line <;> simp [byLine, hphrase]

theorem refuses_iff (phrase : Text) (lines : List Text) (line : Text) :
    Refuses phrase lines line ↔ ofLines phrase lines = .error line := by
  rw [ofLines_eq_byLine]
  constructor
  · rintro ⟨before, after, rfl, ⟨hphrase, herror⟩, hbefore⟩
    have hdecides : decides phrase line = true := by simp [decides, herror]
    have hfirst : (before ++ line :: after).find? (decides phrase) = some line :=
      List.find?_eq_some_iff_append.mpr
        ⟨hdecides, before, after, rfl, fun t ht => not_decides.mpr (hbefore t ht)⟩
    simp [hfirst, byLine, hphrase]
  · intro hverdict
    cases hfirst : lines.find? (decides phrase) with
    | none =>
      rw [hfirst] at hverdict
      cases hverdict
    | some first =>
      obtain ⟨hdecides, before, after, rfl, hbefore⟩ := List.find?_eq_some_iff_append.mp hfirst
      rw [hfirst, byLine] at hverdict
      split at hverdict
      · cases hverdict
      · rename_i hphrase
        obtain rfl := error.inj hverdict
        rw [Bool.not_eq_true] at hphrase
        rw [decides, hphrase, Bool.false_or] at hdecides
        exact ⟨before, after, rfl, ⟨hphrase, hdecides⟩, fun t ht => not_decides.mp (hbefore t ht)⟩

/-- Lines that do not decide may stand anywhere. -/
theorem ofLines_of_filter {phrase : Text} {lines more : List Text}
    (h : more.filter (decides phrase) = lines.filter (decides phrase)) :
    ofLines phrase more = ofLines phrase lines := by
  have hfilter (ls : List Text) : (ls.filter (decides phrase)).find? (decides phrase) = ls.find? (decides phrase) := by
    simp [List.find?_filter]
  rw [ofLines_eq_byLine, ofLines_eq_byLine, ← hfilter more, h, hfilter]

theorem ofLines_of_decides {phrase line : Text} (h : decides phrase line = true)
    (before after after' : List Text) :
    ofLines phrase (before ++ line :: after) = ofLines phrase (before ++ line :: after') := by
  rw [ofLines_eq_byLine, ofLines_eq_byLine, List.find?_append, List.find?_append, List.find?_cons_of_pos h,
    List.find?_cons_of_pos h]

end Verdict

end StationLink.Protocol
