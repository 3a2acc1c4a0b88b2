import StationLink.Protocol.Mark
import StationLink.Text.Field

/-!
# The verdict of a window

The first line that has either the phrase of success or the mark of an error decides; success is
looked for first in each line. Without such a line the window has run out.
-/

namespace StationLink.Protocol

open Text

inductive Verdict where
  | ok (line : Text)
  | error (line : Text)
  | timeout
deriving DecidableEq, Repr

namespace Verdict

def ofLines (success : Text) : List Text → Verdict
  | [] => .timeout
  | line :: lines =>
    if contains success line then .ok line
    else if contains Mark.error line then .error line
    else ofLines success lines

theorem ofLines_eq_timeout_iff (success : Text) (lines : List Text) :
    ofLines success lines = .timeout ↔
      ∀ line ∈ lines, contains success line = false ∧ contains Mark.error line = false := by
  induction lines with
  | nil => simp [ofLines]
  | cons line lines ih =>
    simp only [ofLines, List.forall_mem_cons]
    cases contains success line <;> cases contains Mark.error line <;> simp [ih]

theorem ofLines_append (success : Text) (lines more : List Text) :
    ofLines success (lines ++ more) =
      if ofLines success lines = .timeout then ofLines success more else ofLines success lines := by
  induction lines with
  | nil => rfl
  | cons line lines ih =>
    simp only [List.cons_append, ofLines]
    split
    · rfl
    split
    · rfl
    · exact ih

end Verdict

end StationLink.Protocol
