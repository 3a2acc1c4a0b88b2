import StationLink.Text.Decimal

/-!
# Time scales

Clock readings, delays and windows are values of one type of time. All that the link does with them
is to add and to compare, and to name its own delays in whole milliseconds.
-/

namespace StationLink

open Text (Decimal)

/-- Why a clock refuses a time as the length of a rest. -/
inductive Flaw where
  | notANumber
  | endless
  | negative
deriving DecidableEq, Repr

class TimeScale (τ : Type) where
  zero : τ
  add : τ → τ → τ
  before : τ → τ → Bool
  ofMillis : Nat → τ
  ofDecimal : Decimal → τ

/-- A clock that stands still between sleeps but for a tick at each reading. -/
structure Clock (τ : Type) where
  now : τ
  tick : τ

namespace Clock

variable {τ : Type} [TimeScale τ]

def start (tick : τ) : Clock τ :=
  ⟨TimeScale.zero, tick⟩

def sleep (d : τ) (c : Clock τ) : Clock τ :=
  { c with now := TimeScale.add c.now d }

/-- The time read, and the clock after the reading. -/
def read (c : Clock τ) : τ × Clock τ :=
  (c.now, c.sleep c.tick)

end Clock

end StationLink
