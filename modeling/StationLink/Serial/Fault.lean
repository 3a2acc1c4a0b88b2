import StationLink.Board.State

/-!
# Faults of a serial line

A fault is what a call of a port may raise. All faults but the invalid ones are failures of input or
output, which the host expects and answers; an invalid one passes through it.
-/

namespace StationLink.Serial

inductive FaultKind where
  | serial
  | timeout
  | notOpen
  | system
  | invalid
deriving DecidableEq, Repr

structure Fault where
  kind : FaultKind
  message : Text
deriving DecidableEq, Repr

namespace Fault

def isIo (f : Fault) : Bool :=
  f.kind ≠ .invalid

def notOpen : Fault :=
  ⟨.notOpen, "Attempting to use a port that is not open".toList⟩

def unplugged : Fault :=
  ⟨.serial, "write failed: device disconnected".toList⟩

/-- A crash of the board reaches the reader of its line as an invalid fault. -/
def ofCrash : Board.Crash → Fault
  | .numeralTooLong => ⟨.invalid, "numeral too long".toList⟩
  | .dialFault => ⟨.invalid, "call refused as invalid".toList⟩

theorem isIo_ofCrash (c : Board.Crash) : (ofCrash c).isIo = false := by
  cases c <;> rfl

end Fault

end StationLink.Serial
