import StationLink.Serial.Fault
import StationLink.Time.Scale

/-!
# Serial lines

What a host needs of its surroundings: a clock, and ports that it opens one after the other. Every
call is made on the newest port. Faults are values beside the surroundings they leave behind.
-/

namespace StationLink.Serial

/-- The settings a port is opened with. -/
structure PortSettings (τ : Type) where
  /-- Absent if the rate was asked for without a value. -/
  baudrate : Option Int
  /-- Without a timeout a read that finds no line returns at once. -/
  timeout : Option τ
  writeTimeout : τ
  bytesize : Nat := 8
  parity : Char := 'N'
  stopbits : Nat := 1

class SerialLine (σ : Type) (τ : outParam Type) where
  clock : σ → Clock τ
  setClock : Clock τ → σ → σ
  /-- An attempt to open a port, which becomes the newest one if it succeeds. -/
  openPort : PortSettings τ → σ → Except Fault Unit × σ
  isOpen : σ → Bool
  write : Bytes → σ → Except Fault Unit × σ
  flush : σ → Except Fault Unit × σ
  readLine : σ → Except Fault Bytes × σ
  close : σ → Except Fault Unit × σ

/-- Faults of the opening attempts, in order, and how many attempts were made. -/
structure Openings where
  faults : List (Option Fault) := []
  attempts : Nat := 0
deriving DecidableEq, Repr

namespace Openings

def fault? (o : Openings) : Option Fault :=
  o.faults[o.attempts]?.join

def next (o : Openings) : Openings :=
  { o with attempts := o.attempts + 1 }

end Openings

/-- Changes the newest of the ports, which are listed newest first. -/
def modifyNewest {α : Type} (f : α → α) : List α → List α
  | [] => []
  | p :: ps => f p :: ps

theorem head?_modifyNewest {α : Type} (f : α → α) (ps : List α) :
    (modifyNewest f ps).head? = ps.head?.map f := by
  cases ps <;> rfl

end StationLink.Serial
