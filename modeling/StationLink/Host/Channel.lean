import StationLink.Host.State
import StationLink.Text.Blank
import StationLink.Text.Utf8

/-!
# The channel

Lines over a serial port. A line that is written is followed by a line feed and a delay. What is
read is gathered until it ends in a line feed; faults of reading, and lines cut short by a timeout,
are no failures, and what was read of a line is kept. A window collects the lines that are not blank
until the clock passes its end.
-/

namespace StationLink.Host.Channel

open Serial Text

variable {σ τ : Type} [SerialLine σ τ] [TimeScale τ]

def lineFeed : UInt8 := 0x0A

/-- The delay after a read that failed, in milliseconds. -/
def backOff : Nat := 10

/-- Opens a port unless one is open. A failed attempt leaves the host as it was. -/
def «open» (k : Link τ) : Call σ Unit := do
  if (← get).isOpen then return
  match ← Call.attempt (SerialLine.openPort k.settings.serial) with
  | .error f =>
    Call.note (.openFailed f)
    throw (.openFailed k.settings.port f)
  | .ok _ =>
    modify fun h => { h with held := true, pending := [] }
    Call.note (.portOpened k.settings.port k.settings.baudrate)
    Call.pause k.settings.settleDelay

def letGo : Call σ Unit :=
  modify fun h => { h with held := false, pending := [] }

/-- Closes the port and lets go of it, whether closing fails or not. -/
def close (k : Link τ) : Call σ Unit := do
  let h ← get
  if h.held then
    if SerialLine.isOpen h.line then
      let outcome ← Call.attempt SerialLine.close
      letGo
      match outcome with
      | .ok _ => Call.note (.portClosed k.settings.port)
      | .error f => if f.isIo then Call.note (.closeFailed f) else throw (.invalid f)
    else
      letGo

/-- Fails with what a fault of sending amounts to. -/
def sendFailure (f : Fault) : Call σ Unit := do
  if f.isIo then
    Call.note (.sendFailed f)
    throw (.sendFailed f)
  else
    throw (.invalid f)

def writeLine (k : Link τ) (text : Text) : Call σ Unit := do
  if !(← get).isOpen then throw .notConnected
  Call.note (.sending text)
  match ← Call.attempt (SerialLine.write (Utf8.encode text ++ [lineFeed])) with
  | .error f => sendFailure f
  | .ok _ =>
    match ← Call.attempt SerialLine.flush with
    | .error f => sendFailure f
    | .ok _ => Call.pause k.settings.commandDelay

/-- The line that the pending bytes make up, if they end in a line feed. -/
def takeLine : Call σ (Option Text) := do
  let pending := (← get).pending
  if pending.getLast? = some lineFeed then
    modify fun h => { h with pending := [] }
    return some (trim (Utf8.decode pending))
  else
    return none

def readLine : Call σ (Option Text) := do
  if !(← get).isOpen then return none
  match ← Call.attempt SerialLine.readLine with
  | .error f =>
    if f.isIo then
      Call.note (.readFailed f)
      Call.pause (TimeScale.ofMillis backOff)
      return none
    else
      throw (.invalid f)
  | .ok bytes =>
    modify fun h => { h with pending := h.pending ++ bytes }
    takeLine

/-- Adds lines to those collected until the clock reaches the deadline. -/
def collect (deadline : τ) : Nat → List Text → Call σ (List Text)
  | 0, _ => throw .outOfPatience
  | patience + 1, lines => do
    if TimeScale.before (← Call.now) deadline then
      match ← readLine with
      | some line =>
        if line = [] then collect deadline patience lines
        else do
          Call.note (.received line)
          collect deadline patience (lines ++ [line])
      | none => collect deadline patience lines
    else
      return lines

/-- The lines of a window. -/
def readLines (k : Link τ) (duration : τ) : Call σ (List Text) := do
  if !(← get).isOpen then throw .notConnected
  let start ← Call.now
  collect (TimeScale.add start duration) k.patience []

end StationLink.Host.Channel
