import StationLink.Host.Monitor
import StationLink.Service.Options

/-!
# The service

The service opens the link, joins the network and watches it until it is interrupted. Once the link
is open it is closed again, however the rest goes; a failure to close it takes the place of whatever
came before. The log shows the events of the journal in order, those for debugging only on request.
-/

namespace StationLink.Service

open Serial Host

inductive Ending where
  | exit (code : Nat)
  | interrupted
  | failed (failure : Failure)
deriving DecidableEq, Repr

/-- What the service finds around itself as its watch has rests: how many it has before it is
interrupted, what happens to the line as each of them begins, and which rests its clock refuses. -/
structure Surroundings (σ τ : Type) where
  rounds : Nat
  atRest : Nat → σ → σ
  flaw? : τ → Option Flaw

variable {σ τ α : Type} [SerialLine σ τ] [TimeScale τ]

/-- Closes the link after a computation, also after one that failed. -/
def closing (k : Link τ) (c : Call σ α) : Call σ α := fun h =>
  match c h with
  | .ok a h => (do Channel.close k; return a) h
  | .error f h => (do Channel.close k; throw f) h

/-- Turns a failure of the port into a value; any other failure passes through. -/
def orTransportFailure (c : Call σ α) : Call σ (Except Failure α) := fun h =>
  match c h with
  | .ok a h => .ok (.ok a) h
  | .error f h => if f.isTransport then .ok (.error f) h else .error f h

def giveUp (f : Failure) : Call σ Nat := do
  Call.note (.startFailed f)
  return 1

def link (patience : Nat) (o : Options) : Link τ where
  settings := { Settings.default τ with port := Options.spelled o.port, baudrate := o.baudrate }
  patience := patience

def credentials (o : Options) : Credentials where
  ssid := o.ssid
  password := Options.spelled o.password

def interval (o : Options) (flaw? : τ → Option Flaw) : Except Failure τ :=
  match o.interval.map TimeScale.ofDecimal with
  | none => .error .noInterval
  | some d =>
    match flaw? d with
    | some flaw => .error (.unfitInterval flaw)
    | none => .ok d

def keep (k : Link τ) (o : Options) (s : Surroundings σ τ) : Call σ Nat := do
  let c := credentials o
  match ← (Client.connect k c.ssid c.password).orLinkFailure with
  | .error f => giveUp f
  | .ok _ =>
    Call.note .watchStarted
    Monitor.begin
    Monitor.watch k c (interval o s.flaw?) s.atRest 0 s.rounds
    return 0

def serve (k : Link τ) (o : Options) (s : Surroundings σ τ) : Call σ Nat := do
  Call.note (.portChosen k.settings.port)
  match ← orTransportFailure (Client.start k) with
  | .error f => giveUp f
  | .ok _ => closing k (keep k o s)

/-- Runs the service, and notes what ended it if it did not end by itself. -/
def run (patience : Nat) (o : Options) (s : Surroundings σ τ) (line : σ) : Ending × Host σ :=
  match serve (link patience o) o s { line } with
  | .ok code h => (.exit code, h)
  | .error .interrupted h => (.interrupted, { h with journal := .watchStopped :: h.journal })
  | .error f h => (.failed f, { h with journal := .uncaught :: h.journal })

/-- The events of the journal in order, without those for debugging unless they are asked for. -/
def log (verbose : Bool) (h : Host σ) : List Event :=
  h.journal.reverse.filter fun e => verbose || e.level ≠ .debug

end StationLink.Service
