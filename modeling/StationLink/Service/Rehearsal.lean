import StationLink.Serial.Wired
import StationLink.Service.Run
import StationLink.Time.Double

/-!
# Rehearsals

A rehearsal runs the service against an emulated board that has the network asked for in sight, for
a few rounds, and reports its log line by line.
-/

namespace StationLink.Service

open Serial Board

/-- What a command line comes to: its exit code, and the lines to print. -/
structure Report where
  code : Nat
  lines : List Text
deriving DecidableEq, Repr

namespace Rehearsal

/-- Checks before the watch is interrupted. -/
def rounds : Nat := 3

/-- Reads that no window of a rehearsal exceeds, as each of them takes a second or finds a line. -/
def patience : Nat := 10000

def network (o : Options) : Network where
  ssid := o.ssid
  rssi := -50
  password := some (Options.spelled o.password)

def line (o : Options) : WiredLine Float where
  clock := Clock.start 0
  board := .boot [network o] []
  paced := true

def exitCode : Ending → Nat
  | .exit code => code
  | .interrupted => 130
  | .failed _ => 1

def eventLine (e : Host.Event) : Text :=
  e.level.name ++ ": ".toList ++ e.message

def report (o : Options) : Report :=
  let (ending, host) := run patience o { rounds, atRest := fun _ l => l, flaw? := Double.flaw? } (line o)
  { code := exitCode ending, lines := (log o.verbose host).map eventLine }

end Rehearsal

def usageLine : Text :=
  "usage: [-h] [--port PORT] [--baudrate BAUDRATE] [--interval INTERVAL] [--verbose] ".toList ++
    "ssid password".toList

def Stop.report (s : Stop) : Report where
  code := s.exitCode
  lines :=
    match s with
    | .help => [usageLine]
    | .usage fault => [usageLine, "error: ".toList ++ fault.message]

/-- The report on the words of a command line. -/
def report (argv : List Text) : Report :=
  match Options.ofWords? argv with
  | .ok o => Rehearsal.report o
  | .error s => s.report

end StationLink.Service
