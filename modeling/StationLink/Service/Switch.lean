import StationLink.Text.Basic

/-!
# Switches of the command line

The switches that the service knows, and what can be wrong with a command line, with its wording.
-/

namespace StationLink.Service

/-- The switches that take a value. -/
inductive Setting where
  | port
  | baudrate
  | interval
deriving DecidableEq, Repr

inductive Switch where
  | help
  | setting (s : Setting)
  | verbose
deriving DecidableEq, Repr

namespace Switch

def all : List Switch :=
  [help, setting .port, setting .baudrate, setting .interval, verbose]

def name : Switch → Text
  | help => "--help".toList
  | setting .port => "--port".toList
  | setting .baudrate => "--baudrate".toList
  | setting .interval => "--interval".toList
  | verbose => "--verbose".toList

/-- The short name of the only switch that has one. -/
def shortHelp : Text := "-h".toList

/-- All names of a switch. -/
def title : Switch → Text
  | help => shortHelp ++ '/' :: help.name
  | s => s.name

def ofName? (t : Text) : Option Switch :=
  if t = shortHelp then some help else all.find? fun s => s.name = t

end Switch

end StationLink.Service
