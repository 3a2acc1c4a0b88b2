import StationLink.Serial.Fault
import StationLink.Time.Scale

/-!
# Failures of a call

The link failures are the ones a caller is promised: the port, the answers of the board, and their
absence. The others are an invalid fault or number that passes through, a watch that is interrupted or
has no usable interval, and a window that made more reads than the host has patience for.
-/

namespace StationLink.Host

open Serial

/-- The two actions whose verdict is awaited. -/
inductive Action where
  | connection
  | tcpConnection
deriving DecidableEq, Repr

def Action.name : Action → Text
  | connection => "connection".toList
  | tcpConnection => "TCP connection".toList

inductive Failure where
  | notConnected
  | openFailed (port : Text) (fault : Fault)
  | sendFailed (fault : Fault)
  | refused (action : Action) (line : Text)
  | timedOut (action : Action)
  | noAddress
  | invalid (fault : Fault)
  | invalidNumber
  | noInterval
  | unfitInterval (flaw : Flaw)
  | interrupted
  | outOfPatience
deriving DecidableEq, Repr

namespace Failure

/-- A failure of the port. -/
def isTransport : Failure → Bool
  | notConnected | openFailed _ _ | sendFailed _ => true
  | _ => false

/-- A failure that callers of the link are promised. -/
def isLink : Failure → Bool
  | refused _ _ | timedOut _ | noAddress => true
  | f => f.isTransport

def message : Failure → Text
  | notConnected => "Not connected".toList
  | openFailed port fault => "failed to open port ".toList ++ port ++ ": ".toList ++ fault.message
  | sendFailed fault => "failed to send command: ".toList ++ fault.message
  | refused action line => action.name ++ " failed: ".toList ++ line
  | timedOut action => action.name ++ " timeout".toList
  | noAddress => "no IP address received".toList
  | invalid fault => fault.message
  | invalidNumber => "invalid number".toList
  | noInterval => "no interval".toList
  | unfitInterval .notANumber => "interval is not a number".toList
  | unfitInterval .endless => "interval without end".toList
  | unfitInterval .negative => "interval is negative".toList
  | interrupted => "interrupted".toList
  | outOfPatience => "out of patience".toList

end Failure

end StationLink.Host
