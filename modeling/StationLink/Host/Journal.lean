import StationLink.Host.Failure
import StationLink.Protocol.Status

/-!
# The journal

What the host notes while it works, as events. Each has a level and a wording.
-/

namespace StationLink.Host

open Serial Protocol Text

inductive Level where
  | debug
  | info
  | warning
  | error
deriving DecidableEq, Repr

def Level.name : Level → Text
  | debug => "DEBUG".toList
  | info => "INFO".toList
  | warning => "WARNING".toList
  | error => "ERROR".toList

inductive Event where
  | portOpened (port : Text) (baudrate : Option Int)
  | openFailed (fault : Fault)
  | portClosed (port : Text)
  | closeFailed (fault : Fault)
  | sending (line : Text)
  | sendFailed (fault : Fault)
  | readFailed (fault : Fault)
  | received (line : Text)
  | linkReady (port : Text)
  | failed (failure : Failure)
  | joined (ssid : Text)
  | signalDropped (line : Text)
  | checkFailed (failure : Failure)
  | linkUp (status : Status)
  | linkLost
  | rejoinFailed (failure : Failure)
  | rejoined
  | portChosen (port : Text)
  | startFailed (failure : Failure)
  | watchStarted
  | watchStopped
  | uncaught
deriving DecidableEq, Repr

namespace Event

def level : Event → Level
  | sending _ | readFailed _ | received _ | signalDropped _ => .debug
  | linkLost => .warning
  | openFailed _ | closeFailed _ | sendFailed _ | failed _ | checkFailed _ | rejoinFailed _
  | startFailed _ | uncaught => .error
  | portOpened _ _ | portClosed _ | linkReady _ | joined _ | linkUp _ | rejoined | portChosen _
  | watchStarted | watchStopped => .info

/-- The decimal text of an integer; no integer of the journal exceeds the longest numeral. -/
def decimal (n : Int) : Text :=
  (Numeral.write? n).getD []

/-- An absent rate is noted as an empty pair of brackets. -/
def rate : Option Int → Text
  | some baudrate => decimal baudrate
  | none => "[]".toList

def message : Event → Text
  | portOpened port baudrate =>
    "Opened bridge port ".toList ++ port ++ " at ".toList ++ rate baudrate ++ " baud".toList
  | openFailed fault => "Connection failed: ".toList ++ fault.message
  | portClosed port => "Closed bridge port ".toList ++ port
  | closeFailed fault => "Error disconnecting: ".toList ++ fault.message
  | sending line => "Sending command: ".toList ++ line
  | sendFailed fault => "Command failed: ".toList ++ fault.message
  | readFailed fault => "Read failed: ".toList ++ fault.message
  | received line => "Received response: ".toList ++ line
  | linkReady port => "Connected to ESP32 WiFi bridge on ".toList ++ port
  | failed failure => failure.message
  | joined ssid => "Connected to WiFi network ".toList ++ ssid
  | signalDropped line => "Dropping malformed RSSI line: ".toList ++ line
  | checkFailed failure => "Error checking status: ".toList ++ failure.message
  | linkUp status =>
    "Connected: ".toList ++ status.ssid ++ ", IP: ".toList ++ status.ip ++ ", Signal: ".toList ++
      decimal status.rssi ++ " dBm".toList
  | linkLost => "Connection lost! Attempting to reconnect...".toList
  | rejoinFailed failure => "Reconnection failed: ".toList ++ failure.message
  | rejoined => "Reconnected successfully".toList
  | portChosen port => "Using port: ".toList ++ port
  | startFailed failure => "Failed to connect: ".toList ++ failure.message
  | watchStarted => "WiFi service started. Monitoring connection...".toList
  | watchStopped => "Stopping WiFi service".toList
  | uncaught => "Uncaught exception:".toList

end Event

end StationLink.Host
