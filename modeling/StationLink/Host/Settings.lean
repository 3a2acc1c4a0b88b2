import StationLink.Serial.Line

/-!
# Settings of a link

The serial device and its timing, all in one time scale.
-/

namespace StationLink.Host

open Serial

structure Settings (τ : Type) where
  port : Text
  /-- Absent if the rate was asked for without a value. -/
  baudrate : Option Int
  /-- Timeout of a single read. -/
  timeout : Option τ
  writeTimeout : τ
  /-- Wait after opening, while the board restarts. -/
  settleDelay : τ
  /-- Wait after each line that is written. -/
  commandDelay : τ

namespace Settings

def default (τ : Type) [TimeScale τ] : Settings τ where
  port := "/dev/ttyS0".toList
  baudrate := some 115200
  timeout := some (TimeScale.ofMillis 1000)
  writeTimeout := TimeScale.ofMillis 1000
  settleDelay := TimeScale.ofMillis 2000
  commandDelay := TimeScale.ofMillis 100

def serial {τ : Type} (s : Settings τ) : PortSettings τ :=
  { baudrate := s.baudrate, timeout := s.timeout, writeTimeout := s.writeTimeout }

end Settings

end StationLink.Host
