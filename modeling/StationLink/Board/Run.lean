import StationLink.Board.Tcp
import StationLink.Board.Wifi

/-!
# Running the board

One turn of the board carries out the orders of all complete lines, forwards what the session has
received, and rests. A crash ends the turn at once: the orders after it are lost, and neither
forwarding nor the rest takes place.
-/

namespace StationLink.Board

open Text

/-- The rest of an idle turn, in milliseconds. -/
def idleRest : Nat := 10

def execute (order : Order) (b : Board) : Board × Option Crash :=
  match order with
  | .connect ssid password => (b.connect ssid password, none)
  | .connectWithoutPassword =>
    (b.printLine "ERROR:Invalid CONNECT format. Use CONNECT:SSID:PASSWORD".toList, none)
  | .status => b.reportStatus
  | .scan => b.reportSurvey
  | .disconnect => (b.disconnect, none)
  | .tcpConnect host port => b.tcpConnect host port
  | .tcpConnectWithoutHost => (b.printLine "ERROR:Invalid TCPCONNECT format".toList, none)
  | .tcpSend data => (b.tcpSend data, none)
  | .tcpClose => (b.tcpClose, none)
  | .address => (b.reportAddress, none)
  | .unknown line => (b.printLine ("ERROR:Unknown command: ".toList ++ line), none)

/-- Carries out orders until one crashes. -/
def executeAll : List Order → Board → Board × Option Crash
  | [], b => (b, none)
  | order :: orders, b =>
    match b.execute order with
    | (b, none) => executeAll orders b
    | (b, some crash) => (b, some crash)

/-- One turn. -/
def turn (b : Board) : Board × Option Crash :=
  let (lines, input) := frame b.input
  match executeAll (lines.map Order.ofBytes) { b with input } with
  | (b, none) => (b.forward.rest idleRest, none)
  | (b, some crash) => (b, some crash)

theorem executeAll_append (os ps : List Order) (b : Board) :
    executeAll (os ++ ps) b =
      match executeAll os b with
      | (b, none) => executeAll ps b
      | (b, some crash) => (b, some crash) := by
  induction os generalizing b with
  | nil => rfl
  | cons o os ih =>
    simp only [List.cons_append, executeAll]
    rcases b.execute o with ⟨b, _ | crash⟩
    · exact ih b
    · rfl

end StationLink.Board
