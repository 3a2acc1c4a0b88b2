import StationLink.Board.State
import StationLink.Protocol.Mark

/-!
# Orders about WiFi

A join polls the radio up to twenty times, half a second apart, and prints a dot for each rest; the
radio is asked once more before the verdict. Status, survey and address are answered from the radio.
Each answer comes with the crash that cut it short, if one did.
-/

namespace StationLink.Board

open Text Protocol

/-- Polls of a join before it is given up, the last one apart. -/
def joinAttempts : Nat := 20

/-- The rest between two polls of a join, in milliseconds. -/
def joinRest : Nat := 500

def pollRadio (b : Board) : Bool × Board :=
  let (up, radio) := b.radio.poll
  (up, { b with radio })

/-- Rests and polls until the radio is associated or the attempts are used up. -/
def awaitJoin : Nat → Board → Board
  | 0, b => b.pollRadio.2
  | attempts + 1, b =>
    let (up, b) := b.pollRadio
    if up then b else awaitJoin attempts ((b.rest joinRest).print ".".toList)

def connect (ssid password : Text) (b : Board) : Board :=
  let b := b.printLine ("CONNECTING:".toList ++ ssid)
  let b := { b with wifi := .connecting, radio := b.radio.join ssid password }
  let b := (awaitJoin joinAttempts b).printLine []
  let (up, b) := b.pollRadio
  if up then
    ({ b with wifi := .connected }.printLine "OK:Connected".toList).printLine
      (Mark.ip ++ b.radio.ip)
  else
    { b with wifi := .idle }.printLine "ERROR:Connection failed".toList

def disconnect (b : Board) : Board :=
  { b with radio := b.radio.leave, wifi := .idle }.printLine "OK:Disconnected".toList

/-- Asks the radio, and notices the loss of a network that was joined. -/
def noticeLoss (b : Board) : Bool × Board :=
  let (up, b) := b.pollRadio
  (up, if !up && b.wifi = .connected then { b with wifi := .idle } else b)

theorem noticeLoss_snd (b : Board) :
    b.noticeLoss.2 =
      { b with
        radio := b.radio.poll.2
        wifi := if !b.radio.poll.1 && b.wifi = .connected then .idle else b.wifi } := by
  have hlost (lost : Bool) (b : Board) : (if lost then { b with wifi := .idle } else b) =
      { b with wifi := if lost then .idle else b.wifi } := by
    cases lost <;> rfl
  exact hlost _ { b with radio := b.radio.poll.2 }

def reportAddress (b : Board) : Board :=
  let (up, b) := b.noticeLoss
  if up then b.printLine (Mark.ip ++ b.radio.ip)
  else b.printLine "ERROR:Not connected to WiFi".toList

def reportStatus (b : Board) : Board × Option Crash :=
  let (up, b) := b.noticeLoss
  if up then
    let b := b.printLine (Mark.status ++ Mark.connected)
    let b := b.printLine (Mark.ssid ++ b.radio.ssid)
    let b := b.printLine (Mark.ip ++ b.radio.ip)
    match Numeral.write? b.radio.rssi with
    | some signal => (b.printLine (Mark.rssi ++ signal ++ " dBm".toList), none)
    | none => (b, some .numeralTooLong)
  else
    (b.printLine (Mark.status ++ Mark.disconnected), none)

/-- The survey line of a network, unless its signal is too long a number. -/
def surveyLine? (n : Network) : Option Text :=
  (Numeral.write? n.rssi).map fun signal =>
    Mark.network ++ n.ssid ++ ':' :: signal ++
      ':' :: if n.password.isNone then Mark.unsecured else Mark.secured

def printSurvey : List Network → Board → Board × Option Crash
  | [], b => (b, none)
  | n :: networks, b =>
    match surveyLine? n with
    | some line => printSurvey networks (b.printLine line)
    | none => (b, some .numeralTooLong)

def reportSurvey (b : Board) : Board × Option Crash :=
  let b := b.printLine "SCANNING...".toList
  let networks := b.radio.networks
  if networks = [] then (b.printLine "SCAN:No networks found".toList, none)
  else
    printSurvey networks (b.printLine
      ("SCAN:Found ".toList ++ Nat.toDigits 10 networks.length ++ " networks".toList))

end StationLink.Board
