import StationLink.Board.Radio

/-!
# The registers of the radio

What a radio is on to is kept in three registers: the network it is joining, the countdown of that join,
and the network it is associated with. The countdown means nothing but while a network is being joined;
it stays behind when the join is ended, and the next join that is taken up sets it anew.
-/

namespace StationLink.Board

structure Transceiver where
  networks : List Network
  joining : Option Network := none
  pollsLeft : Int := 0
  associated : Option Network := none
deriving DecidableEq, Repr

namespace Transceiver

def find? (t : Transceiver) (ssid : Text) : Option Network :=
  t.networks.find? fun n => n.ssid = ssid

def leave (t : Transceiver) : Transceiver :=
  { t with joining := none, associated := none }

def join (t : Transceiver) (ssid password : Text) : Transceiver :=
  match t.find? ssid with
  | none => t.leave
  | some n =>
    if n.admits password then { t.leave with joining := some n, pollsLeft := n.joinPolls } else t.leave

/-- Moves the join on by one step. -/
def advance (t : Transceiver) : Transceiver :=
  match t.joining with
  | none => t
  | some n =>
    if t.pollsLeft ≤ 0 then { t with joining := none, associated := some n }
    else { t with pollsLeft := t.pollsLeft - 1 }

def poll (t : Transceiver) : Bool × Transceiver :=
  (t.advance.associated.isSome, t.advance)

def ssid (t : Transceiver) : Text :=
  (t.associated.map Network.ssid).getD []

def rssi (t : Transceiver) : Int :=
  (t.associated.map Network.rssi).getD 0

def ip (t : Transceiver) : Text :=
  (t.associated.map Network.ip).getD "0.0.0.0".toList

/-- The registers read as one association. -/
def association (t : Transceiver) : Association :=
  match t.joining, t.associated with
  | some n, _ => .joining n t.pollsLeft
  | none, some n => .associated n
  | none, none => .idle

def radio (t : Transceiver) : Radio where
  networks := t.networks
  association := t.association

end Transceiver

end StationLink.Board
