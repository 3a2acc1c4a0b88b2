import StationLink.Text.Basic

/-!
# The radio

A station-mode radio over a fixed list of networks. It is idle, joining a network, or associated
with one. A join is completed by being asked about: each poll that finds the countdown running takes
one step, and the first poll after it associates.
-/

namespace StationLink.Board

structure Network where
  ssid : Text
  /-- Signal strength in dBm. -/
  rssi : Int
  /-- An open network has no password. -/
  password : Option Text := none
  ip : Text := "192.168.1.42".toList
  /-- Polls that a join takes before the one that completes it. -/
  joinPolls : Int := 0
  reachable : Bool := true
deriving DecidableEq, Repr

/-- Whether a join with this password is taken up. -/
def Network.admits (n : Network) (password : Text) : Bool :=
  n.reachable && n.password.all (· = password)

inductive Association where
  | idle
  | joining (network : Network) (pollsLeft : Int)
  | associated (network : Network)
deriving DecidableEq, Repr

structure Radio where
  networks : List Network
  association : Association := .idle
deriving DecidableEq, Repr

namespace Radio

def find? (r : Radio) (ssid : Text) : Option Network :=
  r.networks.find? fun n => n.ssid = ssid

/-- Begins to join the first network of that name, leaving whatever network was joined before. -/
def join (r : Radio) (ssid password : Text) : Radio :=
  match r.find? ssid with
  | some n =>
    { r with association := if n.admits password then .joining n n.joinPolls else .idle }
  | none => { r with association := .idle }

/-- Asks whether the radio is associated. -/
def poll (r : Radio) : Bool × Radio :=
  match r.association with
  | .idle => (false, r)
  | .associated _ => (true, r)
  | .joining n left =>
    if left ≤ 0 then (true, { r with association := .associated n })
    else (false, { r with association := .joining n (left - 1) })

def leave (r : Radio) : Radio :=
  { r with association := .idle }

def network? (r : Radio) : Option Network :=
  match r.association with
  | .associated n => some n
  | _ => none

def ssid (r : Radio) : Text :=
  (r.network?.map Network.ssid).getD []

def rssi (r : Radio) : Int :=
  (r.network?.map Network.rssi).getD 0

def ip (r : Radio) : Text :=
  (r.network?.map Network.ip).getD "0.0.0.0".toList

theorem poll_fst (r : Radio) : r.poll.1 = r.poll.2.network?.isSome := by
  simp only [poll]
  split
  · simp_all [network?]
  · simp_all [network?]
  · split <;> simp [network?]

end Radio

end StationLink.Board
