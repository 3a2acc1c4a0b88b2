import StationLink.Host.Client

/-!
# The monitor

A check asks for the status and joins the network again if the link is lost; link failures on the
way are noted and end the check. A run rests before each of its checks. A watch goes on until it is
interrupted, which happens as one of its rests begins, or until it cannot rest for want of a usable
interval.
-/

namespace StationLink.Host

open Serial

/-- The network to keep joined. -/
structure Credentials where
  ssid : Text
  password : Text
deriving DecidableEq, Repr

/-- A network to keep joined, and the rest between two checks. -/
structure Monitor (τ : Type) extends Credentials where
  interval : τ

namespace Monitor

variable {σ τ : Type} [SerialLine σ τ] [TimeScale τ]

/-- The usual rest between two checks, in milliseconds. -/
def usualInterval : Nat := 30000

/-- Begins to count anew. -/
def begin : Call σ Unit :=
  modify fun h => { h with rejoined := 0 }

def rejoin (k : Link τ) (c : Credentials) : Call σ Bool := do
  match ← (Client.connect k c.ssid c.password).orLinkFailure with
  | .error f =>
    Call.note (.rejoinFailed f)
    return false
  | .ok _ =>
    modify fun h => { h with rejoined := h.rejoined + 1 }
    Call.note .rejoined
    return true

/-- Whether the link is up after the check. -/
def check (k : Link τ) (c : Credentials) : Call σ Bool := do
  match ← (Client.status k).orLinkFailure with
  | .error f =>
    Call.note (.checkFailed f)
    return false
  | .ok s =>
    if s.connected then
      Call.note (.linkUp s)
      return true
    else
      Call.note .linkLost
      rejoin k c

def rest (d : τ) : Call σ Unit := do
  modify fun h => { h with rests := h.rests + 1 }
  Call.pause d

def run (k : Link τ) (m : Monitor τ) : Nat → Call σ Unit
  | 0 => return
  | checks + 1 => do
    rest m.interval
    discard (check k m.toCredentials)
    run k m checks

/-- Rests and checks as often as given, then is interrupted. What happens around the watch as its
`i`-th rest begins is given by `surroundings i`. -/
def watch (k : Link τ) (c : Credentials) (interval : Except Failure τ)
    (surroundings : Nat → σ → σ) (i : Nat) : Nat → Call σ Unit
  | 0 => do
    modify fun h => { h with line := surroundings i h.line }
    throw .interrupted
  | checks + 1 => do
    modify fun h => { h with line := surroundings i h.line }
    match interval with
    | .error f => throw f
    | .ok d =>
      rest d
      discard (check k c)
      watch k c interval surroundings (i + 1) checks

end Monitor

end StationLink.Host
