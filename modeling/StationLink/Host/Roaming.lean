import StationLink.Host.Client

/-!
# Roaming

Of the networks in sight whose password is known, the strongest is joined; of two equally strong
ones, the one that was reported first.
-/

namespace StationLink.Host.Roaming

open Serial Protocol

variable {σ τ : Type} [SerialLine σ τ] [TimeScale τ]

/-- The first of the strongest sightings. -/
def strongest? (sightings : List Sighting) : Option Sighting :=
  sightings.foldl (fun best s =>
    match best with
    | none => some s
    | some b => if b.rssi < s.rssi then some s else some b) none

def strongestKnown? (known : List (Text × Text)) (sightings : List Sighting) : Option Sighting :=
  strongest? (sightings.filter fun s => (known.lookup s.ssid).isSome)

def connectStrongest (k : Link τ) (known : List (Text × Text)) : Call σ (Option Sighting) := do
  let sightings ← Client.survey k
  match strongestKnown? known sightings with
  | none => return none
  | some s =>
    Client.connect k s.ssid ((known.lookup s.ssid).getD [])
    return some s

end StationLink.Host.Roaming
