import StationLink.Protocol.Mark
import StationLink.Text.Field
import StationLink.Text.Numeral

/-!
# Surveys of networks

A survey answers with a line for each network in sight: name, signal and security, parted by
colons. Lines that are no such record are dropped; a number that is too long leaves the window
without a survey. A name with a colon shifts the other fields, and so spoils its own record.
-/

namespace StationLink.Protocol

open Text

/-- A network as a survey reports it. -/
structure Sighting where
  ssid : Text
  /-- Signal strength in dBm. -/
  rssi : Int
  secured : Bool
deriving DecidableEq, Repr

/-- What one line says of a survey. -/
inductive SightingLine where
  | sighting (s : Sighting)
  | tooFewFields
  | noNumber
  | overlong
  | other
deriving DecidableEq, Repr

namespace SightingLine

def ofFields : List Text → SightingLine
  | ssid :: signal :: security :: _ =>
    match Numeral.leading signal with
    | .value n => .sighting ⟨ssid, n, security = Mark.secured⟩
    | .absent => .noNumber
    | .overlong => .overlong
  | _ => .tooFewFields

def ofText (line : Text) : SightingLine :=
  match after? Mark.network line with
  | some record => ofFields (record.splitOn ':')
  | none => .other

def sighting? : SightingLine → Option Sighting
  | .sighting s => some s
  | _ => none

end SightingLine

/-- The sightings in the order of the lines, unless one of the numbers is too long. -/
def survey? (lines : List Text) : Option (List Sighting) :=
  let said := lines.map SightingLine.ofText
  if said.contains .overlong then none else some (said.filterMap SightingLine.sighting?)

theorem survey?_append (ls ms : List Text) :
    survey? (ls ++ ms) = (survey? ls).bind fun a => (survey? ms).map (a ++ ·) := by
  simp only [survey?, List.map_append, List.contains_append, List.filterMap_append]
  cases (ls.map SightingLine.ofText).contains .overlong <;>
    cases (ms.map SightingLine.ofText).contains .overlong <;> simp

end StationLink.Protocol
