import StationLink.Protocol.Mark
import StationLink.Text.Field
import StationLink.Text.Numeral

/-!
# The status of the station

A status is folded from the lines of a window. Each line is first read for what it says of one
field; a later line of a field overwrites an earlier one. A signal line without a number says
nothing and is dropped. A number that is too long leaves the whole window without a status.
-/

namespace StationLink.Protocol

open Text

structure Status where
  connected : Bool := false
  ssid : Text := []
  ip : Text := []
  /-- Signal strength in dBm. -/
  rssi : Int := 0
deriving DecidableEq, Repr

/-- What one line says of the status. -/
inductive StatusLine where
  | link (connected : Bool)
  | ssid (name : Text)
  | ip (address : Text)
  | rssi (dBm : Int)
  | noNumber
  | overlong
  | other
deriving DecidableEq, Repr

namespace StatusLine

/-- The word for a lost link contains the word for a link. -/
def ofLink (state : Text) : StatusLine :=
  .link (contains Mark.connected state && !contains Mark.disconnected state)

def ofSignal (signal : Text) : StatusLine :=
  match Numeral.leading signal with
  | .value n => .rssi n
  | .absent => .noNumber
  | .overlong => .overlong

def ofText (line : Text) : StatusLine :=
  match after? Mark.status line with
  | some state => ofLink state
  | none =>
    match after? Mark.ssid line with
    | some name => .ssid name
    | none =>
      match after? Mark.ip line with
      | some address => .ip address
      | none =>
        match after? Mark.rssi line with
        | some signal => ofSignal signal
        | none => .other

end StatusLine

namespace Status

def set (s : Status) : StatusLine → Status
  | .link connected => { s with connected }
  | .ssid name => { s with ssid := name }
  | .ip address => { s with ip := address }
  | .rssi dBm => { s with rssi := dBm }
  | .noNumber | .overlong | .other => s

/-- The status that the lines amount to, unless one of their numbers is too long. -/
def ofLines? (lines : List Text) : Option Status :=
  let said := lines.map StatusLine.ofText
  if said.contains .overlong then none else some (said.foldl set {})

/-- The signal lines without a number, as far as the lines are read. -/
def dropped (lines : List Text) : List Text :=
  (lines.takeWhile fun line => StatusLine.ofText line != .overlong).filter fun line =>
    StatusLine.ofText line == .noNumber

theorem ofLines?_isSome_iff (lines : List Text) :
    (ofLines? lines).isSome = true ↔ ∀ line ∈ lines, StatusLine.ofText line ≠ .overlong := by
  simp only [ofLines?]
  split <;> rename_i h
  · simp only [List.contains_eq_mem, List.mem_map, decide_eq_true_eq] at h
    obtain ⟨line, hl, ho⟩ := h
    simp only [Option.isSome_none, Bool.false_eq_true, false_iff]
    exact fun hn => hn line hl ho
  · simp only [List.contains_eq_mem, List.mem_map, decide_eq_true_eq, not_exists, not_and] at h
    simpa using h

end Status

end StationLink.Protocol
