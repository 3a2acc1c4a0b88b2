import StationLink.Board.Order
import StationLink.Board.Radio
import StationLink.Board.Socket

/-!
# The board

The board owns the radio and at most one TCP session, takes orders from its serial input and prints
its answers to its serial output. It also notes how long it has rested, so that whoever runs it can
let that time pass.
-/

namespace StationLink.Board

inductive Wifi where
  | idle
  | connecting
  | connected
deriving DecidableEq, Repr

structure Session where
  host : Text
  port : Int
  /-- The place of its socket among those the dialer has made. -/
  socket : Nat
deriving DecidableEq, Repr

/-- What stops the board in the middle of an order. -/
inductive Crash where
  | numeralTooLong
  | dialFault
deriving DecidableEq, Repr

end StationLink.Board

namespace StationLink

structure Board where
  radio : Board.Radio
  dialer : Board.Dialer
  input : Bytes := []
  output : Bytes := []
  wifi : Board.Wifi := .idle
  session : Option Board.Session := none
  /-- Rests since they were last let pass, in milliseconds. -/
  rests : List Nat := []
deriving DecidableEq, Repr

namespace Board

open Text

def banner : List Text :=
  ["READY".toList, "ESP32 WiFi Bridge v1.0".toList, "Waiting for commands...".toList]

def print (text : Text) (b : Board) : Board :=
  { b with output := b.output ++ Utf8.encode text }

def printLine (text : Text) (b : Board) : Board :=
  b.print (text ++ ['\n'])

def rest (millis : Nat) (b : Board) : Board :=
  { b with rests := b.rests ++ [millis] }

def feed (bytes : Bytes) (b : Board) : Board :=
  { b with input := b.input ++ bytes }

/-- Ends the session and closes its socket, whether that fails or not. -/
def closeSession (b : Board) : Board :=
  match b.session with
  | none => b
  | some s => { b with dialer := b.dialer.modify s.socket Socket.close, session := none }

/-- Starts afresh: nothing read or printed but the banner, no session and no network. -/
def reset (b : Board) : Board :=
  let b := b.closeSession
  let b := { b with radio := b.radio.leave, wifi := .idle, input := [], output := [] }
  banner.foldl (fun b line => b.printLine line) b

def boot (networks : List Network) (plans : List Plan) : Board :=
  reset { radio := { networks }, dialer := { plans } }

/-- The inbox of the session's socket; empty if there is no such socket. -/
def inbox (b : Board) (s : Session) : List PeerEvent :=
  (b.dialer.sockets[s.socket]?.map Socket.inbox).getD []

def setInbox (s : Session) (inbox : List PeerEvent) (b : Board) : Board :=
  { b with dialer := b.dialer.modify s.socket fun socket => { socket with inbox } }

@[simp]
theorem session_closeSession (b : Board) : b.closeSession.session = none := by
  simp only [closeSession]
  split <;> simp_all

end Board

end StationLink
