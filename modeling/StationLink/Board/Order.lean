import StationLink.Protocol.Verb
import StationLink.Text.Blank
import StationLink.Text.Field
import StationLink.Text.Numeral
import StationLink.Text.Utf8

/-!
# Orders

The board frames its input by line feeds and carriage returns, and reads each line that is not empty
as an order. The password of a join runs from the second colon to the end of the line; the port of
a call stands behind the last colon, and is zero if no number stands there.
-/

namespace StationLink.Board

open Text Protocol

def isLineEnd (b : UInt8) : Bool :=
  b = 0x0A || b = 0x0D

/-- The lines that are complete, without their ends and without empty ones, and the open rest. -/
def frame (input : Bytes) : List Bytes × Bytes :=
  let runs := input.splitOnP isLineEnd
  (runs.dropLast.filter (· ≠ []), runs.getLast?.getD [])

inductive Order where
  | connect (ssid password : Text)
  | connectWithoutPassword
  | status
  | scan
  | disconnect
  | tcpConnect (host : Text) (port : Int)
  | tcpConnectWithoutHost
  | tcpSend (data : Text)
  | tcpClose
  | address
  | unknown (line : Text)
deriving DecidableEq, Repr

namespace Order

def ofConnect (fields : Text) : Order :=
  match cutFirst? ':' fields with
  | some (ssid, password) => .connect ssid password
  | none => .connectWithoutPassword

def ofTcpConnect (fields : Text) : Order :=
  match cutLast? ':' fields with
  | some (host, port) =>
    if host = [] then .tcpConnectWithoutHost else .tcpConnect host (Numeral.lenient port)
  | none => .tcpConnectWithoutHost

def ofText (text : Text) : Order :=
  let line := trim text
  match after? (Verb.connect.word ++ [':']) line with
  | some fields => ofConnect fields
  | none =>
    if line = Verb.status.word then .status
    else if line = Verb.scan.word then .scan
    else if line = Verb.disconnect.word then .disconnect
    else
      match after? (Verb.tcpConnect.word ++ [':']) line with
      | some fields => ofTcpConnect fields
      | none =>
        match after? (Verb.tcpSend.word ++ [':']) line with
        | some data => .tcpSend data
        | none =>
          if line = Verb.tcpClose.word then .tcpClose
          else if line = Verb.address.word then .address
          else .unknown line

def ofBytes (line : Bytes) : Order :=
  ofText (Utf8.decode line)

end Order

end StationLink.Board
