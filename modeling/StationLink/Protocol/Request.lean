import StationLink.Protocol.Verb
import StationLink.Text.Numeral

/-!
# Requests and their lines

A request is written as its word and its fields, a colon before each field. Fields are not escaped:
a colon inside a field stays as it is. A line does not exist if one of its numbers is too long.
-/

namespace StationLink.Protocol

inductive Field where
  | text (t : Text)
  | number (n : Int)
deriving DecidableEq, Repr

def Field.write? : Field → Option Text
  | .text t => some t
  | .number n => Text.Numeral.write? n

/-- The line of a word with fields. -/
def line? (word : Text) (fields : List Field) : Option Text :=
  (fields.mapM Field.write?).map fun parts => word ++ parts.flatMap (':' :: ·)

inductive Request where
  | connect (ssid password : Text)
  | status
  | scan
  | disconnect
  | address
  | tcpConnect (host : Text) (port : Int)
  | tcpSend (data : Text)
  | tcpClose
deriving DecidableEq, Repr

namespace Request

def verb : Request → Verb
  | connect _ _ => .connect
  | status => .status
  | scan => .scan
  | disconnect => .disconnect
  | address => .address
  | tcpConnect _ _ => .tcpConnect
  | tcpSend _ => .tcpSend
  | tcpClose => .tcpClose

def fields : Request → List Field
  | connect ssid password => [.text ssid, .text password]
  | tcpConnect host port => [.text host, .number port]
  | tcpSend data => [.text data]
  | _ => []

def line? (r : Request) : Option Text :=
  Protocol.line? r.verb.word r.fields

end Request

end StationLink.Protocol
