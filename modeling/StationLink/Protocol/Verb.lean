import StationLink.Text.Basic

/-!
# The verbs of the line protocol

Each verb has the word that opens its line, the window in which its answer is awaited (none for a verb
that is sent and forgotten), and the phrase that marks success.
-/

namespace StationLink.Protocol

inductive Verb where
  | connect
  | status
  | scan
  | disconnect
  | address
  | tcpConnect
  | tcpSend
  | tcpClose
deriving DecidableEq, Repr

namespace Verb

def word : Verb → Text
  | connect => "CONNECT".toList
  | status => "STATUS".toList
  | scan => "SCAN".toList
  | disconnect => "DISCONNECT".toList
  | address => "IP".toList
  | tcpConnect => "TCPCONNECT".toList
  | tcpSend => "TCPSEND".toList
  | tcpClose => "TCPCLOSE".toList

/-- The slow window, in milliseconds. -/
def slow : Nat := 5000

/-- The fast window, in milliseconds. -/
def fast : Nat := 1000

def window? : Verb → Option Nat
  | connect | scan | tcpConnect => some slow
  | status | address => some fast
  | disconnect | tcpSend | tcpClose => none

def success? : Verb → Option Text
  | connect => some "OK:Connected".toList
  | tcpConnect => some "OK:TCP connected".toList
  | _ => none

end Verb

end StationLink.Protocol
