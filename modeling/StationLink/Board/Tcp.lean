import StationLink.Board.State
import StationLink.Protocol.Mark

/-!
# Orders about TCP

A call ends the session at hand before it dials. A session is alive as long as a look at its inbox
finds neither the end of the stream nor a reset; one that is found dead is ended. Data that has come
in is forwarded as one line.
-/

namespace StationLink.Board

open Text Protocol

/-- Dials and takes the new socket for the session, if it can be switched to not blocking. -/
def dial (host : Text) (port : Int) (b : Board) : Board × Option Crash :=
  let failed (b : Board) : Board := b.printLine "ERROR:TCP connection failed".toList
  let place := b.dialer.sockets.length
  let (plan, dialer) := b.dialer.dial host port
  let b := { b with dialer }
  match plan with
  | .refuse => (failed b, none)
  | .fault => (b, some .dialFault)
  | .answer socket =>
    let b := { b with dialer := b.dialer.modify place Socket.unblock }
    if socket.failsUnblock then (failed b, none)
    else
      ({ b with session := some ⟨host, port, place⟩ }.printLine "OK:TCP connected".toList, none)

def tcpConnect (host : Text) (port : Int) (b : Board) : Board × Option Crash :=
  match Numeral.write? port with
  | none => (b, some .numeralTooLong)
  | some number =>
    let b := b.printLine ("TCP:Connecting to ".toList ++ host ++ ':' :: number)
    b.closeSession.dial host port

/-- The session, if it is found alive; a session found dead is ended. -/
def aliveSession (b : Board) : Option Session × Board :=
  match b.session with
  | none => (none, b)
  | some s =>
    let (found, inbox) := peek (b.inbox s)
    let b := b.setInbox s inbox
    match found with
    | .ended | .failed => (none, b.closeSession)
    | .data _ | .nothing => (some s, b)

/-- A send that fails ends the session, also when part of the data has gone out. -/
def tcpSend (data : Text) (b : Board) : Board :=
  let lost (b : Board) : Board := b.printLine "ERROR:Not connected".toList
  match b.aliveSession with
  | (none, b) => lost b
  | (some s, b) =>
    let fails := (b.dialer.sockets[s.socket]?.map Socket.failsSend).getD true
    let b := { b with dialer := b.dialer.modify s.socket (Socket.send (Utf8.encode data)) }
    if fails then lost b.closeSession else b.printLine "OK:Data sent".toList

def tcpClose (b : Board) : Board :=
  match b.aliveSession with
  | (none, b) => b.printLine "ERROR:No active TCP connection".toList
  | (some _, b) => b.closeSession.printLine "OK:TCP connection closed".toList

/-- Prints what the session has received, and ends the session if its stream is over. -/
def forward (b : Board) : Board :=
  match b.session with
  | none => b
  | some s =>
    let (bytes, ended, inbox) := drain (b.inbox s)
    let b := b.setInbox s inbox
    let b := if bytes = [] then b else b.printLine (Mark.tcpData ++ Utf8.decode bytes)
    if ended then b.closeSession else b

end StationLink.Board
