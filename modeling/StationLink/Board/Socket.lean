import StationLink.Text.Basic

/-!
# Sockets and the dialer

A socket holds what its remote peer has sent and not yet been read: chunks of data, and the events
that a read may meet instead. A dialer hands out sockets by a list of plans, one for each call, and
keeps every call and every socket it has made.
-/

namespace StationLink.Board

/-- What a read from a socket may find at the head of its inbox; a chunk of data is not empty. -/
inductive PeerEvent where
  | data (first : UInt8) (rest : Bytes)
  | eof
  | reset
  | interrupt
  | block
deriving DecidableEq, Repr

namespace PeerEvent

/-- The event of a chunk; an empty chunk is none. -/
def chunk? : Bytes → Option PeerEvent
  | [] => none
  | b :: bs => some (.data b bs)

def bytes : PeerEvent → Bytes
  | .data b bs => b :: bs
  | _ => []

end PeerEvent

inductive Received where
  | data (bytes : Bytes)
  | ended
  | nothing
  | failed
deriving DecidableEq, Repr

/-- Reads at most `size` bytes. The end of the stream stays; any other event is met once. -/
def receive (size : Nat) : List PeerEvent → Received × List PeerEvent
  | [] => (.nothing, [])
  | .data b bs :: inbox =>
    (.data ((b :: bs).take size), (PeerEvent.chunk? ((b :: bs).drop size)).toList ++ inbox)
  | .eof :: inbox => (.ended, .eof :: inbox)
  | .reset :: inbox => (.failed, inbox)
  | .interrupt :: inbox | .block :: inbox => (.nothing, inbox)

/-- Looks at the head of an inbox without taking data. -/
def peek : List PeerEvent → Received × List PeerEvent
  | .data b bs :: inbox => (.data [b], .data b bs :: inbox)
  | inbox => receive 1 inbox

/-- What is still to be read, in bytes and events. -/
def weight : List PeerEvent → Nat
  | [] => 0
  | e :: inbox => e.bytes.length + 1 + weight inbox

theorem weight_chunk_le (bytes : Bytes) (inbox : List PeerEvent) :
    weight ((PeerEvent.chunk? bytes).toList ++ inbox) ≤ bytes.length + 1 + weight inbox := by
  cases bytes <;> simp [PeerEvent.chunk?, weight, PeerEvent.bytes]

theorem weight_receive_lt (size : Nat) (inbox rest : List PeerEvent) (bytes : Bytes)
    (h : receive (size + 1) inbox = (.data bytes, rest)) : weight rest < weight inbox := by
  match inbox, h with
  | .data b bs :: inbox, h =>
    simp only [receive, Prod.mk.injEq] at h
    rw [← h.2]
    refine Nat.lt_of_le_of_lt (weight_chunk_le _ _) ?_
    simp only [List.drop_succ_cons, List.length_drop, weight, PeerEvent.bytes, List.length_cons]
    omega

def readSize : Nat := 4096

/-- All that can be read now, whether the stream is over, and what stays. -/
def drain (inbox : List PeerEvent) : Bytes × Bool × List PeerEvent :=
  match _h : receive readSize inbox with
  | (.nothing, rest) => ([], false, rest)
  | (.ended, rest) | (.failed, rest) => ([], true, rest)
  | (.data bytes, rest) =>
    let (more, ended, rest) := drain rest
    (bytes ++ more, ended, rest)
termination_by weight inbox
decreasing_by exact weight_receive_lt 4095 inbox _ _ _h

structure Socket where
  inbox : List PeerEvent := []
  sent : Bytes := []
  blocking : Bool := true
  closed : Bool := false
  closeCalls : Nat := 0
  /-- Which calls of this socket fail. -/
  failsUnblock : Bool := false
  failsSend : Bool := false
  failsClose : Bool := false
  /-- How many bytes a send that fails gets through before it does. -/
  partialSend : Nat := 0
deriving DecidableEq, Repr

namespace Socket

/-- Each call of close is counted, also one that fails. -/
def close (s : Socket) : Socket :=
  { s with closeCalls := s.closeCalls + 1, closed := s.closed || !s.failsClose }

def unblock (s : Socket) : Socket :=
  if s.failsUnblock then s else { s with blocking := false }

/-- What goes out of the data: all of it, or what a send that fails gets through, never the last byte. -/
def delivered (data : Bytes) (s : Socket) : Bytes :=
  if s.failsSend then data.dropLast.take s.partialSend else data

def send (data : Bytes) (s : Socket) : Socket :=
  { s with sent := s.sent ++ s.delivered data }

def deliver (events : List PeerEvent) (s : Socket) : Socket :=
  { s with inbox := s.inbox ++ events }

end Socket

inductive Plan where
  | refuse
  | fault
  | answer (socket : Socket)
deriving DecidableEq, Repr

structure Dialer where
  plans : List Plan
  calls : List (Text × Int) := []
  sockets : List Socket := []
deriving DecidableEq, Repr

namespace Dialer

/-- The plan of the next call; beyond the list every call is answered. -/
def nextPlan (d : Dialer) : Plan :=
  d.plans.head?.getD (.answer {})

/-- Calls a host; an answered call makes a new socket, which is the last of the list. -/
def dial (d : Dialer) (host : Text) (port : Int) : Plan × Dialer :=
  let d' := { d with plans := d.plans.tail, calls := d.calls ++ [(host, port)] }
  match d.nextPlan with
  | .answer s => (.answer s, { d' with sockets := d.sockets ++ [s] })
  | plan => (plan, d')

def modify (d : Dialer) (i : Nat) (f : Socket → Socket) : Dialer :=
  { d with sockets := d.sockets.modify i f }

end Dialer

end StationLink.Board
