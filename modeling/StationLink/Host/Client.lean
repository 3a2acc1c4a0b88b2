import StationLink.Host.Channel
import StationLink.Protocol.Inbound
import StationLink.Protocol.Request
import StationLink.Protocol.Survey
import StationLink.Protocol.Verdict

/-!
# Calls of the bridge

Each call sends one request and, where the request has a window, reads its lines and makes a typed
answer of them. Inbound data that turns up in any window is kept until it is taken.
-/

namespace StationLink.Host.Client

open Serial Protocol

variable {σ τ : Type} [SerialLine σ τ] [TimeScale τ]

/-- Opens the link. -/
def start (k : Link τ) : Call σ Unit := do
  Channel.open k
  Call.note (.linkReady k.settings.port)

def sendLine (k : Link τ) (text : Text) : Call σ Unit :=
  Channel.writeLine k text

def readLines (k : Link τ) (duration : τ) : Call σ (List Text) := do
  let lines ← Channel.readLines k duration
  modify fun h => { h with inbox := h.inbox ++ payloads lines }
  return lines

/-- Sends a request and returns the lines of its window. -/
def query (k : Link τ) (r : Request) : Call σ (List Text) := do
  match r.line? with
  | none => throw .invalidNumber
  | some line =>
    sendLine k line
    match r.verb.window? with
    | none => return []
    | some millis => readLines k (TimeScale.ofMillis millis)

def fail (f : Failure) : Call σ Unit := do
  Call.note (.failed f)
  throw f

/-- Sends a request and fails unless its window has the verdict of success. -/
def perform (k : Link τ) (action : Action) (r : Request) : Call σ Unit := do
  let lines ← query k r
  match Verdict.ofLines (r.verb.success?.getD []) lines with
  | .ok _ => return
  | .error line => fail (.refused action line)
  | .timeout => fail (.timedOut action)

def connect (k : Link τ) (ssid password : Text) : Call σ Unit := do
  perform k .connection (.connect ssid password)
  Call.note (.joined ssid)

def disconnect (k : Link τ) : Call σ Unit := do
  discard (query k .disconnect)

def status (k : Link τ) : Call σ Status := do
  let lines ← query k .status
  (Status.dropped lines).forM fun line => Call.note (.signalDropped line)
  match Status.ofLines? lines with
  | some s => return s
  | none => throw .invalidNumber

def survey (k : Link τ) : Call σ (List Sighting) := do
  let lines ← query k .scan
  match survey? lines with
  | some sightings => return sightings
  | none => throw .invalidNumber

def address (k : Link τ) : Call σ Text := do
  let lines ← query k .address
  match address? lines with
  | some ip => return ip
  | none => throw .noAddress

def tcpConnect (k : Link τ) (host : Text) (port : Int) : Call σ Unit :=
  perform k .tcpConnection (.tcpConnect host port)

/-- Calls a port that is given as a numeral. -/
def tcpConnectTo (k : Link τ) (host port : Text) : Call σ Unit :=
  match Text.Numeral.strict? port with
  | some n => tcpConnect k host n
  | none => throw .invalidNumber

def tcpSend (k : Link τ) (data : Text) : Call σ Unit := do
  discard (query k (.tcpSend data))

def tcpClose (k : Link τ) : Call σ Unit := do
  discard (query k .tcpClose)

/-- Takes the inbound data, after a window if the duration is positive and the port open. -/
def takeInbound (k : Link τ) (duration : τ) : Call σ (List Text) := do
  if TimeScale.before TimeScale.zero duration && (← get).isOpen then
    discard (readLines k duration)
  modifyGet fun h => (h.inbox, { h with inbox := [] })

end StationLink.Host.Client
