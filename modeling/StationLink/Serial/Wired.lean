import StationLink.Board.Run
import StationLink.Serial.Line

/-!
# Ports wired to the board

A wired port has the board at its far end. Opening it restarts the board, whose banner is then the
first thing read. A read takes one line: if none has come in the board has one turn, and if there is
still none the read waits for its timeout and returns what little there is.
-/

namespace StationLink.Serial

structure WiredPort (τ : Type) where
  timeout : Option τ
  /-- Printed by the board and not yet read. -/
  received : Bytes := []
  written : Bytes := []
  isOpen : Bool := true
  /-- Set while the port is unplugged: every write fails. -/
  failsWrite : Bool := false

structure WiredLine (τ : Type) where
  clock : Clock τ
  board : Board
  /-- Whether the clock runs on while the board rests. -/
  paced : Bool
  openings : Openings := {}
  /-- Newest first. -/
  ports : List (WiredPort τ) := []

/-- The first line with its line feed, and what follows it. -/
def firstLine? : Bytes → Option (Bytes × Bytes)
  | [] => none
  | b :: bs =>
    if b = 0x0A then some ([b], bs)
    else (firstLine? bs).map fun parts => (b :: parts.1, parts.2)

namespace WiredLine

variable {τ : Type} [TimeScale τ]

def modify (f : WiredPort τ → WiredPort τ) (l : WiredLine τ) : WiredLine τ :=
  { l with ports := modifyNewest f l.ports }

def sleep (d : τ) (l : WiredLine τ) : WiredLine τ :=
  { l with clock := l.clock.sleep d }

/-- Lets the rests of the board pass. -/
def passRests (l : WiredLine τ) : WiredLine τ :=
  let l' := { l with board := { l.board with rests := [] } }
  if l.paced then l.board.rests.foldl (fun l millis => l.sleep (TimeScale.ofMillis millis)) l'
  else l'

def openPort (settings : PortSettings τ) (l : WiredLine τ) : Except Fault Unit × WiredLine τ :=
  let l' := { l with openings := l.openings.next }
  match l.openings.fault? with
  | some f => (.error f, l')
  | none =>
    (.ok (), { l' with
      board := l.board.reset, ports := { timeout := settings.timeout } :: l.ports })

def isOpen (l : WiredLine τ) : Bool :=
  (l.ports.head?.map WiredPort.isOpen).getD false

def failsWrite (l : WiredLine τ) : Bool :=
  (l.ports.head?.map WiredPort.failsWrite).getD false

def received (l : WiredLine τ) : Bytes :=
  (l.ports.head?.map WiredPort.received).getD []

def timeout (l : WiredLine τ) : τ :=
  (l.ports.head?.bind WiredPort.timeout).getD TimeScale.zero

def write (bytes : Bytes) (l : WiredLine τ) : Except Fault Unit × WiredLine τ :=
  if !l.isOpen then (.error .notOpen, l)
  else if l.failsWrite then (.error .unplugged, l)
  else
    (.ok (), { l with board := l.board.feed bytes }.modify fun p =>
      { p with written := p.written ++ bytes })

/-- Moves what the board has printed to the port. -/
def collect (l : WiredLine τ) : WiredLine τ :=
  { l with board := { l.board with output := [] } }.modify fun p =>
    { p with received := p.received ++ l.board.output }

/-- Gives the board one turn. -/
def boardTurn (l : WiredLine τ) : Option Board.Crash × WiredLine τ :=
  let (board, crash) := l.board.turn
  (crash, { l with board }.passRests)

/-- Takes the first line; without one, waits and takes all there is. -/
def takeLine (l : WiredLine τ) : Bytes × WiredLine τ :=
  match firstLine? l.received with
  | some (line, received) => (line, l.modify ({ · with received }))
  | none => (l.received, (l.sleep l.timeout).modify ({ · with received := [] }))

def readLine (l : WiredLine τ) : Except Fault Bytes × WiredLine τ :=
  if !l.isOpen then (.error .notOpen, l)
  else
    let l := l.collect
    if (firstLine? l.received).isSome then
      let (bytes, l) := l.takeLine
      (.ok bytes, l)
    else
      match l.boardTurn with
      | (some crash, l) => (.error (.ofCrash crash), l)
      | (none, l) =>
        let (bytes, l) := l.collect.takeLine
        (.ok bytes, l)

def close (l : WiredLine τ) : Except Fault Unit × WiredLine τ :=
  (.ok (), l.modify ({ · with isOpen := false }))

/-- All that was ever written, in order. -/
def written (l : WiredLine τ) : Bytes :=
  l.ports.reverse.flatMap WiredPort.written

instance : SerialLine (WiredLine τ) τ where
  clock := WiredLine.clock
  setClock clock l := { l with clock }
  openPort := openPort
  isOpen := isOpen
  write := write
  flush l := (.ok (), l)
  readLine := readLine
  close := close

end WiredLine

end StationLink.Serial
