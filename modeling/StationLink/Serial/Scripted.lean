import StationLink.Serial.Line

/-!
# Scripted ports

A scripted port answers each read with the next item of its script, whole, whatever line feeds the
item holds; without an item it waits for its timeout. Writes, flushes and closes fail as long as a
fault is set for them.
-/

namespace StationLink.Serial

/-- What one read comes to: a wait, then a fault; or else perhaps a hang-up, and the data. -/
structure ScriptItem (τ : Type) where
  wait : Option τ := none
  fault : Option Fault := none
  hangUp : Bool := false
  data : Bytes := []

structure ScriptedPort (τ : Type) where
  settings : PortSettings τ
  script : List (ScriptItem τ)
  written : Bytes := []
  isOpen : Bool := true
  writeFault : Option Fault := none
  flushFault : Option Fault := none
  closeFault : Option Fault := none
  closeCalls : Nat := 0

structure ScriptedLine (τ : Type) where
  clock : Clock τ
  openings : Openings := {}
  /-- The scripts of the ports in the order of their opening. -/
  scripts : List (List (ScriptItem τ)) := []
  /-- Newest first. -/
  ports : List (ScriptedPort τ) := []

/-- Fails with the fault, if there is one. -/
def orFault (fault : Option Fault) : Except Fault Unit :=
  match fault with
  | some f => .error f
  | none => .ok ()

namespace ScriptedLine

variable {τ : Type} [TimeScale τ]

def modify (f : ScriptedPort τ → ScriptedPort τ) (l : ScriptedLine τ) : ScriptedLine τ :=
  { l with ports := modifyNewest f l.ports }

def sleep (d : τ) (l : ScriptedLine τ) : ScriptedLine τ :=
  { l with clock := l.clock.sleep d }

def openPort (settings : PortSettings τ) (l : ScriptedLine τ) :
    Except Fault Unit × ScriptedLine τ :=
  let l' := { l with openings := l.openings.next }
  match l.openings.fault? with
  | some f => (.error f, l')
  | none =>
    let script := l.scripts[l.ports.length]?.getD []
    (.ok (), { l' with ports := { settings, script } :: l.ports })

def isOpen (l : ScriptedLine τ) : Bool :=
  (l.ports.head?.map ScriptedPort.isOpen).getD false

def write (bytes : Bytes) (l : ScriptedLine τ) : Except Fault Unit × ScriptedLine τ :=
  match l.ports.head?.bind ScriptedPort.writeFault with
  | some f => (.error f, l)
  | none => (.ok (), l.modify fun p => { p with written := p.written ++ bytes })

def flush (l : ScriptedLine τ) : Except Fault Unit × ScriptedLine τ :=
  (orFault (l.ports.head?.bind ScriptedPort.flushFault), l)

def readItem (item : ScriptItem τ) (l : ScriptedLine τ) :
    Except Fault Bytes × ScriptedLine τ :=
  let l := match item.wait with
    | some d => l.sleep d
    | none => l
  match item.fault with
  | some f => (.error f, l)
  | none => (.ok item.data, if item.hangUp then l.modify ({ · with isOpen := false }) else l)

def readLine (l : ScriptedLine τ) : Except Fault Bytes × ScriptedLine τ :=
  match l.ports with
  | [] => (.error .notOpen, l)
  | p :: _ =>
    match p.script with
    | [] => (.ok [], l.sleep (p.settings.timeout.getD TimeScale.zero))
    | item :: script => readItem item (l.modify ({ · with script }))

def close (l : ScriptedLine τ) : Except Fault Unit × ScriptedLine τ :=
  let fault := l.ports.head?.bind ScriptedPort.closeFault
  (orFault fault, l.modify fun p =>
    { p with closeCalls := p.closeCalls + 1, isOpen := p.isOpen && fault.isSome })

/-- Adds items to the script of the newest port. -/
def push (items : List (ScriptItem τ)) (l : ScriptedLine τ) : ScriptedLine τ :=
  l.modify fun p => { p with script := p.script ++ items }

/-- The newest port closes by itself. -/
def hangUp (l : ScriptedLine τ) : ScriptedLine τ :=
  l.modify ({ · with isOpen := false })

/-- All that was ever written, in order. -/
def written (l : ScriptedLine τ) : Bytes :=
  l.ports.reverse.flatMap ScriptedPort.written

instance : SerialLine (ScriptedLine τ) τ where
  clock := ScriptedLine.clock
  setClock clock l := { l with clock }
  openPort := openPort
  isOpen := isOpen
  write := write
  flush := flush
  readLine := readLine
  close := close

end ScriptedLine

end StationLink.Serial
