import StationLink.Host.Journal
import StationLink.Host.Settings

/-!
# The host

A host holds at most one port, the newest of its line. It keeps the bytes of a line that is not yet
complete, the inbound data not yet taken, and its journal. Its calls are computations that may fail
and that leave the host as they found it up to the failure.
-/

namespace StationLink

structure Host (σ : Type) where
  line : σ
  /-- Whether the newest port is the host's. -/
  held : Bool := false
  pending : Bytes := []
  inbox : List Text := []
  /-- How often the watch has joined the network again. -/
  rejoined : Nat := 0
  /-- The rests that the watch has had. -/
  rests : Nat := 0
  /-- Latest first. -/
  journal : List Host.Event := []

namespace Host

open Serial

/-- What a link is made of: its settings, and how many reads one window may make. -/
structure Link (τ : Type) where
  settings : Settings τ
  patience : Nat

/-- A computation of the host. -/
abbrev Call (σ α : Type) : Type := EStateM Failure (Host σ) α

variable {σ τ α β : Type} [SerialLine σ τ] [TimeScale τ]

def isOpen (h : Host σ) : Bool :=
  h.held && SerialLine.isOpen h.line

namespace Call

def note (e : Event) : Call σ Unit :=
  modify fun h => { h with journal := e :: h.journal }

/-- Makes a call of the line, and hands over its outcome. -/
def attempt (f : σ → Except Fault α × σ) : Call σ (Except Fault α) :=
  modifyGet fun h => ((f h.line).1, { h with line := (f h.line).2 })

def pause (d : τ) : Call σ Unit :=
  modify fun h =>
    { h with line := SerialLine.setClock ((SerialLine.clock h.line).sleep d) h.line }

def now : Call σ τ :=
  modifyGet fun h =>
    let (t, clock) := (SerialLine.clock h.line).read
    (t, { h with line := SerialLine.setClock clock h.line })

/-- Turns a link failure into a value; any other failure passes through. -/
def orLinkFailure (c : Call σ α) : Call σ (Except Failure α) := fun h =>
  match c h with
  | .ok a h => .ok (.ok a) h
  | .error f h => if f.isLink then .ok (.error f) h else .error f h

theorem note_apply (e : Event) (h : Host σ) :
    note e h = .ok () { h with journal := e :: h.journal } := rfl

theorem attempt_apply (f : σ → Except Fault α × σ) (h : Host σ) :
    attempt f h = .ok (f h.line).1 { h with line := (f h.line).2 } := rfl

theorem attempt_of_eq {f : σ → Except Fault α × σ} {h : Host σ} {outcome : Except Fault α} {line : σ}
    (hf : f h.line = (outcome, line)) : attempt f h = .ok outcome { h with line } := by
  rw [attempt_apply, hf]

theorem bind_of_ok {c : Call σ α} {k : α → Call σ β} {h h' : Host σ} {a : α} (hc : c h = .ok a h') :
    (c >>= k) h = k a h' := by
  change EStateM.bind c k h = _
  rw [EStateM.bind, hc]

theorem bind_of_error {c : Call σ α} {k : α → Call σ β} {h h' : Host σ} {f : Failure}
    (hc : c h = .error f h') : (c >>= k) h = .error f h' := by
  change EStateM.bind c k h = _
  rw [EStateM.bind, hc]

end Call

end Host

end StationLink
