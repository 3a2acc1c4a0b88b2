import StationLink.Proofs.Serial.Recorded

/-!
# Lines that chart their ports

A charted line does what its line does and keeps beside it how often a port was asked for, and what each
of the ports has been through. No call of the host looks at the chart.
-/

namespace StationLink.Serial

/-- What a port has been through. -/
structure Career where
  /-- The bytes that reads have brought, in order. -/
  read : Bytes := []
  closings : List (Except Fault Unit) := []

namespace Career

def hand (bytes : Bytes) (p : Career) : Career :=
  { p with read := p.read ++ bytes }

def closed (outcome : Except Fault Unit) (p : Career) : Career :=
  { p with closings := p.closings ++ [outcome] }

/-- A closing of the port has failed. -/
def Balked (p : Career) : Prop :=
  ∃ f, .error f ∈ p.closings

theorem balked_closed (f : Fault) (p : Career) : (p.closed (.error f)).Balked :=
  ⟨f, List.mem_append_right _ List.mem_cons_self⟩

theorem Balked.closed {p : Career} (h : p.Balked) (outcome : Except Fault Unit) :
    (p.closed outcome).Balked := by
  obtain ⟨f, hf⟩ := h
  exact ⟨f, List.mem_append_left _ hf⟩

theorem hand_hand (first second : Bytes) (p : Career) :
    (p.hand first).hand second = p.hand (first ++ second) := by
  rw [hand, hand, hand, List.append_assoc]

end Career

theorem forall_mem_modifyNewest {α : Type} {P : α → Prop} {f : α → α} {ps : List α}
    (hhead : ∀ p, ps.head? = some p → P (f p)) (htail : ∀ p ∈ ps.tail, P p) :
    ∀ p ∈ modifyNewest f ps, P p := by
  cases ps with
  | nil => exact htail
  | cons p ps => exact List.forall_mem_cons.mpr ⟨hhead p rfl, htail⟩

theorem forall_mem_of_modifyNewest {α : Type} {P : α → Prop} {f : α → α} {ps : List α}
    (h : ∀ p ∈ modifyNewest f ps, P p) (hP : ∀ p, P (f p) → P p) : ∀ p ∈ ps, P p := by
  cases ps with
  | nil => exact h
  | cons p ps =>
    obtain ⟨hhead, htail⟩ := List.forall_mem_cons.mp h
    exact List.forall_mem_cons.mpr ⟨hP p hhead, htail⟩

theorem modifyNewest_hand_nil (ps : List Career) : modifyNewest (.hand []) ps = ps := by
  cases ps with
  | nil => rfl
  | cons p ps => rw [modifyNewest, Career.hand, List.append_nil]

theorem modifyNewest_hand_hand (first second : Bytes) (ps : List Career) :
    modifyNewest (.hand second) (modifyNewest (.hand first) ps) = modifyNewest (.hand (first ++ second)) ps := by
  cases ps with
  | nil => rfl
  | cons p ps => rw [modifyNewest, modifyNewest, modifyNewest, Career.hand_hand]

structure Charted (σ : Type) where
  line : σ
  /-- How often a port was asked for. -/
  attempts : Nat := 0
  /-- Newest first. -/
  ports : List Career := []

namespace Charted

variable {σ τ α : Type}

/-- An operation of the line that leaves the chart alone. -/
def lift (f : σ → α × σ) (c : Charted σ) : α × Charted σ :=
  ((f c.line).1, { c with line := (f c.line).2 })

def modify (f : Career → Career) (c : Charted σ) : Charted σ :=
  { c with ports := modifyNewest f c.ports }

variable [SerialLine σ τ]

def openPort (settings : PortSettings τ) (c : Charted σ) : Except Fault Unit × Charted σ :=
  let (outcome, line) := SerialLine.openPort settings c.line
  let ports := if outcome.isOk then {} :: c.ports else c.ports
  (outcome, { line, attempts := c.attempts + 1, ports })

def readLine (c : Charted σ) : Except Fault Bytes × Charted σ :=
  let (outcome, line) := SerialLine.readLine c.line
  match outcome with
  | .error f => (.error f, { c with line })
  | .ok bytes => (.ok bytes, { c with line }.modify (.hand bytes))

def close (c : Charted σ) : Except Fault Unit × Charted σ :=
  let (outcome, line) := SerialLine.close c.line
  (outcome, { c with line }.modify (.closed outcome))

instance : SerialLine (Charted σ) τ where
  clock c := SerialLine.clock c.line
  setClock clock c := { c with line := SerialLine.setClock clock c.line }
  openPort := openPort
  isOpen c := SerialLine.isOpen c.line
  write bytes := lift (SerialLine.write bytes)
  flush := lift SerialLine.flush
  readLine := readLine
  close := close

theorem openPort_of_error {settings : PortSettings τ} {c : Charted σ} {f : Fault} {line : σ}
    (h : SerialLine.openPort settings c.line = (.error f, line)) :
    SerialLine.openPort settings c = (.error f, { c with line, attempts := c.attempts + 1 }) := by
  change openPort settings c = _
  rw [openPort, h]
  rfl

theorem openPort_of_ok {settings : PortSettings τ} {c : Charted σ} {line : σ}
    (h : SerialLine.openPort settings c.line = (.ok (), line)) :
    SerialLine.openPort settings c =
      (.ok (), { line, attempts := c.attempts + 1, ports := {} :: c.ports }) := by
  change openPort settings c = _
  rw [openPort, h]
  rfl

theorem readLine_of_error {c : Charted σ} {f : Fault} {line : σ}
    (h : SerialLine.readLine c.line = (.error f, line)) :
    SerialLine.readLine c = (.error f, { c with line }) := by
  change readLine c = _
  rw [readLine, h]

theorem readLine_of_ok {c : Charted σ} {bytes : Bytes} {line : σ}
    (h : SerialLine.readLine c.line = (.ok bytes, line)) :
    SerialLine.readLine c = (.ok bytes, { c with line }.modify (.hand bytes)) := by
  change readLine c = _
  rw [readLine, h]

end Charted

end StationLink.Serial

namespace StationLink.Host

open Serial

variable {σ τ : Type} [SerialLine σ τ]

/-- The same host, with an empty chart beside its line. -/
def charted (h : Host σ) : Host (Charted σ) :=
  h.shadow fun line => { line }

theorem sees_charted : Sees (τ := τ) (Charted.line (σ := σ)) where
  clock _ := rfl
  setClock _ _ := rfl
  openPort _ _ := rfl
  isOpen _ := rfl
  write _ _ := rfl
  flush _ := rfl
  readLine c := by
    rcases h : SerialLine.readLine c.line with ⟨f | bytes, line⟩
    · rw [Charted.readLine_of_error h]
    · rw [Charted.readLine_of_ok h]
      rfl
  close _ := rfl

end StationLink.Host
