import StationLink.Proofs.Serial.Wired
import StationLink.Serial.Scripted

/-!
# When ports are open

A port opens only when it is asked for, and is closed once a closing has succeeded; it may close by itself
at any time. Scripted ports and ports wired to the board are of this kind, whatever faults are set.
-/

namespace StationLink.Serial

variable {σ τ π : Type}

/-- No port has opened, but ports may have closed. Ports are counted from the newest. -/
def Fades (openAt : σ → Nat → Bool) (line line' : σ) : Prop :=
  ∀ i, openAt line' i = true → openAt line i = true

namespace Fades

variable {openAt : σ → Nat → Bool} {line line' line'' : σ}

theorem refl (line : σ) : Fades openAt line line := fun _ h => h

theorem trans (h : Fades openAt line line') (h' : Fades openAt line' line'') :
    Fades openAt line line'' := fun i hi => h i (h' i hi)

end Fades

/-- Only an opening that succeeds opens a port, which is the newest one then, and a closing that succeeds
closes the newest port. -/
structure LawfulPorts [SerialLine σ τ] (openAt : σ → Nat → Bool) : Prop where
  isOpen : ∀ line : σ, SerialLine.isOpen line = openAt line 0
  setClock : ∀ clock (line : σ), Fades openAt line (SerialLine.setClock clock line)
  refused : ∀ settings (line : σ) f, (SerialLine.openPort settings line).1 = .error f →
    Fades openAt line (SerialLine.openPort settings line).2
  opened : ∀ settings (line : σ), (SerialLine.openPort settings line).1 = .ok () →
    ∀ i, openAt (SerialLine.openPort settings line).2 (i + 1) = true → openAt line i = true
  write : ∀ bytes (line : σ), Fades openAt line (SerialLine.write bytes line).2
  flush : ∀ line : σ, Fades openAt line (SerialLine.flush line).2
  readLine : ∀ line : σ, Fades openAt line (SerialLine.readLine line).2
  close : ∀ line : σ, Fades openAt line (SerialLine.close line).2
  closed : ∀ line : σ, (SerialLine.close line).1 = .ok () → openAt (SerialLine.close line).2 0 = false

/-- The states of a line whose newest port closes without a fault, whatever is done with it before. -/
structure ClosesWell [SerialLine σ τ] (P : σ → Prop) : Prop where
  clock : ∀ clock line, P line → P (SerialLine.setClock clock line)
  openPort : ∀ settings line, P line → P (SerialLine.openPort settings line).2
  write : ∀ bytes line, P line → P (SerialLine.write bytes line).2
  flush : ∀ line, P line → P (SerialLine.flush line).2
  readLine : ∀ line, P line → P (SerialLine.readLine line).2
  closes : ∀ line, P line → (SerialLine.close line).1 = .ok ()

def openIn (isOpen : π → Bool) (ports : List π) (i : Nat) : Bool :=
  ports[i]?.any isOpen

theorem openIn_of_modifyNewest {isOpen : π → Bool} {ports : List π} {f : π → π} {i : Nat}
    (h : openIn isOpen (modifyNewest f ports) i = true)
    (hf : ∀ p, isOpen (f p) = true → isOpen p = true) : openIn isOpen ports i = true := by
  cases ports with
  | nil => exact h
  | cons p ps =>
    cases i with
    | zero => exact hf p h
    | succ i => exact h

theorem openIn_zero (isOpen : π → Bool) (ports : List π) :
    (ports.head?.map isOpen).getD false = openIn isOpen ports 0 := by
  cases ports <;> rfl

/-! ## Scripted ports -/

namespace ScriptedLine

def openAt (l : ScriptedLine τ) : Nat → Bool :=
  openIn ScriptedPort.isOpen l.ports

theorem fades_of_ports {l l' : ScriptedLine τ} (h : l'.ports = l.ports) : Fades openAt l l' := by
  intro i hi
  rw [openAt, h] at hi
  exact hi

theorem fades_modify (l : ScriptedLine τ) (f : ScriptedPort τ → ScriptedPort τ)
    (hf : ∀ p, (f p).isOpen = true → p.isOpen = true) : Fades openAt l (l.modify f) :=
  fun _ h => openIn_of_modifyNewest h hf

theorem openAt_close_of_ok (l : ScriptedLine τ) (h : l.close.1 = .ok ()) : l.close.2.openAt 0 = false := by
  obtain ⟨clock, openings, scripts, ports⟩ := l
  cases ports with
  | nil => rfl
  | cons p ps =>
    cases hfault : p.closeFault with
    | some f =>
      have hclose : orFault p.closeFault = .ok () := h
      rw [hfault] at hclose
      cases hclose
    | none =>
      change (p.isOpen && p.closeFault.isSome) = false
      rw [hfault, Option.isSome_none, Bool.and_false]

variable [TimeScale τ]

theorem fades_readItem (l : ScriptedLine τ) (item : ScriptItem τ) : Fades openAt l (l.readItem item).2 := by
  obtain ⟨wait, fault, hangUp, data⟩ := item
  cases fault with
  | some f => cases wait <;> exact fades_of_ports rfl
  | none =>
    cases hangUp with
    | false => cases wait <;> exact fades_of_ports rfl
    | true =>
      cases wait with
      | none => exact fades_modify l _ fun _ h => by cases h
      | some d => exact fades_modify (l.sleep d) _ fun _ h => by cases h

theorem fades_readLine (l : ScriptedLine τ) : Fades openAt l l.readLine.2 := by
  rw [readLine]
  split
  · exact .refl l
  · split
    · exact fades_of_ports rfl
    · refine .trans (fades_modify l _ ?_) (fades_readItem _ _)
      exact fun _ h => h

theorem lawfulPorts : LawfulPorts (openAt (τ := τ)) where
  isOpen l := openIn_zero ScriptedPort.isOpen l.ports
  setClock _ _ := fades_of_ports rfl
  refused settings l f hf := by
    change (l.openPort settings).1 = _ at hf
    change Fades openAt l (l.openPort settings).2
    cases hfault : l.openings.fault? with
    | some f =>
      rw [openPort, hfault]
      exact fades_of_ports rfl
    | none =>
      rw [openPort, hfault] at hf
      cases hf
  opened settings l hok i h := by
    change (l.openPort settings).1 = _ at hok
    change (l.openPort settings).2.openAt (i + 1) = true at h
    cases hfault : l.openings.fault? with
    | some f =>
      rw [openPort, hfault] at hok
      cases hok
    | none =>
      rw [openPort, hfault] at h
      exact h
  write bytes l := by
    change Fades openAt l (l.write bytes).2
    rw [write]
    split
    · exact .refl l
    · exact fades_modify l _ fun _ h => h
  flush l := .refl l
  readLine := fades_readLine
  close l := fades_modify l _ fun _ h => (Bool.and_eq_true_iff.mp h).1
  closed := openAt_close_of_ok

def closeFault? (l : ScriptedLine τ) : Option Fault :=
  l.ports.head?.bind ScriptedPort.closeFault

omit [TimeScale τ] in
theorem closeFault?_modify (l : ScriptedLine τ) (f : ScriptedPort τ → ScriptedPort τ)
    (hf : ∀ p, (f p).closeFault = p.closeFault) (h : l.closeFault? = none) : (l.modify f).closeFault? = none := by
  rw [closeFault?, modify, head?_modifyNewest]
  rw [closeFault?] at h
  cases hports : l.ports.head? with
  | none => rfl
  | some p =>
    rw [hports] at h
    exact (hf p).trans h

theorem closeFault?_readItem (l : ScriptedLine τ) (item : ScriptItem τ) (h : l.closeFault? = none) :
    (l.readItem item).2.closeFault? = none := by
  obtain ⟨wait, fault, hangUp, data⟩ := item
  cases fault with
  | some f => cases wait <;> exact h
  | none =>
    cases hangUp with
    | false => cases wait <;> exact h
    | true =>
      cases wait with
      | none => exact closeFault?_modify l _ (fun _ => rfl) h
      | some d => exact closeFault?_modify (l.sleep d) _ (fun _ => rfl) h

theorem closesWell : ClosesWell fun l : ScriptedLine τ => l.closeFault? = none where
  clock _ _ h := h
  openPort settings l h := by
    change (l.openPort settings).2.closeFault? = none
    rw [openPort]
    cases l.openings.fault? with
    | some f => exact h
    | none => rfl
  write bytes l h := by
    change (l.write bytes).2.closeFault? = none
    rw [write]
    split
    · exact h
    · exact closeFault?_modify l _ (fun _ => rfl) h
  flush _ h := h
  readLine l h := by
    change l.readLine.2.closeFault? = none
    rw [readLine]
    split
    · exact h
    · split
      · exact h
      · exact closeFault?_readItem _ _ (closeFault?_modify l _ (fun _ => rfl) h)
  closes l h := by
    change orFault l.closeFault? = .ok ()
    rw [h]
    rfl

end ScriptedLine

/-! ## Ports wired to the board -/

namespace WiredLine

def openAt (l : WiredLine τ) : Nat → Bool :=
  openIn WiredPort.isOpen l.ports

theorem fades_of_ports {l l' : WiredLine τ} (h : l'.ports = l.ports) : Fades openAt l l' := by
  intro i hi
  rw [openAt, h] at hi
  exact hi

theorem fades_modify (l : WiredLine τ) (f : WiredPort τ → WiredPort τ)
    (hf : ∀ p, (f p).isOpen = true → p.isOpen = true) : Fades openAt l (l.modify f) :=
  fun _ h => openIn_of_modifyNewest h hf

theorem fades_write (bytes : Bytes) (l : WiredLine τ) : Fades openAt l (l.write bytes).2 := by
  rw [write]
  split
  · exact .refl l
  · split
    · exact .refl l
    · exact fades_modify { l with board := l.board.feed bytes } _ fun _ h => h

theorem fades_collect (l : WiredLine τ) : Fades openAt l l.collect :=
  fades_modify { l with board := { l.board with output := [] } } _ fun _ h => h

variable [TimeScale τ]

theorem fades_takeLine (l : WiredLine τ) : Fades openAt l l.takeLine.2 := by
  rw [takeLine]
  split
  · exact fades_modify l _ fun _ h => h
  · exact fades_modify (l.sleep l.timeout) _ fun _ h => h

theorem fades_boardTurn (l : WiredLine τ) : Fades openAt l l.boardTurn.2 := by
  rcases hturn : l.board.turn with ⟨board, crash⟩
  obtain ⟨clock, heq⟩ := l.boardTurn_eq board crash hturn
  rw [heq]
  exact fades_of_ports rfl

theorem fades_readLine (l : WiredLine τ) : Fades openAt l l.readLine.2 := by
  have hturn := (fades_collect l).trans (fades_boardTurn l.collect)
  simp only [readLine]
  split
  · exact .refl l
  · split
    · exact (fades_collect l).trans (fades_takeLine l.collect)
    · rcases hturned : l.collect.boardTurn with ⟨_ | crash, l'⟩
      · rw [hturned] at hturn
        exact hturn.trans ((fades_collect l').trans (fades_takeLine l'.collect))
      · rw [hturned] at hturn
        exact hturn

theorem lawfulPorts : LawfulPorts (openAt (τ := τ)) where
  isOpen l := openIn_zero WiredPort.isOpen l.ports
  setClock _ _ := fades_of_ports rfl
  refused settings l f hf := by
    change (l.openPort settings).1 = _ at hf
    change Fades openAt l (l.openPort settings).2
    cases hfault : l.openings.fault? with
    | some f =>
      rw [l.openPort_of_fault settings f hfault]
      exact fades_of_ports rfl
    | none =>
      rw [l.openPort_of_none settings hfault] at hf
      cases hf
  opened settings l hok i h := by
    change (l.openPort settings).1 = _ at hok
    change (l.openPort settings).2.openAt (i + 1) = true at h
    cases hfault : l.openings.fault? with
    | some f =>
      rw [l.openPort_of_fault settings f hfault] at hok
      cases hok
    | none =>
      rw [l.openPort_of_none settings hfault] at h
      exact h
  write := fades_write
  flush l := .refl l
  readLine := fades_readLine
  close l := fades_modify l _ fun _ h => by cases h
  closed l _ := by
    obtain ⟨clock, board, paced, openings, ports⟩ := l
    cases ports <;> rfl

theorem closesWell : ClosesWell fun _ : WiredLine τ => True where
  clock _ _ _ := trivial
  openPort _ _ _ := trivial
  write _ _ _ := trivial
  flush _ _ := trivial
  readLine _ _ := trivial
  closes _ _ := rfl

end WiredLine

end StationLink.Serial
