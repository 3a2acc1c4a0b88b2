import StationLink.Proofs.Serial.Paired
import StationLink.Serial.Scripted

/-!
# What was written to a scripted port

A scripted port keeps what is written to it, and no operation shows it. So lines that differ in this alone
are told apart by no operation.
-/

namespace StationLink.Serial

variable {τ α : Type}

def ScriptedPort.unwritten (p : ScriptedPort τ) : ScriptedPort τ :=
  { p with written := [] }

namespace ScriptedLine

def unwritten (l : ScriptedLine τ) : ScriptedLine τ :=
  { l with ports := l.ports.map ScriptedPort.unwritten }

/-- The lines differ at most in what was written. -/
def SameButWritten (l m : ScriptedLine τ) : Prop :=
  l.unwritten = m.unwritten

theorem unwritten_unwritten (l : ScriptedLine τ) : l.unwritten.unwritten = l.unwritten := by
  simp only [unwritten, List.map_map]
  rfl

/-- An operation does the same to a line of which it is not known what was written. -/
def Overlooks (f : ScriptedLine τ → α × ScriptedLine τ) : Prop :=
  ∀ l, (f l.unwritten).1 = (f l).1 ∧ (f l.unwritten).2.unwritten = (f l).2.unwritten

theorem Overlooks.same {f : ScriptedLine τ → α × ScriptedLine τ} (hf : Overlooks f) {l m : ScriptedLine τ}
    (hsame : SameButWritten l m) : (f l).1 = (f m).1 ∧ SameButWritten (f l).2 (f m).2 := by
  obtain ⟨houtcome, hline⟩ := hf l
  rw [SameButWritten] at hsame ⊢
  rw [hsame] at houtcome hline
  exact ⟨houtcome.symm.trans (hf m).1, hline.symm.trans (hf m).2⟩

theorem unwritten_modify (f : ScriptedPort τ → ScriptedPort τ)
    (hf : ∀ p, (f p.unwritten).unwritten = (f p).unwritten) (l : ScriptedLine τ) :
    (l.unwritten.modify f).unwritten = (l.modify f).unwritten := by
  obtain ⟨clock, openings, scripts, _ | ⟨p, ports⟩⟩ := l
  · rfl
  · simp only [unwritten, modify, List.map_cons, modifyNewest, hf, List.map_map]
    rfl

theorem SameButWritten.modify {f : ScriptedPort τ → ScriptedPort τ}
    (hf : ∀ p, (f p.unwritten).unwritten = (f p).unwritten) {l m : ScriptedLine τ} (hsame : SameButWritten l m) :
    SameButWritten (l.modify f) (m.modify f) := by
  rw [SameButWritten] at hsame ⊢
  rw [← unwritten_modify f hf l, hsame, unwritten_modify f hf m]

theorem overlooks_write (bytes : Bytes) : Overlooks (τ := τ) (write bytes) := by
  intro l
  obtain ⟨clock, openings, scripts, _ | ⟨p, ports⟩⟩ := l
  · exact ⟨rfl, rfl⟩
  · cases hfault : p.writeFault <;>
      simp [write, unwritten, ScriptedPort.unwritten, hfault, modify, modifyNewest]

theorem overlooks_openPort (settings : PortSettings τ) : Overlooks (openPort settings) := by
  intro l
  cases hfault : l.openings.fault? <;> simp [openPort, unwritten, ScriptedPort.unwritten, hfault]

theorem overlooks_close : Overlooks (close (τ := τ)) := by
  intro l
  obtain ⟨clock, openings, scripts, _ | ⟨p, ports⟩⟩ := l
  · exact ⟨rfl, rfl⟩
  · exact ⟨rfl, unwritten_modify _ (fun _ => rfl) _⟩

variable [TimeScale τ]

theorem overlooks_readItem (item : ScriptItem τ) : Overlooks (readItem item) := by
  intro l
  obtain ⟨wait, fault, hangUp, data⟩ := item
  have hslept (d : τ) : (l.unwritten.sleep d).unwritten = (l.sleep d).unwritten :=
    unwritten_unwritten (l.sleep d)
  cases fault with
  | some f =>
    cases wait with
    | none => exact ⟨rfl, unwritten_unwritten l⟩
    | some d => exact ⟨rfl, hslept d⟩
  | none =>
    cases hangUp with
    | false =>
      cases wait with
      | none => exact ⟨rfl, unwritten_unwritten l⟩
      | some d => exact ⟨rfl, hslept d⟩
    | true =>
      cases wait with
      | none => exact ⟨rfl, unwritten_modify _ (fun _ => rfl) l⟩
      | some d => exact ⟨rfl, unwritten_modify _ (fun _ => rfl) (l.sleep d)⟩

theorem overlooks_readLine : Overlooks (readLine (τ := τ)) := by
  intro l
  obtain ⟨clock, openings, scripts, _ | ⟨p, ports⟩⟩ := l
  · exact ⟨rfl, rfl⟩
  · obtain ⟨settings, _ | ⟨item, script⟩, written, opened, writeFault, flushFault, closeFault, closeCalls⟩ := p
    · exact ⟨rfl, unwritten_unwritten (sleep _ ⟨clock, openings, scripts, _ :: ports⟩)⟩
    · refine (overlooks_readItem item).same ?_
      exact unwritten_modify ({ · with script }) (fun _ => rfl)
        ⟨clock, openings, scripts, ⟨settings, item :: script, written, opened, writeFault, flushFault, closeFault,
          closeCalls⟩ :: ports⟩

theorem indistinct_sameButWritten : Indistinct (SameButWritten (τ := τ)) where
  clock {l m} h := by
    change l.unwritten.clock = m.unwritten.clock
    rw [h]
  setClock {l m} clock h := by
    change { l.unwritten with clock } = { m.unwritten with clock }
    rw [h]
  openPort settings h := (overlooks_openPort settings).same h
  isOpen {l m} h := by
    have hshown (l : ScriptedLine τ) : l.unwritten.isOpen = l.isOpen := by
      obtain ⟨clock, openings, scripts, _ | ⟨p, ports⟩⟩ := l <;> rfl
    exact (hshown l).symm.trans ((congrArg ScriptedLine.isOpen h).trans (hshown m))
  write bytes h := (overlooks_write bytes).same h
  flush {l m} h := by
    have hshown (l : ScriptedLine τ) : l.unwritten.flush.1 = l.flush.1 := by
      obtain ⟨clock, openings, scripts, _ | ⟨p, ports⟩⟩ := l <;> rfl
    exact ⟨(hshown l).symm.trans ((congrArg (fun l => l.flush.1) h).trans (hshown m)), h⟩
  readLine h := overlooks_readLine.same h
  close h := overlooks_close.same h

end ScriptedLine

end StationLink.Serial
