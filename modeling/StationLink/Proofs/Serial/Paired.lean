import StationLink.Proofs.Host.Recording

/-!
# Lines that are told apart by no call

Two lines may differ in what none of their operations shows. Calls of hosts on such lines then come to the
same, and leave lines that again are told apart by no operation.
-/

namespace StationLink.Serial

variable {σ ρ τ : Type} [SerialLine σ τ] [SerialLine ρ τ]

/-- A relation between lines that show the same in every operation, and are related again after it. -/
structure Indistinct (R : σ → ρ → Prop) : Prop where
  clock : ∀ {l m}, R l m → SerialLine.clock l = SerialLine.clock m
  setClock : ∀ {l m} (clock : Clock τ), R l m → R (SerialLine.setClock clock l) (SerialLine.setClock clock m)
  openPort : ∀ {l m} (settings : PortSettings τ), R l m →
    (SerialLine.openPort settings l).1 = (SerialLine.openPort settings m).1 ∧
      R (SerialLine.openPort settings l).2 (SerialLine.openPort settings m).2
  isOpen : ∀ {l m}, R l m → SerialLine.isOpen l = SerialLine.isOpen m
  write : ∀ {l m} (bytes : Bytes), R l m →
    (SerialLine.write bytes l).1 = (SerialLine.write bytes m).1 ∧
      R (SerialLine.write bytes l).2 (SerialLine.write bytes m).2
  flush : ∀ {l m}, R l m →
    (SerialLine.flush l).1 = (SerialLine.flush m).1 ∧ R (SerialLine.flush l).2 (SerialLine.flush m).2
  readLine : ∀ {l m}, R l m →
    (SerialLine.readLine l).1 = (SerialLine.readLine m).1 ∧
      R (SerialLine.readLine l).2 (SerialLine.readLine m).2
  close : ∀ {l m}, R l m →
    (SerialLine.close l).1 = (SerialLine.close m).1 ∧ R (SerialLine.close l).2 (SerialLine.close m).2

/-- Two related lines, worked side by side. -/
structure Pair (R : σ → ρ → Prop) where
  first : σ
  second : ρ
  related : R first second

namespace Indistinct

variable {R : σ → ρ → Prop}

/-- A pair shows what the first of its lines shows. -/
@[reducible]
def line (hR : Indistinct R) : SerialLine (Pair R) τ where
  clock p := SerialLine.clock p.first
  setClock clock p := ⟨_, _, hR.setClock clock p.related⟩
  openPort settings p := ((SerialLine.openPort settings p.first).1, ⟨_, _, (hR.openPort settings p.related).2⟩)
  isOpen p := SerialLine.isOpen p.first
  write bytes p := ((SerialLine.write bytes p.first).1, ⟨_, _, (hR.write bytes p.related).2⟩)
  flush p := ((SerialLine.flush p.first).1, ⟨_, _, (hR.flush p.related).2⟩)
  readLine p := ((SerialLine.readLine p.first).1, ⟨_, _, (hR.readLine p.related).2⟩)
  close p := ((SerialLine.close p.first).1, ⟨_, _, (hR.close p.related).2⟩)

theorem recorded (hR : Indistinct R) :
    Indistinct fun (l : Recorded σ) (m : Recorded ρ) => R l.line m.line ∧ l.reads = m.reads where
  clock h := hR.clock h.1
  setClock clock h := ⟨hR.setClock clock h.1, h.2⟩
  openPort settings h := ⟨(hR.openPort settings h.1).1, (hR.openPort settings h.1).2, h.2⟩
  isOpen h := hR.isOpen h.1
  write bytes h := ⟨(hR.write bytes h.1).1, (hR.write bytes h.1).2, h.2⟩
  flush h := ⟨(hR.flush h.1).1, (hR.flush h.1).2, h.2⟩
  readLine {l m} h := by
    obtain ⟨hread, hline⟩ := hR.readLine h.1
    exact ⟨hread, hline, congr (congrArg (fun reads read => reads ++ [read]) h.2) hread⟩
  close h := ⟨(hR.close h.1).1, (hR.close h.1).2, h.2⟩

end Indistinct

end StationLink.Serial

namespace StationLink.Host

open Serial Protocol

variable {σ ρ τ α : Type} [SerialLine σ τ] [SerialLine ρ τ] [TimeScale τ] {R : σ → ρ → Prop}

section

variable (hR : Indistinct R)

omit [TimeScale τ]

theorem sees_first : letI := hR.line; Sees (τ := τ) (Pair.first (R := R)) :=
  letI := hR.line
  { clock := fun _ => rfl, setClock := fun _ _ => rfl, openPort := fun _ _ => rfl, isOpen := fun _ => rfl,
    write := fun _ _ => rfl, flush := fun _ => rfl, readLine := fun _ => rfl, close := fun _ => rfl }

theorem sees_second : letI := hR.line; Sees (τ := τ) (Pair.second (R := R)) :=
  letI := hR.line
  { clock := fun p => (hR.clock p.related).symm
    setClock := fun _ _ => rfl
    openPort := fun settings p => Prod.ext (hR.openPort settings p.related).1.symm rfl
    isOpen := fun p => (hR.isOpen p.related).symm
    write := fun bytes p => Prod.ext (hR.write bytes p.related).1.symm rfl
    flush := fun p => Prod.ext (hR.flush p.related).1.symm rfl
    readLine := fun p => Prod.ext (hR.readLine p.related).1.symm rfl
    close := fun p => Prod.ext (hR.close p.related).1.symm rfl }

end

def onLine (line : ρ) (h : Host σ) : Host ρ :=
  h.shadow fun _ => line

/-- A request comes to the same on lines that no operation tells apart. -/
theorem query_onLine (hR : Indistinct R) (k : Link τ) (r : Request) (h : Host σ) (line : ρ)
    (hline : R h.line line) :
    (Client.query k r).outcome (h.onLine line) = (Client.query k r).outcome h ∧
      R ((Client.query (σ := σ) k r).after h).line ((Client.query k r).after (h.onLine line)).line := by
  let := hR.line
  have hfirst := (sees_first hR).shadows_query k r
  have hsecond := (sees_second hR).shadows_query k r
  have hpair : h = (h.onLine (⟨h.line, line, hline⟩ : Pair R)).shadow Pair.first := rfl
  have hother : h.onLine line = (h.onLine (⟨h.line, line, hline⟩ : Pair R)).shadow Pair.second := rfl
  constructor
  · rw [hother, hsecond.outcome, ← hfirst.outcome]
    rfl
  · have hafter := hfirst.after (h.onLine (⟨h.line, line, hline⟩ : Pair R))
    have hafter' := hsecond.after (h.onLine (⟨h.line, line, hline⟩ : Pair R))
    change (Client.query k r).after h = _ at hafter
    change (Client.query k r).after (h.onLine line) = _ at hafter'
    rw [hafter, hafter']
    exact ((Client.query k r).after (h.onLine (⟨h.line, line, hline⟩ : Pair R))).line.related

theorem reads_query_onLine (hR : Indistinct R) (k : Link τ) (r : Request) (h : Host σ) (line : ρ)
    (hline : R h.line line) :
    Call.reads (Client.query k r) (h.onLine line) = Call.reads (Client.query k r) h :=
  (query_onLine hR.recorded k r h.recorded ⟨line, []⟩ ⟨hline, rfl⟩).2.2.symm

end StationLink.Host
