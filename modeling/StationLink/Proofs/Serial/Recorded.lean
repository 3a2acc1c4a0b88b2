import StationLink.Proofs.Serial.Shadow

/-!
# Lines that record their reads

A recorded line does what its line does and keeps the outcome of every read beside it. No call of the
host looks at the record: a call on a recorded line, its record forgotten, is the same call on the
line itself. So what a call has read can be spoken of without a change to any line.
-/

namespace StationLink.Serial

structure Recorded (σ : Type) where
  line : σ
  /-- The outcomes of all reads, in order. -/
  reads : List (Except Fault Bytes) := []

namespace Recorded

variable {σ τ α : Type}

/-- An operation of the line, which leaves the record alone. -/
def lift (f : σ → α × σ) (r : Recorded σ) : α × Recorded σ :=
  ((f r.line).1, { r with line := (f r.line).2 })

def readLine [SerialLine σ τ] (r : Recorded σ) : Except Fault Bytes × Recorded σ :=
  let (outcome, line) := SerialLine.readLine r.line
  (outcome, { line, reads := r.reads ++ [outcome] })

instance [SerialLine σ τ] : SerialLine (Recorded σ) τ where
  clock r := SerialLine.clock r.line
  setClock clock r := { r with line := SerialLine.setClock clock r.line }
  openPort settings := lift (SerialLine.openPort settings)
  isOpen r := SerialLine.isOpen r.line
  write bytes := lift (SerialLine.write bytes)
  flush := lift SerialLine.flush
  readLine := readLine
  close := lift SerialLine.close

theorem reads_of_readLine [SerialLine σ τ] {r line : Recorded σ} {outcome : Except Fault Bytes}
    (h : SerialLine.readLine r = (outcome, line)) : line.reads = r.reads ++ [outcome] := by
  have hfst : (SerialLine.readLine r).1 = outcome := congrArg Prod.fst h
  have hsnd : (SerialLine.readLine r).2 = line := congrArg Prod.snd h
  rw [← hfst, ← hsnd]
  rfl

end Recorded

end StationLink.Serial

namespace StationLink.Host

open Serial

variable {σ τ α β : Type}

def unrecorded (h : Host (Recorded σ)) : Host σ where
  line := h.line.line
  held := h.held
  pending := h.pending
  inbox := h.inbox
  rejoined := h.rejoined
  rests := h.rests
  journal := h.journal

def recorded (h : Host σ) : Host (Recorded σ) where
  line := { line := h.line }
  held := h.held
  pending := h.pending
  inbox := h.inbox
  rejoined := h.rejoined
  rests := h.rests
  journal := h.journal

@[simp]
theorem unrecorded_recorded (h : Host σ) : h.recorded.unrecorded = h := rfl

theorem sees_recorded [SerialLine σ τ] : Sees (τ := τ) (Recorded.line (σ := σ)) where
  clock _ := rfl
  setClock _ _ := rfl
  openPort _ _ := rfl
  isOpen _ := rfl
  write _ _ := rfl
  flush _ := rfl
  readLine _ := rfl
  close _ := rfl

namespace Call

/-- The host that is left, whether the call has failed or not. -/
def left : EStateM.Result Failure (Host σ) α → Host σ
  | .ok _ h => h
  | .error _ h => h

def after (c : Call σ α) (h : Host σ) : Host σ :=
  left (c h)

theorem after_of_run {c : Call σ α} {h h' : Host σ} {a : α} {f : Failure}
    (hrun : c h = .ok a h' ∨ c h = .error f h') : c.after h = h' := by
  rw [after]
  rcases hrun with hrun | hrun
  · rw [hrun]
    rfl
  · rw [hrun]
    rfl

deriving instance DecidableEq for Except

/-- What a call comes to, as a value. -/
def outcome (c : Call σ α) (h : Host σ) : Except Failure α :=
  match c h with
  | .ok a _ => .ok a
  | .error f _ => .error f

theorem run_of_outcome {c : Call σ α} {h : Host σ} {a : α} (ha : c.outcome h = .ok a) :
    c h = .ok a (c.after h) := by
  rw [outcome] at ha
  rw [after]
  rcases hrun : c h with ⟨a', h'⟩ | ⟨f, h'⟩
  · rw [hrun] at ha
    rw [Except.ok.inj ha]
    rfl
  · rw [hrun] at ha
    cases ha

theorem after_returning (c : Call σ α) (g : α → β) (h : Host σ) :
    (do return g (← c) : Call σ β).after h = c.after h := by
  rcases hrun : c h with ⟨a, h'⟩ | ⟨f, h'⟩
  · rw [after, bind_of_ok hrun, after, hrun]
    rfl
  · rw [after, bind_of_error hrun, after, hrun]
    rfl

theorem outcome_returning (c : Call σ α) (g : α → β) (h : Host σ) :
    (do return g (← c) : Call σ β).outcome h = (c.outcome h).map g := by
  rcases hrun : c h with ⟨a, h'⟩ | ⟨f, h'⟩
  · rw [outcome, bind_of_ok hrun, outcome, hrun]
    rfl
  · rw [outcome, bind_of_error hrun, outcome, hrun]
    rfl

theorem Shadows.after {ρ : Type} {π : σ → ρ} {c : Call σ α} {d : Call ρ α} (h : Shadows π c d)
    (s : Host σ) : d.after (s.shadow π) = (c.after s).shadow π := by
  rw [Call.after, h s, Call.after]
  cases c s with
  | ok a s => rfl
  | error f s => rfl

theorem Shadows.outcome {ρ : Type} {π : σ → ρ} {c : Call σ α} {d : Call ρ α} (h : Shadows π c d)
    (s : Host σ) : d.outcome (s.shadow π) = c.outcome s := by
  rw [Call.outcome, h s, Call.outcome]
  cases c s with
  | ok a s => rfl
  | error f s => rfl

/-- A run ends in a value and a host of the first kind, or in a failure and a host of the second. -/
def Ends (I : α → Host σ → Prop) (E : Failure → Host σ → Prop) :
    EStateM.Result Failure (Host σ) α → Prop
  | .ok a h => I a h
  | .error f h => E f h

theorem Ends.imp {I I' : α → Host σ → Prop} {E E' : Failure → Host σ → Prop}
    {run : EStateM.Result Failure (Host σ) α} (h : Ends I E run) (hI : ∀ a h, I a h → I' a h)
    (hE : ∀ f h, E f h → E' f h) : Ends I' E' run := by
  rcases run with ⟨a, h'⟩ | ⟨f, h'⟩
  · exact hI a h' h
  · exact hE f h' h

/-- A run that ends in the same way whether it fails or not leaves a host of that kind. -/
theorem ends_iff_after {P : Host σ → Prop} {c : Call σ α} {h : Host σ} :
    Ends (fun _ h' => P h') (fun _ h' => P h') (c h) ↔ P (c.after h) := by
  rw [after]
  cases c h with
  | ok a h' => exact Iff.rfl
  | error f h' => exact Iff.rfl

/-- The outcomes of the reads that a call makes. -/
def reads (c : Call (Recorded σ) α) (h : Host σ) : List (Except Fault Bytes) :=
  (c.after h.recorded).line.reads

/-- The first call does on a recorded line what the second does on the line itself. -/
def Records (c : Call (Recorded σ) α) (d : Call σ α) : Prop :=
  ∀ h, d h.unrecorded =
    match c h with
    | .ok a h => .ok a h.unrecorded
    | .error f h => .error f h.unrecorded

theorem records_iff {c : Call (Recorded σ) α} {d : Call σ α} :
    Records c d ↔ Shadows Recorded.line c d := by
  apply forall_congr'
  intro h
  cases c h with
  | ok a h' => exact Iff.rfl
  | error f h' => exact Iff.rfl

namespace Records

theorem ret (a : α) : Records (σ := σ) (pure a) (pure a) :=
  records_iff.mpr (.ret a)

theorem bind {c : Call (Recorded σ) α} {d : Call σ α} {k : α → Call (Recorded σ) β}
    {l : α → Call σ β} (h : Records c d) (hk : ∀ a, Records (k a) (l a)) :
    Records (c >>= k) (d >>= l) :=
  records_iff.mpr ((records_iff.mp h).bind fun a => records_iff.mp (hk a))

theorem after {c : Call (Recorded σ) α} {d : Call σ α} (h : Records c d) (s : Host σ) :
    d.after s = (c.after s.recorded).unrecorded :=
  (records_iff.mp h).after s.recorded

theorem outcome {c : Call (Recorded σ) α} {d : Call σ α} (h : Records c d) (s : Host σ) :
    d.outcome s = c.outcome s.recorded :=
  (records_iff.mp h).outcome s.recorded

end Records

end Call

end StationLink.Host
