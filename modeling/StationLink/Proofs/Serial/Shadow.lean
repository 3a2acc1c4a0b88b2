import StationLink.Host.Client

/-!
# Lines with something beside them

A line may keep a record beside what another line does. If each of its operations does to that line what
the line's own operation does, then every call of the channel and of the bridge does so too, and returns
the same: it does not notice the record.
-/

namespace StationLink.Host

open Serial Protocol

variable {σ ρ τ α β : Type} {π : σ → ρ}

/-- The same host, on what is seen of its line. -/
def shadow (π : σ → ρ) (h : Host σ) : Host ρ where
  line := π h.line
  held := h.held
  pending := h.pending
  inbox := h.inbox
  rejoined := h.rejoined
  rests := h.rests
  journal := h.journal

namespace Call

/-- The first call does on a line what the second does on what is seen of it. -/
def Shadows (π : σ → ρ) (c : Call σ α) (d : Call ρ α) : Prop :=
  ∀ h, d (h.shadow π) =
    match c h with
    | .ok a h => .ok a (h.shadow π)
    | .error f h => .error f (h.shadow π)

namespace Shadows

theorem ret (a : α) : Shadows π (pure a) (pure a) := fun _ => rfl

theorem fail (f : Failure) : Shadows (α := α) π (throw f) (throw f) := fun _ => rfl

theorem bind {c : Call σ α} {d : Call ρ α} {k : α → Call σ β} {l : α → Call ρ β} (h : Shadows π c d)
    (hk : ∀ a, Shadows π (k a) (l a)) : Shadows π (c >>= k) (d >>= l) := by
  intro s
  have hs := h s
  change EStateM.bind d l (s.shadow π) = match EStateM.bind c k s with
    | .ok a h => .ok a (h.shadow π)
    | .error f h => .error f (h.shadow π)
  simp only [EStateM.bind]
  rw [hs]
  cases c s with
  | ok a s => exact hk a s
  | error f s => rfl

/-- A call that looks at the host may look at all that is seen of it. -/
theorem look {k : Host σ → Call σ α} {l : Host ρ → Call ρ α}
    (hk : ∀ h, Shadows π (k h) (l (h.shadow π))) : Shadows π (get >>= k) (get >>= l) :=
  fun h => hk h h

theorem change {f : Host σ → Host σ} {g : Host ρ → Host ρ}
    (h : ∀ s, g (s.shadow π) = (f s).shadow π) : Shadows π (modify f) (modify g) := by
  intro s
  have hs : (modify g : Call ρ PUnit) (s.shadow π) = .ok ⟨⟩ (g (s.shadow π)) := rfl
  rw [hs, h s]
  rfl

theorem take {f : Host σ → α × Host σ} {g : Host ρ → α × Host ρ}
    (h : ∀ s, g (s.shadow π) = ((f s).1, (f s).2.shadow π)) :
    Shadows π (modifyGet f) (modifyGet g) := by
  intro s
  have hs : (modifyGet g : Call ρ α) (s.shadow π) = .ok (g (s.shadow π)).1 (g (s.shadow π)).2 := rfl
  rw [hs, h s]
  rfl

theorem note (e : Event) : Shadows π (Call.note e) (Call.note e) :=
  change fun _ => rfl

theorem branch {c c' : Call σ α} {d d' : Call ρ α} {p : Prop} [Decidable p] (h : Shadows π c d)
    (h' : Shadows π c' d') : Shadows π (if p then c else c') (if p then d else d') := by
  by_cases hp : p
  · simpa only [hp, if_true] using h
  · simpa only [hp, if_false] using h'

/-- A call that first gives up unless a condition holds. -/
theorem guarded {c : Call σ α} {d : Call ρ α} {p : Prop} [Decidable p] {f : Failure} (h : Shadows π c d) :
    Shadows π (if p then (throw f : Call σ PUnit) >>= fun _ => c else c)
      (if p then (throw f : Call ρ PUnit) >>= fun _ => d else d) :=
  .branch (.bind (.fail f) fun _ => h) h

theorem attempt {f : σ → Except Fault α × σ} {g : ρ → Except Fault α × ρ}
    (h : ∀ l, g (π l) = ((f l).1, π (f l).2)) : Shadows π (Call.attempt f) (Call.attempt g) := by
  refine take fun s => ?_
  have hs := h s.line
  change ((g (π s.line)).1, _) = _
  simp only [shadow, hs]

end Shadows

end Call

/-- Every operation of a line does to what is seen of it what its own operation does. -/
structure Sees [SerialLine σ τ] [SerialLine ρ τ] (π : σ → ρ) : Prop where
  clock : ∀ l, SerialLine.clock (π l) = SerialLine.clock l
  setClock : ∀ clock l, SerialLine.setClock clock (π l) = π (SerialLine.setClock clock l)
  openPort : ∀ settings l, SerialLine.openPort settings (π l) =
    ((SerialLine.openPort settings l).1, π (SerialLine.openPort settings l).2)
  isOpen : ∀ l, SerialLine.isOpen (π l) = SerialLine.isOpen l
  write : ∀ bytes l, SerialLine.write bytes (π l) =
    ((SerialLine.write bytes l).1, π (SerialLine.write bytes l).2)
  flush : ∀ l, SerialLine.flush (π l) = ((SerialLine.flush l).1, π (SerialLine.flush l).2)
  readLine : ∀ l, SerialLine.readLine (π l) = ((SerialLine.readLine l).1, π (SerialLine.readLine l).2)
  close : ∀ l, SerialLine.close (π l) = ((SerialLine.close l).1, π (SerialLine.close l).2)

namespace Sees

open Call

variable [SerialLine σ τ] [SerialLine ρ τ] [TimeScale τ] (hs : Sees π)

include hs

omit [TimeScale τ] in
theorem isOpen_shadow (h : Host σ) : (h.shadow π).isOpen = h.isOpen := by
  rw [Host.isOpen, Host.isOpen, ← hs.isOpen h.line]
  rfl

theorem shadows_pause (d : τ) : Shadows π (Call.pause d) (Call.pause d) := by
  apply Shadows.change
  intro h
  simp only [shadow, hs.clock, hs.setClock]

theorem shadows_now : Shadows π (Call.now : Call σ τ) (Call.now : Call ρ τ) := by
  apply Shadows.take
  intro h
  simp only [shadow, hs.clock, hs.setClock]

/-! ## The channel -/

theorem shadows_open (k : Link τ) : Shadows π (Channel.open k) (Channel.open k) := by
  refine .look fun h => ?_
  rw [hs.isOpen_shadow]
  refine .branch (.ret _) (.bind (.attempt (hs.openPort _)) fun opened => ?_)
  cases opened with
  | error f => exact .bind (.note _) fun _ => .fail _
  | ok _ => exact .bind (.change fun _ => rfl) fun _ => .bind (.note _) fun _ => hs.shadows_pause _

omit [TimeScale τ] in
theorem shadows_close (k : Link τ) : Shadows π (Channel.close (σ := σ) k) (Channel.close (σ := ρ) k) := by
  have hletGo : Shadows π Channel.letGo Channel.letGo := .change fun _ => rfl
  refine .look fun h => ?_
  have hopen : SerialLine.isOpen (h.shadow π).line = SerialLine.isOpen h.line := hs.isOpen h.line
  rw [hopen]
  refine .branch (.branch (.bind (.attempt hs.close) fun closed => .bind hletGo fun _ => ?_) hletGo) (.ret _)
  cases closed with
  | error f => exact .branch (.note _) (.fail _)
  | ok _ => exact .note _

omit [TimeScale τ] [SerialLine σ τ] [SerialLine ρ τ] hs in
theorem shadows_sendFailure (f : Fault) : Shadows π (Channel.sendFailure f) (Channel.sendFailure f) :=
  .branch (.bind (.note _) fun _ => .fail _) (.fail _)

theorem shadows_writeLine (k : Link τ) (text : Text) :
    Shadows π (Channel.writeLine k text) (Channel.writeLine k text) := by
  refine .look fun h => ?_
  rw [hs.isOpen_shadow]
  refine .guarded (.bind (.note _) fun _ => .bind (.attempt (hs.write _)) fun written => ?_)
  cases written with
  | error f => exact shadows_sendFailure f
  | ok _ =>
    refine .bind (.attempt hs.flush) fun flushed => ?_
    cases flushed with
    | error f => exact shadows_sendFailure f
    | ok _ => exact hs.shadows_pause _

omit [TimeScale τ] [SerialLine σ τ] [SerialLine ρ τ] hs in
theorem shadows_takeLine : Shadows π Channel.takeLine Channel.takeLine :=
  .look fun _ => .branch (.bind (.change fun _ => rfl) fun _ => .ret _) (.ret _)

theorem shadows_readLine : Shadows π Channel.readLine Channel.readLine := by
  refine .look fun h => ?_
  rw [hs.isOpen_shadow]
  refine .branch (.ret _) (.bind (.attempt hs.readLine) fun read => ?_)
  cases read with
  | error f => exact .branch (.bind (.note _) fun _ => .bind (hs.shadows_pause _) fun _ => .ret _) (.fail _)
  | ok bytes => exact .bind (.change fun _ => rfl) fun _ => shadows_takeLine

theorem shadows_collect (deadline : τ) (patience : Nat) (lines : List Text) :
    Shadows π (Channel.collect deadline patience lines) (Channel.collect deadline patience lines) := by
  induction patience generalizing lines with
  | zero => exact .fail _
  | succ patience ih =>
    refine .bind hs.shadows_now fun time => .branch ?_ (.ret _)
    refine .bind hs.shadows_readLine fun read => ?_
    cases read with
    | none => exact ih lines
    | some line => exact .branch (ih lines) (.bind (.note _) fun _ => ih _)

theorem shadows_readLines (k : Link τ) (duration : τ) :
    Shadows π (Channel.readLines k duration) (Channel.readLines k duration) := by
  refine .look fun h => ?_
  rw [hs.isOpen_shadow]
  exact .guarded (.bind hs.shadows_now fun _ => hs.shadows_collect _ _ _)

/-! ## The bridge -/

theorem shadows_window (k : Link τ) (duration : τ) :
    Shadows π (Client.readLines k duration) (Client.readLines k duration) :=
  .bind (hs.shadows_readLines k duration) fun _ => .bind (.change fun _ => rfl) fun _ => .ret _

theorem shadows_query (k : Link τ) (r : Request) : Shadows π (Client.query k r) (Client.query k r) := by
  simp only [Client.query]
  cases r.line? with
  | none => exact .fail _
  | some line =>
    refine .bind (hs.shadows_writeLine k line) fun _ => ?_
    cases r.verb.window? with
    | none => exact .ret _
    | some millis => exact hs.shadows_window k _

end Sees

end StationLink.Host
