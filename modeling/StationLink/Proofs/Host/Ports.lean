import StationLink.Proofs.Host.Tending
import StationLink.Proofs.Host.Windows

/-!
# One port at a time

Whatever is done with a channel, in whatever order, and however its ports fail: a port is asked for only
if none is open, it is closed at most once, and the lines that are read are made of what the newest port
has handed over. As long as no closing fails, no port is open but the one that is held.
-/

namespace StationLink.Host

open Serial Text Channel

variable {σ τ : Type} [SerialLine σ τ]

/-! ## Acts and histories -/

namespace Channel

inductive Act (τ : Type) where
  | «open»
  | close
  | writeLine (text : Text)
  | readLine
  | readLines (duration : τ)

namespace Act

variable [TimeScale τ]

/-- Does an act, which returns the lines that it reads. -/
def run (k : Link τ) : Act τ → Call σ (List Text)
  | .«open» => do let _ ← Channel.open k; return []
  | .close => do let _ ← Channel.close k; return []
  | .writeLine text => do let _ ← Channel.writeLine k text; return []
  | .readLine => do return (← Channel.readLine).toList
  | .readLines duration => Channel.readLines k duration

theorem after_open (k : Link τ) (h : Host σ) : (Act.open.run k).after h = (Channel.open k).after h :=
  Call.after_returning _ (fun _ => []) h

theorem after_close (k : Link τ) (h : Host σ) : (Act.close.run k).after h = (Channel.close k).after h :=
  Call.after_returning _ (fun _ => []) h

theorem shadows_run (k : Link τ) (a : Act τ) : Call.Shadows (Charted.line (σ := σ)) (a.run k) (a.run k) := by
  cases a with
  | «open» => exact .bind (sees_charted.shadows_open k) fun _ => .ret _
  | close => exact .bind (sees_charted.shadows_close k) fun _ => .ret _
  | writeLine text => exact .bind (sees_charted.shadows_writeLine k text) fun _ => .ret _
  | readLine => exact .bind sees_charted.shadows_readLine fun _ => .ret _
  | readLines duration => exact sees_charted.shadows_readLines k duration

end Act

end Channel

theorem Follows.of_ends {α : Type} {openAt : σ → Nat → Bool} {h : Host (Charted σ)}
    {c : Call (Charted σ) α} (g : α → List Text)
    (hends : Call.Ends (fun a h' => Follows openAt h (g a) h') (fun _ h' => Follows openAt h [] h') (c h)) :
    Follows openAt h (returned ((c.outcome h).map g)) (c.after h) := by
  rw [Call.outcome, Call.after]
  generalize c h = run at hends
  rcases run with ⟨a, h'⟩ | ⟨f, h'⟩
  · exact hends
  · exact hends

variable [TimeScale τ]

section

variable {openAt : σ → Nat → Bool} {h : Host (Charted σ)} (hl : LawfulPorts openAt)

include hl

theorem follows_of_quiet (ht : Tended openAt h) (k : Link τ) (a : Act τ) (hopen : a ≠ .open)
    (hclose : a ≠ .close) :
    Follows openAt h (returned ((a.run k).outcome h)) ((a.run k).after h) := by
  cases a with
  | «open» => exact absurd rfl hopen
  | close => exact absurd rfl hclose
  | writeLine text =>
    rw [Act.run, Call.after_returning (Channel.writeLine k text) fun _ => [], returned_returning_nil]
    exact (Follows.refl ht).writeLine hl k text
  | readLine =>
    rw [Act.run, Call.after_returning, Call.outcome_returning]
    exact .of_ends Option.toList ((Follows.refl ht).readLine hl)
  | readLines duration =>
    have hwindow := Follows.of_ends id (Follows.window hl ht k duration)
    rw [Except.map_id] at hwindow
    exact hwindow

theorem Tended.act (ht : Tended openAt h) (k : Link τ) (a : Act τ) : Tended openAt ((a.run k).after h) := by
  by_cases hopen : a = .open
  · obtain rfl := hopen
    rw [Act.after_open]
    exact ht.open hl k
  · by_cases hclose : a = .close
    · obtain rfl := hclose
      rw [Act.after_close]
      exact ht.close hl k
    · exact (follows_of_quiet hl ht k a hopen hclose).tended

end

/-- The hosts that any acts lead to, from one that holds no port and knows none that is open. Around the
acts the line may become any other, if no port opens by itself. -/
inductive Handled (openAt : σ → Nat → Bool) (k : Link τ) : Host (Charted σ) → Prop
  | new (h : Host σ) (hheld : h.held = false) (hpending : h.pending = [])
      (hclosed : ∀ i, openAt h.line i = false) : Handled openAt k h.charted
  | act (h : Host (Charted σ)) (a : Act τ) (hh : Handled openAt k h) : Handled openAt k ((a.run k).after h)
  | around (h : Host (Charted σ)) (line : σ) (hh : Handled openAt k h)
      (hfades : Fades openAt h.line.line line) : Handled openAt k { h with line := { h.line with line } }

theorem Handled.tended {openAt : σ → Nat → Bool} (hl : LawfulPorts openAt) {k : Link τ} {h : Host (Charted σ)}
    (hh : Handled openAt k h) : Tended openAt h := by
  induction hh with
  | new h hheld hpending hclosed =>
    refine ⟨fun hh => ?_, fun _ => hpending, by simp [charted, shadow], fun _ i hi => ?_⟩
    · cases hheld.symm.trans hh
    · cases (hclosed i).symm.trans hi
  | act h a _ ih => exact ih.act hl k a
  | around h line _ hfades ih => exact (Advances.of_line h line h.journal hfades).tended ih

/-! ## What an act comes to -/

structure OnePortAtATime (openAt : σ → Nat → Bool) (k : Link τ) (a : Act τ) (h : Host (Charted σ)) : Prop where
  /-- The line itself, without a chart, goes through the same. -/
  outcome_line : (a.run k).outcome (h.shadow Charted.line) = (a.run k).outcome h
  after_line : (a.run k).after (h.shadow Charted.line) = ((a.run k).after h).shadow Charted.line
  /-- A port is asked for only by opening, and only if none is open. -/
  asked : a = .open → h.isOpen = false → ((a.run k).after h).line.attempts = h.line.attempts + 1
  unasked : (a = .open → h.isOpen = true) → ((a.run k).after h).line.attempts = h.line.attempts
  /-- Opening fails if the line fails to open a port, with the failure that callers are promised. -/
  fails : a = .open → ∀ e, (a.run k).outcome h = .error e ↔
    h.isOpen = false ∧ ∃ f, (SerialLine.openPort k.settings.serial h.line).1 = .error f ∧
      e = .openFailed k.settings.port f
  shut : a = .open → ∀ e, (a.run k).outcome h = .error e → ((a.run k).after h).isOpen = false
  /-- Closing lets go of the port and of what is pending, whether it fails or not. -/
  closed : a = .close → ((a.run k).after h).isOpen = false ∧ ((a.run k).after h).pending = []
  once : ∀ p ∈ ((a.run k).after h).line.ports, p.closings.length ≤ 1
  alone : (∀ p ∈ ((a.run k).after h).line.ports, ¬ p.Balked) →
    ∀ i, openAt ((a.run k).after h).line.line i = true → i = 0 ∧ ((a.run k).after h).held = true
  /-- Lines are read from the port that is open, and are made of what that port has handed over. -/
  spoken : ∀ t ∈ returned ((a.run k).outcome h), h.isOpen = true ∧
    ∃ p older bytes, h.line.ports = p :: older ∧
      ((a.run k).after h).line.ports = p.hand bytes :: older ∧ Speaks (p.hand bytes) t

theorem attempts_after_open (k : Link τ) (h : Host (Charted σ)) :
    ((Channel.open (σ := Charted σ) k).after h).line.attempts =
      h.line.attempts + if h.isOpen then 0 else 1 := by
  cases ho : h.isOpen with
  | true =>
    rw [Call.after, open_of_open k h ho]
    rfl
  | false =>
    rcases hport : SerialLine.openPort k.settings.serial h.line.line with ⟨f | _, line⟩
    · rw [Call.after, open_of_fault k h ho f _ (Charted.openPort_of_error hport)]
      rfl
    · rw [Call.after, open_of_port k h ho _ (Charted.openPort_of_ok hport)]
      rfl

omit [TimeScale τ] in
theorem attempts_after_close (k : Link τ) (h : Host (Charted σ)) :
    ((Channel.close (σ := Charted σ) k).after h).line.attempts = h.line.attempts := by
  cases hheld : h.held with
  | false => rw [Call.after, close_of_not_held k h hheld, Call.left]
  | true =>
    cases hline : SerialLine.isOpen h.line with
    | false => rw [Call.after, close_of_gone k h hheld hline, Call.left]
    | true =>
      obtain ⟨journal, hclose⟩ := after_close k h (isOpen_of_held hheld hline)
      rw [hclose]
      rfl

section

variable {openAt : σ → Nat → Bool} {h : Host (Charted σ)} (hl : LawfulPorts openAt)

include hl

theorem attempts_after (ht : Tended openAt h) (k : Link τ) (a : Act τ) (hopen : a = .open → h.isOpen = true) :
    ((a.run k).after h).line.attempts = h.line.attempts := by
  by_cases hopening : a = .open
  · obtain rfl := hopening
    rw [Act.after_open, attempts_after_open, hopen rfl]
    rfl
  · by_cases hclosing : a = .close
    · obtain rfl := hclosing
      rw [Act.after_close, attempts_after_close]
    · obtain ⟨bytes, ha⟩ := (follows_of_quiet hl ht k a hopening hclosing).advances
      exact ha.attempts

/-- The port that a line is read from is the same before and after, and has handed the line over. -/
theorem spoken_of_returned (ht : Tended openAt h) (k : Link τ) (a : Act τ) (t : Text)
    (hline : t ∈ returned ((a.run k).outcome h)) :
    h.isOpen = true ∧ ∃ p older bytes, h.line.ports = p :: older ∧
      ((a.run k).after h).line.ports = p.hand bytes :: older ∧ Speaks (p.hand bytes) t := by
  have hquiet : a ≠ .open ∧ a ≠ .close := by
    constructor
    · rintro rfl
      rw [Act.run, returned_returning_nil] at hline
      cases hline
    · rintro rfl
      rw [Act.run, returned_returning_nil] at hline
      cases hline
  have hfollows := follows_of_quiet hl ht k a hquiet.1 hquiet.2
  obtain ⟨bytes, ha⟩ := hfollows.advances
  obtain ⟨ho, q, hq, hspeaks⟩ := hfollows.spoken t hline
  refine ⟨ho, ?_⟩
  rw [ha.ports, head?_modifyNewest] at hq
  rw [ha.ports]
  cases hports : h.line.ports with
  | nil =>
    rw [hports] at hq
    cases hq
  | cons p older =>
    rw [hports] at hq
    obtain rfl := Option.some.inj hq
    exact ⟨p, older, bytes, rfl, rfl, hspeaks⟩

theorem shut_of_failed (k : Link τ) (e : Failure)
    (he : (Channel.open (σ := Charted σ) k).outcome h = .error e) :
    ((Channel.open (σ := Charted σ) k).after h).isOpen = false := by
  obtain ⟨ho, f, hport, _⟩ := (open_eq_error_iff k h e).mp he
  rcases hopen : SerialLine.openPort k.settings.serial h.line.line with ⟨f' | _, line⟩
  · have hfades := hl.refused k.settings.serial h.line.line f' (by rw [hopen])
    rw [hopen] at hfades
    rw [Call.after, open_of_fault k h ho f' _ (Charted.openPort_of_error hopen)]
    refine Bool.eq_false_iff.mpr fun ho' => ?_
    have hbefore : h.isOpen = true := isOpen_of_fades hl ho' rfl hfades
    cases ho.symm.trans hbefore
  · rw [Charted.openPort_of_ok hopen] at hport
    cases hport

/-- Every act keeps to one port at a time, whatever acts have been done and whatever the ports do: those
that cannot be opened, that fail to be written to, read or closed, and those that close by themselves. -/
theorem one_port_at_a_time (k : Link τ) (a : Act τ) (h : Host (Charted σ)) (hh : Handled openAt k h) :
    OnePortAtATime openAt k a h := by
  have ht := hh.tended hl
  have hafter := ht.act hl k a
  refine ⟨(a.shadows_run k).outcome h, (a.shadows_run k).after h, ?_, attempts_after hl ht k a, ?_, ?_, ?_,
    hafter.once, hafter.alone, spoken_of_returned hl ht k a⟩
  · rintro rfl ho
    rw [Act.after_open, attempts_after_open, ho]
    rfl
  · rintro rfl e
    rw [Act.run, Call.outcome_returning (Channel.open k) fun _ => [], ← open_eq_error_iff]
    cases (Channel.open k).outcome h <;> simp [Except.map]
  · rintro rfl e he
    rw [Act.run, Call.outcome_returning (Channel.open k) fun _ => []] at he
    rw [Act.after_open]
    cases hfailed : (Channel.open k).outcome h with
    | error f => exact shut_of_failed hl k f hfailed
    | ok _ =>
      rw [hfailed] at he
      cases he
  · rintro rfl
    have hheld : ((Act.close.run k).after h).held = false := by
      rw [Act.after_close]
      exact held_after_close k h
    exact ⟨isOpen_of_not_held hheld, hafter.idle hheld⟩

end

def actAll (k : Link τ) (acts : List (Act τ)) (h : Host σ) : Host σ :=
  acts.foldl (fun h a => (a.run k).after h) h

theorem Handled.actAll {openAt : σ → Nat → Bool} {k : Link τ} {h : Host (Charted σ)}
    (hh : Handled openAt k h) (acts : List (Act τ)) : Handled openAt k (h.actAll k acts) := by
  induction acts generalizing h with
  | nil => exact hh
  | cons a acts ih => exact ih (.act h a hh)

/-- The first port closes by itself in the middle of a line; every other attempt to open one fails. -/
def worn : Host (ScriptedLine Millis) where
  line :=
    { clock := .start ⟨1⟩
      openings := { faults := [some ⟨.system, []⟩, none, some ⟨.invalid, []⟩] }
      scripts := [[{ data := [0x41] }, { data := [0x42], hangUp := true }], [{ data := [0x43, 0x0A] }]] }

def wornActs : List (Act Millis) :=
  [.open, .open, .readLine, .readLine, .open, .open]

/-- The same port again, from now on failing to be closed. -/
def jammed (h : Host (Charted (ScriptedLine Millis))) : Host (Charted (ScriptedLine Millis)) :=
  { h with line := { h.line with line := h.line.line.modify ({ · with closeFault := some ⟨.serial, []⟩ }) } }

theorem one_port_at_a_time_of_worn :
    ((worn.charted.actAll patientLink wornActs).line.attempts = 4 ∧
      returned ((Act.readLine.run patientLink).outcome (worn.charted.actAll patientLink wornActs)) =
        ["C".toList] ∧
      OnePortAtATime ScriptedLine.openAt patientLink .readLine (worn.charted.actAll patientLink wornActs)) ∧
    (((Act.close.run patientLink).after (jammed (worn.charted.actAll patientLink wornActs))).line.line.openAt 0 =
        true ∧
      OnePortAtATime ScriptedLine.openAt patientLink .close
        (jammed (worn.charted.actAll patientLink wornActs))) := by
  have hworn : Handled ScriptedLine.openAt patientLink (worn.charted.actAll patientLink wornActs) :=
    .actAll (.new worn rfl rfl fun _ => rfl) wornActs
  refine ⟨⟨by decide +kernel, by decide +kernel, ?_⟩, by decide +kernel, ?_⟩
  · exact one_port_at_a_time ScriptedLine.lawfulPorts patientLink .readLine _ hworn
  · exact one_port_at_a_time ScriptedLine.lawfulPorts patientLink .close _
      (.around _ _ hworn (ScriptedLine.fades_modify _ _ fun _ h => h))

end StationLink.Host
