import StationLink.Proofs.Host.Dialogues
import StationLink.Proofs.Serial.Lawful
import StationLink.Proofs.Time.Millis
import StationLink.Service.Run

/-!
# How the service lets go of its port

The service opens one port at most, and that is closed when the service ends, whatever has ended it. By its
exit code it says that it could not open the port or could not join the network; once it watches the network,
it does not end by itself.
-/

namespace StationLink.Service

open Serial Host Text

variable {σ τ α : Type} [SerialLine σ τ]

/-- Since the line was like `start` one port has been opened, and that is closed. -/
structure Released (openAt : σ → Nat → Bool) (start line : σ) : Prop where
  newest : openAt line 0 = false
  older : ∀ i, openAt line (i + 1) = true → openAt start i = true

/-- Since the line was like `start` the host has opened one port, which it still holds. -/
structure Holding (openAt : σ → Nat → Bool) (P : σ → Prop) (start : σ) (h : Host σ) : Prop where
  held : h.held = true
  line : P h.line
  older : ∀ i, openAt h.line (i + 1) = true → openAt start i = true

variable {openAt : σ → Nat → Bool} {P : σ → Prop} {start : σ} {h : Host σ}

namespace Holding

theorem of_fades (hh : Holding openAt P start h) {h' : Host σ} (hheld : h'.held = h.held) (hline : P h'.line)
    (hfades : Fades openAt h.line h'.line) : Holding openAt P start h' :=
  ⟨hheld.trans hh.held, hline, fun i hi => hh.older i (hfades (i + 1) hi)⟩

variable [TimeScale τ] (hl : LawfulPorts openAt) (hP : ClosesWell P)

include hl hP

theorem dialogue (hh : Holding openAt P start h) (k : Link τ) (d : Dialogue τ α) :
    Holding openAt P start ((d.run k).after h) := by
  refine d.keeps k ?_ ?_ ?_ ?_ h hh
  · intro text h hh
    obtain ⟨line, journal, hafter, hline, hfades⟩ := Channel.after_writeLine
      (P := fun line => P line ∧ Fades openAt h.line line)
      (fun clock line hline => ⟨hP.clock clock line hline.1, hline.2.trans (hl.setClock clock line)⟩)
      (fun bytes line hline => ⟨hP.write bytes line hline.1, hline.2.trans (hl.write bytes line)⟩)
      (fun line hline => ⟨hP.flush line hline.1, hline.2.trans (hl.flush line)⟩) k text h ⟨hh.line, .refl _⟩
    rw [hafter]
    exact hh.of_fades rfl hline hfades
  · intro duration h hh
    obtain ⟨line, pending, journal, hafter, hline, hfades⟩ := Channel.after_readLines
      (P := fun line => P line ∧ Fades openAt h.line line)
      (fun clock line hline => ⟨hP.clock clock line hline.1, hline.2.trans (hl.setClock clock line)⟩)
      (fun line hline => ⟨hP.readLine line hline.1, hline.2.trans (hl.readLine line)⟩) k duration h
      ⟨hh.line, .refl _⟩
    rw [hafter]
    exact hh.of_fades rfl hline hfades
  · exact fun duration h hh => hh.of_fades rfl (hP.clock _ _ hh.line) (hl.setClock _ _)
  · intro m h hh
    cases m with
    | event e => exact ⟨hh.held, hh.line, hh.older⟩
    | inbound data => exact ⟨hh.held, hh.line, hh.older⟩
    | rejoined => exact ⟨hh.held, hh.line, hh.older⟩

omit [TimeScale τ] in
/-- The host lets go of its port, and comes to nothing else. -/
theorem close (hh : Holding openAt P start h) (k : Link τ) :
    ∃ h', Channel.close k h = .ok () h' ∧ Released openAt start h'.line ∧ h'.rests = h.rests := by
  cases hline : SerialLine.isOpen h.line with
  | false => exact ⟨_, Channel.close_of_gone k h hh.held hline, ⟨(hl.isOpen _).symm.trans hline, hh.older⟩, rfl⟩
  | true =>
    have hclosed := hP.closes h.line hh.line
    refine ⟨_, Channel.close_of_port k h (isOpen_of_held hh.held hline) (SerialLine.close h.line).2
      (Prod.ext hclosed rfl), ⟨hl.closed h.line hclosed, ?_⟩, rfl⟩
    exact fun i hi => hh.older i (hl.close h.line (i + 1) hi)

omit [TimeScale τ] in
theorem closing {c : Call σ α} (k : Link τ) (hh : Holding openAt P start (c.after h)) :
    (Service.closing k c).outcome h = c.outcome h ∧
      Released openAt start ((Service.closing k c).after h).line ∧
      ((Service.closing k c).after h).rests = (c.after h).rests := by
  obtain ⟨h', hclose, hreleased, hrests⟩ := hh.close hl hP k
  rw [Call.after] at hclose hrests ⊢
  rw [Call.outcome, Call.outcome, Service.closing, Call.after]
  rcases hrun : c h with ⟨a, h₁⟩ | ⟨f, h₁⟩
  · rw [hrun] at hclose hrests
    have hdone : (do Channel.close k; return a : Call σ α) h₁ = .ok a h' := Call.bind_of_ok hclose
    dsimp only
    rw [hdone]
    exact ⟨rfl, hreleased, hrests⟩
  · rw [hrun] at hclose hrests
    have hdone : (do Channel.close k; throw f : Call σ α) h₁ = .error f h' := Call.bind_of_ok hclose
    dsimp only
    rw [hdone]
    exact ⟨rfl, hreleased, hrests⟩

end Holding

/-! ## The watch -/

section

variable [TimeScale τ] (k : Link τ) (c : Credentials) (interval : Except Failure τ) (atRest : Nat → σ → σ)

theorem watch_succ (i n : Nat) (d : τ) (h : Host σ) :
    Monitor.watch k c (.ok d) atRest i (n + 1) h =
      (do discard (Monitor.check k c); Monitor.watch k c (.ok d) atRest (i + 1) n)
        ((Monitor.rest d).after { h with line := atRest i h.line }) := rfl

/-- A watch does not end by itself. -/
theorem watch_fails (i n : Nat) (h : Host σ) :
    ∃ f h', Monitor.watch k c interval atRest i n h = .error f h' := by
  induction n generalizing i h with
  | zero => exact ⟨.interrupted, _, rfl⟩
  | succ n ih =>
    cases interval with
    | error f => exact ⟨f, _, rfl⟩
    | ok d =>
      rw [watch_succ]
      rcases hcheck : Monitor.check k c ((Monitor.rest d).after { h with line := atRest i h.line }) with
        ⟨up, h₁⟩ | ⟨f, h₁⟩
      · rw [Call.bind_of_ok (Call.discard_of_ok hcheck)]
        exact ih (i + 1) h₁
      · exact ⟨f, h₁, Call.bind_of_error (Call.discard_of_error hcheck)⟩

theorem Holding.watch (hl : LawfulPorts openAt) (hP : ClosesWell P) (hatRest : ∀ i line, P line → P (atRest i line))
    (hfades : ∀ i line, Fades openAt line (atRest i line)) (hh : Holding openAt P start h) (i n : Nat) :
    Holding openAt P start ((Monitor.watch k c interval atRest i n).after h) := by
  -- The surroundings act as each rest begins, also as the last one does, which is interrupted.
  have haround (h : Host σ) (hh : Holding openAt P start h) (i : Nat) :
      Holding openAt P start { h with line := atRest i h.line } :=
    hh.of_fades rfl (hatRest i h.line hh.line) (hfades i h.line)
  induction n generalizing i h with
  | zero => exact haround h hh i
  | succ n ih =>
    cases interval with
    | error f => exact haround h hh i
    | ok d =>
      have hrested : Holding openAt P start ((Monitor.rest d).after { h with line := atRest i h.line }) :=
        (haround h hh i).of_fades rfl (hP.clock _ _ (haround h hh i).line) (hl.setClock _ _)
      have hchecked := hrested.dialogue hl hP k (Dialogue.check c)
      rw [Dialogue.run_check, Call.after] at hchecked
      rw [Call.after, watch_succ]
      rcases hcheck : Monitor.check k c ((Monitor.rest d).after { h with line := atRest i h.line }) with
        ⟨up, h₁⟩ | ⟨f, h₁⟩
      · rw [hcheck] at hchecked
        rw [Call.bind_of_ok (Call.discard_of_ok hcheck)]
        exact ih hchecked (i + 1)
      · rw [hcheck] at hchecked
        rw [Call.bind_of_error (Call.discard_of_error hcheck)]
        exact hchecked

end

/-! ## Joining and watching -/

section

variable [TimeScale τ] (k : Link τ) (o : Options) (s : Surroundings σ τ)

def join : Call σ Unit :=
  Client.connect k (credentials o).ssid (credentials o).password

theorem keep_of_ok {h h₁ : Host σ} (hjoin : join k o h = .ok () h₁) :
    ∃ f h', keep k o s h = .error f h' ∧
      h' = (Monitor.watch k (credentials o) (interval o s.flaw?) s.atRest 0 s.rounds).after
        { h₁ with rejoined := 0, journal := .watchStarted :: h₁.journal } := by
  rw [join] at hjoin
  have hvalue : (Client.connect k (credentials o).ssid (credentials o).password).orLinkFailure h =
      .ok (.ok ()) h₁ := by
    rw [Call.orLinkFailure, hjoin]
  obtain ⟨f, h', hwatch⟩ := watch_fails k (credentials o) (interval o s.flaw?) s.atRest 0 s.rounds
    { h₁ with rejoined := 0, journal := .watchStarted :: h₁.journal }
  have hwatched : (do Monitor.watch k (credentials o) (interval o s.flaw?) s.atRest 0 s.rounds; return 0 : Call σ Nat)
      { h₁ with rejoined := 0, journal := .watchStarted :: h₁.journal } = .error f h' :=
    Call.bind_of_error hwatch
  refine ⟨f, h', ?_, ?_⟩
  · rw [keep, Call.bind_of_ok hvalue]
    exact hwatched
  · rw [Call.after, hwatch]
    rfl

theorem keep_of_error {h h₁ : Host σ} {f : Failure} (hjoin : join k o h = .error f h₁) :
    keep k o s h =
      if f.isLink then .ok 1 { h₁ with journal := .startFailed f :: h₁.journal } else .error f h₁ := by
  rw [join] at hjoin
  have hvalue : (Client.connect k (credentials o).ssid (credentials o).password).orLinkFailure h =
      if f.isLink then .ok (.error f) h₁ else .error f h₁ := by
    rw [Call.orLinkFailure, hjoin]
  cases hf : f.isLink with
  | true =>
    rw [hf] at hvalue
    rw [keep, Call.bind_of_ok hvalue]
    rfl
  | false =>
    rw [hf] at hvalue
    exact Call.bind_of_error hvalue

/-- Joining and watching returns only if the network cannot be joined. -/
theorem keep_returns_iff (code : Nat) (h : Host σ) :
    (keep k o s).outcome h = .ok code ↔
      code = 1 ∧ ∃ f h₁, join k o h = .error f h₁ ∧ f.isLink = true := by
  rw [Call.outcome]
  rcases hjoin : join k o h with ⟨_, h₁⟩ | ⟨f, h₁⟩
  · obtain ⟨f, h', hkeep, -⟩ := keep_of_ok k o s hjoin
    simp [hkeep]
  · rw [keep_of_error k o s hjoin]
    cases hf : f.isLink with
    | true =>
      simp only [if_true, Except.ok.injEq, eq_comm (a := 1)]
      exact ⟨fun hcode => ⟨hcode, f, h₁, rfl, hf⟩, And.left⟩
    | false => simp [hf]

theorem Holding.keep (hl : LawfulPorts openAt) (hP : ClosesWell P)
    (hatRest : ∀ i line, P line → P (s.atRest i line))
    (hfades : ∀ i line, Fades openAt line (s.atRest i line)) (hh : Holding openAt P start h) :
    Holding openAt P start ((Service.keep k o s).after h) := by
  have hjoined := hh.dialogue hl hP k (Dialogue.connect (credentials o).ssid (credentials o).password)
  rw [Dialogue.run_connect, ← join, Call.after] at hjoined
  rcases hjoin : join k o h with ⟨_, h₁⟩ | ⟨f, h₁⟩
  · rw [hjoin] at hjoined
    obtain ⟨f, h', hkeep, rfl⟩ := keep_of_ok k o s hjoin
    rw [Call.after, hkeep]
    refine Holding.watch k _ _ _ hl hP hatRest hfades ?_ 0 s.rounds
    exact ⟨hjoined.held, hjoined.line, hjoined.older⟩
  · rw [hjoin] at hjoined
    rw [Call.after, keep_of_error k o s hjoin]
    cases f.isLink with
    | true => exact ⟨hjoined.held, hjoined.line, hjoined.older⟩
    | false => exact hjoined

end

/-! ## Opening -/

section

variable [TimeScale τ] (k : Link τ) (o : Options) (s : Surroundings σ τ) (line : σ)

/-- The opening of the link, the first that a run does with its line. -/
def opening : EStateM.Result Failure (Host σ) Unit :=
  Client.start k { line, journal := [.portChosen k.settings.port] }

theorem opening_of_ok {line' : σ} (hport : SerialLine.openPort k.settings.serial line = (.ok (), line')) :
    ∃ h, opening k line = .ok () h ∧ h.held = true ∧ h.rests = 0 ∧
      h.line = SerialLine.setClock ((SerialLine.clock line').sleep k.settings.settleDelay) line' := by
  rw [opening, Client.start, Call.bind_of_ok (Channel.open_of_port k _ rfl line' hport)]
  exact ⟨_, rfl, rfl, rfl, rfl⟩

theorem opening_of_error {line' : σ} {f : Fault}
    (hport : SerialLine.openPort k.settings.serial line = (.error f, line')) :
    ∃ h, opening k line = .error (.openFailed k.settings.port f) h ∧ h.rests = 0 ∧ h.line = line' := by
  rw [opening, Client.start, Call.bind_of_error (Channel.open_of_fault k _ rfl f line' hport)]
  exact ⟨_, rfl, rfl, rfl⟩

theorem serve_of_ok {h : Host σ} (hopen : opening k line = .ok () h) :
    serve k o s { line } = closing k (keep k o s) h := by
  have hvalue : orTransportFailure (Client.start k) { line, journal := [.portChosen k.settings.port] } =
      .ok (.ok ()) h := by
    rw [opening] at hopen
    rw [orTransportFailure, hopen]
  exact Call.bind_of_ok hvalue

theorem serve_of_error {h : Host σ} {f : Failure} (hopen : opening k line = .error f h) (hf : f.isTransport = true) :
    serve k o s { line } = .ok 1 { h with journal := .startFailed f :: h.journal } := by
  have hvalue : orTransportFailure (Client.start k) { line, journal := [.portChosen k.settings.port] } =
      .ok (.error f) h := by
    rw [opening] at hopen
    rw [orTransportFailure, hopen]
    exact if_pos hf
  exact Call.bind_of_ok hvalue

end

/-! ## Running -/

section

variable [TimeScale τ] (patience : Nat) (o : Options) (s : Surroundings σ τ) (line : σ)

/-- A run exits if the service returns, and leaves the line and the rests as the service does. -/
theorem run_of_serve :
    (∀ code, (run patience o s line).1 = .exit code ↔
      (serve (link patience o) o s).outcome { line } = .ok code) ∧
    (run patience o s line).2.line = ((serve (link patience o) o s).after { line }).line ∧
    (run patience o s line).2.rests = ((serve (link patience o) o s).after { line }).rests := by
  rw [run, Call.outcome, Call.after]
  rcases serve (link patience o) o s { line } with ⟨code, h⟩ | ⟨f, h⟩
  · exact ⟨fun code' => by simp, rfl, rfl⟩
  · cases f <;> exact ⟨fun code' => by simp, rfl, rfl⟩

/-- The link could not be opened, or the network could not be joined. -/
def Refused : Prop :=
  (∃ f h, opening (link patience o) line = .error f h ∧ f.isTransport = true) ∨
    ∃ h f h₁, opening (link patience o) line = .ok () h ∧ join (link patience o) o h = .error f h₁ ∧
      f.isLink = true

def Joined : Prop :=
  ∃ h h₁, opening (link patience o) line = .ok () h ∧ join (link patience o) o h = .ok () h₁

/-- What a run comes to, on the whole. -/
structure Accounted (openAt : σ → Nat → Bool) : Prop where
  released : (SerialLine.openPort (link patience o).settings.serial line).1 = .ok () →
    Released openAt line (run patience o s line).2.line
  unopened : ∀ f, (SerialLine.openPort (link patience o).settings.serial line).1 = .error f →
    Fades openAt line (run patience o s line).2.line
  refused : (run patience o s line).1 = .exit 1 ↔ Refused patience o line
  /-- The watch has not begun, so that nothing that would happen around it matters. -/
  unwatched : Refused patience o line →
    (run patience o s line).2.rests = 0 ∧ ∀ s', run patience o s' line = run patience o s line
  endless : Joined patience o line → ∀ code, (run patience o s line).1 ≠ .exit code

variable {patience o s line}

theorem run_congr {s' : Surroundings σ τ}
    (hserve : serve (link patience o) o s' { line } = serve (link patience o) o s { line }) :
    run patience o s' line = run patience o s line := by
  rw [run, run, hserve]

omit [TimeScale τ] in
theorem closing_congr {k : Link τ} {c d : Call σ α} {h : Host σ} (hrun : c h = d h) :
    closing k c h = closing k d h := by
  rw [closing, closing, hrun]

theorem refused_iff_of_ok {h : Host σ} (hopen : opening (link patience o) line = .ok () h) :
    Refused patience o line ↔ ∃ f h₁, join (link patience o) o h = .error f h₁ ∧ f.isLink = true := by
  constructor
  · rintro (⟨f, h', hopen', _⟩ | ⟨h', f, h₁, hopen', hjoin, hf⟩)
    · cases hopen.symm.trans hopen'
    · cases hopen.symm.trans hopen'
      exact ⟨f, h₁, hjoin, hf⟩
  · rintro ⟨f, h₁, hjoin, hf⟩
    exact .inr ⟨h, f, h₁, hopen, hjoin, hf⟩

theorem accounted_of_unopened (hl : LawfulPorts openAt) {f : Fault}
    (hport : (SerialLine.openPort (link patience o).settings.serial line).1 = .error f) :
    Accounted patience o s line openAt := by
  obtain ⟨h, hopen, hrests, hline⟩ := opening_of_error (link patience o) line (Prod.ext hport rfl)
  have hserve (s : Surroundings σ τ) := serve_of_error (link patience o) o s line hopen rfl
  obtain ⟨hexit, hrunLine, hrunRests⟩ := run_of_serve patience o s line
  rw [Call.after, hserve] at hrunLine hrunRests
  have hrefused : Refused patience o line := .inl ⟨_, h, hopen, rfl⟩
  have hended : (run patience o s line).1 = .exit 1 := by
    rw [hexit, Call.outcome, hserve]
  refine ⟨fun hok => ?_, fun _ _ => ?_, iff_of_true hended hrefused, fun _ => ⟨?_, fun s' => ?_⟩, ?_⟩
  · cases hport.symm.trans hok
  · rw [hrunLine]
    change Fades openAt line h.line
    rw [hline]
    exact hl.refused _ line f hport
  · exact hrunRests.trans hrests
  · exact run_congr ((hserve s').trans (hserve s).symm)
  · rintro ⟨h', _, hopen', _⟩
    cases hopen.symm.trans hopen'

theorem accounted_of_opened (hl : LawfulPorts openAt) (hP : ClosesWell P) (hline : P line)
    (hatRest : ∀ i line, P line → P (s.atRest i line)) (hfades : ∀ i line, Fades openAt line (s.atRest i line))
    (hport : (SerialLine.openPort (link patience o).settings.serial line).1 = .ok ()) :
    Accounted patience o s line openAt := by
  obtain ⟨h, hopen, hheld, hrests, hafter⟩ := opening_of_ok (link patience o) line (Prod.ext hport rfl)
  have hholding : Holding openAt P line h := by
    refine ⟨hheld, ?_, fun i hi => ?_⟩
    · rw [hafter]
      exact hP.clock _ _ (hP.openPort _ line hline)
    · rw [hafter] at hi
      exact hl.opened _ line hport i (hl.setClock _ _ _ hi)
  have hkept := hholding.keep (link patience o) o s hl hP hatRest hfades
  obtain ⟨houtcome, hreleased, hclosed⟩ := hkept.closing hl hP (link patience o)
  have hserve (s : Surroundings σ τ) := serve_of_ok (link patience o) o s line hopen
  obtain ⟨hexit, hrunLine, hrunRests⟩ := run_of_serve patience o s line
  rw [Call.after, hserve s] at hrunLine hrunRests
  -- Closing does not fail here, so that the run ends as joining and watching ended.
  have hreturns (code : Nat) : (run patience o s line).1 = .exit code ↔
      code = 1 ∧ ∃ f h₁, join (link patience o) o h = .error f h₁ ∧ f.isLink = true := by
    rw [hexit, ← keep_returns_iff _ o s, ← houtcome, Call.outcome, Call.outcome, hserve]
  refine ⟨fun _ => ?_, fun f hf => ?_, ?_, fun hrefused => ?_, fun hjoined code hcode => ?_⟩
  · rw [hrunLine]
    exact hreleased
  · cases hport.symm.trans hf
  · rw [hreturns, refused_iff_of_ok hopen]
    exact ⟨And.right, And.intro rfl⟩
  · obtain ⟨f, h₁, hjoin, hf⟩ := (refused_iff_of_ok hopen).mp hrefused
    have hkeep (s : Surroundings σ τ) := keep_of_error (link patience o) o s hjoin
    refine ⟨?_, fun s' => run_congr ?_⟩
    · have hrested : ((join (link patience o) o).after h).rests = h.rests :=
        (Client.uncounted_connect _ _ _ h).2
      rw [Call.after, hjoin] at hrested
      rw [hrunRests]
      refine hclosed.trans (.trans ?_ (hrested.trans hrests))
      rw [Call.after, hkeep, if_pos hf]
      rfl
    · rw [hserve, hserve, closing_congr ((hkeep s').trans (hkeep s).symm)]
  · obtain ⟨h', h₁, hopen', hjoin⟩ := hjoined
    obtain ⟨-, f, h₂, hjoin', -⟩ := (hreturns code).mp hcode
    cases hopen.symm.trans hopen'
    cases hjoin.symm.trans hjoin'

/-- The port is released on every way out of a run, and the exit code says whether the watch began. -/
theorem port_is_released (hl : LawfulPorts openAt) (hP : ClosesWell P) (hline : P line)
    (hatRest : ∀ i line, P line → P (s.atRest i line)) (hfades : ∀ i line, Fades openAt line (s.atRest i line)) :
    Accounted patience o s line openAt := by
  rcases hport : (SerialLine.openPort (link patience o).settings.serial line).1 with f | _
  · exact accounted_of_unopened hl hport
  · exact accounted_of_opened hl hP hline hatRest hfades hport

end

/-! ## Runs at home -/

def homeOptions : Options where
  ssid := "Home".toList
  password := some "pw".toList
  port := some "/dev/ttyS0".toList
  baudrate := some 115200
  interval := some (.ofNat 30)
  verbose := false

/-- A line whose port answers the join and one request for the status. -/
def answeringLine : ScriptedLine Millis where
  clock := .start ⟨1⟩
  scripts :=
    [[{ wait := some ⟨15000⟩, data := Utf8.encode "OK:Connected\n".toList },
      { wait := some ⟨3000⟩, data := Utf8.encode "STATUS:CONNECTED\n".toList }]]

/-- The port hangs up as the second rest begins, and the third is interrupted. -/
def hangingUp : Surroundings (ScriptedLine Millis) Millis where
  rounds := 2
  atRest i l := if i = 1 then l.hangUp else l
  flaw? := Millis.flaw?

def wiredLine : WiredLine Millis where
  clock := .start ⟨1⟩
  board := .boot [{ ssid := "Home".toList, rssi := -50, password := some "pw".toList }] []
  paced := true

def undisturbed : Surroundings (WiredLine Millis) Millis where
  rounds := 2
  atRest _ l := l
  flaw? := Millis.flaw?

theorem port_is_released_at_home :
    ((run 100 homeOptions hangingUp answeringLine).1 = .interrupted ∧
      (run 100 homeOptions hangingUp answeringLine).2.rests = 2 ∧
      Accounted 100 homeOptions hangingUp answeringLine ScriptedLine.openAt) ∧
    (run 100 homeOptions undisturbed wiredLine).1 = .interrupted ∧
    (run 100 homeOptions undisturbed wiredLine).2.rests = 2 ∧
    Accounted 100 homeOptions undisturbed wiredLine WiredLine.openAt := by
  refine ⟨⟨by decide +kernel, by decide +kernel, ?_⟩, by decide +kernel, by decide +kernel, ?_⟩
  · refine port_is_released ScriptedLine.lawfulPorts ScriptedLine.closesWell rfl (fun i l hl => ?_) fun i l => ?_
    · change (if i = 1 then l.hangUp else l).closeFault? = none
      split
      · exact ScriptedLine.closeFault?_modify l _ (fun _ => rfl) hl
      · exact hl
    · change Fades ScriptedLine.openAt l (if i = 1 then l.hangUp else l)
      split
      · exact ScriptedLine.fades_modify l _ fun _ hp => by cases hp
      · exact .refl l
  · exact port_is_released WiredLine.lawfulPorts WiredLine.closesWell trivial (fun _ _ _ => trivial) fun _ l => .refl l

end StationLink.Service
