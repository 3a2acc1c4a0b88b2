import StationLink.Proofs.Host.Lossless
import StationLink.Proofs.Host.Watching
import StationLink.Proofs.Protocol.Malformed

/-!
# The failures that callers are promised

On a line that raises no faults but those of input and output, requests fail with link failures only, as
long as their windows come to an end. What is read from a window adds one failure to these: that of a
number with too many digits.
-/

namespace StationLink.Host

open Serial Text Protocol Channel

variable {σ τ α β : Type} [SerialLine σ τ] [TimeScale τ]

/-- The states of a line that raises no faults but those of input and output. -/
structure RaisesIoOnly (P : σ → Prop) : Prop extends ReadsSafely P where
  writeFaults : ∀ {line : σ} {f : Fault} (bytes : Bytes), P line →
    (SerialLine.write bytes line).1 = .error f → f.isIo = true
  flushFaults : ∀ {line : σ} {f : Fault}, P line → (SerialLine.flush line).1 = .error f → f.isIo = true

/-- A failure that callers are promised, or that of a window without end. -/
def Failure.Promised (f : Failure) : Prop :=
  f.isLink = true ∨ f = .outOfPatience

namespace Call

/-- The call leaves the line in one of the states it found it in, and fails in promised ways only. -/
def Promises (P : σ → Prop) (c : Call σ α) : Prop :=
  ∀ h, P h.line → Ends (fun _ h' => P h'.line) (fun f h' => f.Promised ∧ P h'.line) (c h)

namespace Promises

variable {P : σ → Prop}

omit [SerialLine σ τ] [TimeScale τ]

theorem ret (a : α) : Promises P (pure a : Call σ α) := fun _ hline => hline

theorem fail {f : Failure} (hf : f.Promised) : Promises P (throw f : Call σ α) := fun _ hline => ⟨hf, hline⟩

theorem bind {c : Call σ α} {k : α → Call σ β} (hc : Promises P c) (hk : ∀ a, Promises P (k a)) :
    Promises P (c >>= k) := by
  intro h hline
  have hfirst := hc h hline
  rcases hrun : c h with ⟨a, h'⟩ | ⟨f, h'⟩
  · rw [hrun] at hfirst
    rw [bind_of_ok hrun]
    exact hk a h' hfirst
  · rw [hrun] at hfirst
    rw [bind_of_error hrun]
    exact hfirst

theorem look {c : Host σ → Call σ α} (hc : ∀ h, Promises P (c h)) : Promises P (get >>= c) :=
  fun h hline => hc h h hline

theorem change {f : Host σ → Host σ} (hf : ∀ h, P h.line → P (f h).line) : Promises P (modify f) :=
  fun h hline => hf h hline

theorem note (e : Event) : Promises P (Call.note e : Call σ Unit) := fun _ hline => hline

theorem branch {c d : Call σ α} {p : Prop} [Decidable p] (hc : Promises P c) (hd : Promises P d) :
    Promises P (if p then c else d) := by
  by_cases hp : p
  · rw [if_pos hp]
    exact hc
  · rw [if_neg hp]
    exact hd

/-- What follows an operation of the line may rely on its faults being those of input and output. -/
theorem attempt {f : σ → Except Fault α × σ} {k : Except Fault α → Call σ β}
    (hline : ∀ line, P line → P (f line).2)
    (hfaults : ∀ line e, P line → (f line).1 = .error e → e.isIo = true)
    (hok : ∀ a, Promises P (k (.ok a))) (hfault : ∀ e, e.isIo = true → Promises P (k (.error e))) :
    Promises P (Call.attempt f >>= k) := by
  intro h hP
  have hattempt := Call.attempt_apply f h
  rw [Call.bind_of_ok hattempt]
  cases hrun : (f h.line).1 with
  | error e => exact hfault e (hfaults h.line e hP hrun) _ (hline h.line hP)
  | ok a => exact hok a _ (hline h.line hP)

end Promises

end Call

/-! ## The channel -/

namespace RaisesIoOnly

open Call

variable {P : σ → Prop} (hP : RaisesIoOnly P)

include hP

theorem promises_pause (d : τ) : Promises P (Call.pause (σ := σ) d) :=
  .change fun _ hline => hP.clock _ hline

theorem promises_now : Promises P (Call.now : Call σ τ) :=
  fun _ hline => hP.clock _ hline

theorem promises_writeLine (k : Link τ) (text : Text) : Promises P (writeLine (σ := σ) k text) := by
  have hfailure (f : Fault) (hf : f.isIo = true) : Promises P (sendFailure (σ := σ) f) := by
    rw [sendFailure, if_pos hf]
    exact .bind (.note _) fun _ => .fail (.inl rfl)
  refine .look fun h => .branch (.bind (.fail (.inl rfl)) fun _ => ?_) ?_
  all_goals
    refine .bind (.note _) fun _ => .attempt (fun _ => hP.write _) (fun _ _ => hP.writeFaults _) ?_ hfailure
    refine fun _ => .attempt (fun _ => hP.flush) (fun _ _ => hP.flushFaults) ?_ hfailure
    exact fun _ => hP.promises_pause _

theorem promises_readLine : Promises P (Channel.readLine (σ := σ)) := by
  have htake : Promises P (takeLine (σ := σ)) :=
    .look fun _ => .branch (.bind (.change fun _ hline => hline) fun _ => .ret _) (.ret _)
  refine .look fun h => .branch (.ret _) (.attempt (fun _ => hP.readLine) (fun _ _ => hP.faults) ?_ ?_)
  · exact fun bytes => .bind (.change fun _ hline => hline) fun _ => htake
  · intro f hf
    simp only [hf, if_true]
    exact .bind (.note _) fun _ => .bind (hP.promises_pause _) fun _ => .ret _

theorem promises_collect (deadline : τ) (patience : Nat) (lines : List Text) :
    Promises P (collect (σ := σ) deadline patience lines) := by
  induction patience generalizing lines with
  | zero => exact .fail (.inr rfl)
  | succ patience ih =>
    refine .bind hP.promises_now fun time => .branch ?_ (.ret _)
    refine .bind hP.promises_readLine fun read => ?_
    cases read with
    | none => exact ih lines
    | some line => exact .branch (ih lines) (.bind (.note _) fun _ => ih _)

/-! ## Requests -/

theorem promises_query (k : Link τ) (r : Request) (hline : r.line?.isSome = true) :
    Promises P (Client.query (σ := σ) k r) := by
  obtain ⟨line, hline⟩ := Option.isSome_iff_exists.mp hline
  simp only [Client.query, hline]
  refine .bind (hP.promises_writeLine k line) fun _ => ?_
  cases r.verb.window? with
  | none => exact .ret _
  | some millis =>
    refine .bind (.look fun h => .branch (.bind (.fail (.inl rfl)) fun _ => ?_) ?_) fun lines =>
      .bind (.change fun _ hline => hline) fun _ => .ret _
    all_goals exact .bind hP.promises_now fun _ => hP.promises_collect _ _ _

theorem promises_connect (k : Link τ) (ssid password : Text) :
    Promises P (Client.connect (σ := σ) k ssid password) := by
  have hfailure (f : Failure) (hf : f.isLink = true) : Promises P (Client.fail (σ := σ) f) :=
    .bind (.note _) fun _ => .fail (.inl hf)
  refine .bind (.bind (hP.promises_query k _ rfl) fun lines => ?_) fun _ => .note _
  cases Verdict.ofLines ((Request.connect ssid password).verb.success?.getD []) lines with
  | ok line => exact .ret _
  | error line => exact hfailure _ rfl
  | timeout => exact hfailure _ rfl

end RaisesIoOnly

/-! ## What is read from a window -/

/-- The window of a request ends with a line of some kind among its lines. -/
def WindowHas (k : Link τ) (r : Request) (kind : Text → Prop) (h : Host σ) : Prop :=
  ∃ lines, (Client.query k r).outcome h = .ok lines ∧ ∃ line ∈ lines, kind line

/-- An outcome that is as promised, apart from the failure that overlong numbers bring about. -/
structure KeepsPromise (outcome : Except Failure α) (overlong : Prop) : Prop where
  promised : ∀ f, outcome = .error f → f.Promised ∨ f = .invalidNumber
  broken : outcome = .error .invalidNumber ↔ overlong

theorem not_promised_invalidNumber : ¬ Failure.invalidNumber.Promised := by
  rintro (h | h) <;> cases h

/-- An answer that is read from the window of a request, whatever its lines are, unless one is overlong. -/
theorem KeepsPromise.of_query {P : σ → Prop} (hP : RaisesIoOnly P) {c : Call σ α}
    {read? : List Text → Option α} {g : List Text → Except Failure α} {overlong : Text → Prop} {k : Link τ}
    {r : Request} {h : Host σ} (hline : P h.line) (hr : r.line?.isSome = true)
    (hc : c.outcome h = ((Client.query k r).outcome h).bind g)
    (hsome : ∀ lines answer, read? lines = some answer → g lines = .ok answer)
    (hnone : ∀ lines, read? lines = none → g lines = .error .invalidNumber)
    (hread : ∀ lines, (read? lines).isSome = true ↔ ∀ line ∈ lines, ¬ overlong line) :
    KeepsPromise (c.outcome h) (WindowHas k r overlong h) := by
  have hquery := hP.promises_query k r hr h hline
  rw [hc, WindowHas, Call.outcome]
  rcases hrun : Client.query k r h with ⟨lines, h'⟩ | ⟨f, h'⟩
  · have hlines := hread lines
    simp only [Except.bind, Except.ok.injEq, exists_eq_left']
    cases hanswer : read? lines with
    | some answer =>
      have hshort : ∀ line ∈ lines, ¬ overlong line := hlines.mp (by rw [hanswer]; rfl)
      rw [hsome lines answer hanswer]
      refine ⟨?_, ?_, ?_⟩
      · rintro f ⟨⟩
      · rintro ⟨⟩
      · rintro ⟨line, hmem, hover⟩
        exact absurd hover (hshort line hmem)
    | none =>
      rw [hnone lines hanswer]
      refine ⟨fun f hf => .inr (Except.error.inj hf).symm, fun _ => ?_, fun _ => rfl⟩
      have hlong : ¬ ∀ line ∈ lines, ¬ overlong line := fun hall => by
        have := hlines.mpr hall
        simp [hanswer] at this
      simpa using hlong
  · rw [hrun] at hquery
    refine ⟨?_, ?_, ?_⟩
    · rintro _ ⟨rfl⟩
      exact .inl hquery.1
    · rintro ⟨rfl⟩
      exact absurd hquery.1 not_promised_invalidNumber
    · rintro ⟨_, hlines, _⟩
      cases hlines

section

variable {P : σ → Prop} (hP : RaisesIoOnly P) (k : Link τ) {h : Host σ} (hline : P h.line)

include hP hline

theorem status_keepsPromise :
    KeepsPromise ((Client.status k).outcome h) (WindowHas k .status OverlongSignal h) :=
  .of_query hP hline rfl (outcome_status k h) (fun _ _ hs => by simp only [hs])
    (fun _ hs => by simp only [hs]) fun lines => (isSome_answers_iff lines).1

theorem survey_keepsPromise :
    KeepsPromise ((Client.survey k).outcome h) (WindowHas k .scan OverlongSighting h) :=
  .of_query hP hline rfl (outcome_survey k h) (fun _ _ hs => by simp only [hs])
    (fun _ hs => by simp only [hs]) fun lines => (isSome_answers_iff lines).2

theorem line_after_status : P ((Client.status (σ := σ) k).after h).line := by
  have hquery := hP.promises_query k .status rfl h hline
  rw [(Client.alike_status k h).line, Call.after]
  rcases hrun : Client.query k .status h with ⟨lines, h'⟩ | ⟨f, h'⟩
  · rw [hrun] at hquery
    exact hquery
  · rw [hrun] at hquery
    exact hquery.2

end

/-! ## The check -/

namespace Monitor

theorem rejoin_of_error (k : Link τ) (c : Credentials) {h h₁ : Host σ} {f : Failure}
    (hjoin : Client.connect k c.ssid c.password h = .error f h₁) (hf : f.isLink = false) :
    rejoin k c h = .error f h₁ := by
  have herror : (Client.connect k c.ssid c.password).orLinkFailure h = .error f h₁ := by
    rw [Call.orLinkFailure, hjoin]
    exact if_neg (by simp [hf])
  rw [rejoin, Call.bind_of_error herror]

theorem check_of_error (k : Link τ) (c : Credentials) {h h₁ : Host σ} {f : Failure}
    (hstatus : Client.status k h = .error f h₁) :
    check k c h =
      if f.isLink then .ok false { h₁ with journal := .checkFailed f :: h₁.journal } else .error f h₁ := by
  cases hf : f.isLink with
  | true =>
    have hvalue : (Client.status k).orLinkFailure h = .ok (.error f) h₁ := by
      rw [Call.orLinkFailure, hstatus]
      exact if_pos hf
    rw [check, Call.bind_of_ok hvalue]
    rfl
  | false =>
    have herror : (Client.status k).orLinkFailure h = .error f h₁ := by
      rw [Call.orLinkFailure, hstatus]
      exact if_neg (by simp [hf])
    rw [check, Call.bind_of_error herror]
    rfl

/-- A join for the monitor fails only if its window has no end. -/
theorem rejoin_failure {P : σ → Prop} (hP : RaisesIoOnly P) (k : Link τ) (c : Credentials) {h : Host σ}
    (hline : P h.line) {f : Failure} (hf : (rejoin (σ := σ) k c).outcome h = .error f) :
    f = .outOfPatience := by
  have hconnect := hP.promises_connect k c.ssid c.password h hline
  rw [Call.outcome] at hf
  rcases hjoin : Client.connect k c.ssid c.password h with ⟨_, h₁⟩ | ⟨f', h₁⟩
  · rw [rejoin_of_ok k c hjoin] at hf
    cases hf
  · rw [hjoin] at hconnect
    rcases hconnect.1 with hlink | rfl
    · rw [rejoin_of_linkFailure k c hjoin hlink] at hf
      cases hf
    · rw [rejoin_of_error k c hjoin rfl] at hf
      exact (Except.error.inj hf).symm

theorem check_failure {P : σ → Prop} (hP : RaisesIoOnly P) (k : Link τ) (c : Credentials) {h : Host σ}
    (hline : P h.line) :
    (∀ f, (check (σ := σ) k c).outcome h = .error f → f = .outOfPatience ∨ f = .invalidNumber) ∧
    ((check (σ := σ) k c).outcome h = .error .invalidNumber ↔ WindowHas k .status OverlongSignal h) := by
  have hstatus := status_keepsPromise hP k hline
  have hafter := line_after_status hP k hline
  rw [← hstatus.broken]
  have hpromised := hstatus.promised
  rw [Call.outcome] at hpromised ⊢
  rw [Call.outcome]
  rw [Call.after] at hafter
  rcases hrun : Client.status k h with ⟨s, h₁⟩ | ⟨f, h₁⟩
  · rw [hrun] at hafter
    rw [check_of_status k c hrun]
    cases hup : s.connected with
    | true =>
      refine ⟨?_, ?_, ?_⟩
      · rintro f ⟨⟩
      · rintro ⟨⟩
      · rintro ⟨⟩
    | false =>
      have hlost : P ({ h₁ with journal := .linkLost :: h₁.journal } : Host σ).line := hafter
      have hjoin {f : Failure} := rejoin_failure hP k c hlost (f := f)
      refine ⟨fun f hf => .inl (hjoin hf), fun hf => ?_, ?_⟩
      · cases hjoin hf
      · rintro ⟨⟩
  · rw [hrun] at hpromised
    rw [check_of_error k c hrun]
    rcases hpromised f rfl with (hlink | rfl) | rfl
    · rw [if_pos hlink]
      refine ⟨?_, ?_, fun hf => ?_⟩
      · rintro f ⟨⟩
      · rintro ⟨⟩
      · obtain rfl := Except.error.inj hf
        cases hlink
    · refine ⟨fun f hf => .inl (Except.error.inj hf).symm, ?_, ?_⟩
      · rintro ⟨⟩
      · rintro ⟨⟩
    · exact ⟨fun f hf => .inr (Except.error.inj hf).symm, fun _ => rfl, fun _ => rfl⟩

end Monitor

/-- On a line that raises no faults but those of input and output, whatever text it brings: malformed lines
are dropped, and status, survey and check fail in promised ways (the check in none of them but a window
without end), unless the window has a number with too many digits. Then there is no answer, and the check
fails with the status. -/
theorem answers_break_no_promise_but_overlong {P : σ → Prop} (hP : RaisesIoOnly P) (k : Link τ)
    (c : Credentials) (h : Host σ) (hline : P h.line) :
    (∀ lines, ((Status.ofLines? lines).isSome = true ↔ ∀ line ∈ lines, ¬ OverlongSignal line) ∧
      ((survey? lines).isSome = true ↔ ∀ line ∈ lines, ¬ OverlongSighting line)) ∧
    (∀ before line after, Malformed line →
      Status.ofLines? (before ++ line :: after) = Status.ofLines? (before ++ after) ∧
      survey? (before ++ line :: after) = survey? (before ++ after) ∧
      address? (before ++ line :: after) = address? (before ++ after) ∧
      payloads (before ++ line :: after) = payloads (before ++ after)) ∧
    KeepsPromise ((Client.status k).outcome h) (WindowHas k .status OverlongSignal h) ∧
    KeepsPromise ((Client.survey k).outcome h) (WindowHas k .scan OverlongSighting h) ∧
    (∀ f, (Monitor.check k c).outcome h = .error f → f = .outOfPatience ∨ f = .invalidNumber) ∧
    ((Monitor.check k c).outcome h = .error .invalidNumber ↔ WindowHas k .status OverlongSignal h) :=
  ⟨isSome_answers_iff, fun before _ after hmalformed => hmalformed.dropped before after,
    status_keepsPromise hP k hline, survey_keepsPromise hP k hline, Monitor.check_failure hP k c hline⟩

end StationLink.Host

/-! ## Scripted ports -/

namespace StationLink.Serial.ScriptedLine

open Host

variable {τ : Type}

/-- No script holds another fault than those of input and output, nor is one set for writes or flushes. -/
structure IoOnly (l : ScriptedLine τ) : Prop extends Safe l where
  faults : ∀ p ∈ l.ports, p.writeFault.all Fault.isIo = true ∧ p.flushFault.all Fault.isIo = true

namespace IoOnly

variable {l : ScriptedLine τ}

/-- Whatever keeps the faults of writes and flushes, port by port, keeps them all. -/
theorem of_ports {l' : ScriptedLine τ} (h : l.IoOnly) (hsafe : l'.Safe)
    (hports : ∀ p ∈ l'.ports, ∃ q ∈ l.ports, p.writeFault = q.writeFault ∧ p.flushFault = q.flushFault) :
    l'.IoOnly := by
  refine ⟨hsafe, fun p hp => ?_⟩
  obtain ⟨q, hq, hwrite, hflush⟩ := hports p hp
  rw [hwrite, hflush]
  exact h.faults q hq

theorem ports_modify (l : ScriptedLine τ) (change : ScriptedPort τ → ScriptedPort τ)
    (hchange : ∀ p, (change p).writeFault = p.writeFault ∧ (change p).flushFault = p.flushFault) :
    ∀ p ∈ (l.modify change).ports,
      ∃ q ∈ l.ports, p.writeFault = q.writeFault ∧ p.flushFault = q.flushFault := by
  obtain ⟨_, _, _, _ | ⟨newest, ports⟩⟩ := l
  · exact fun p hp => nomatch hp
  · intro p hp
    rcases List.mem_cons.mp hp with rfl | hp
    · exact ⟨newest, List.mem_cons_self, hchange newest⟩
    · exact ⟨p, List.mem_cons_of_mem newest hp, rfl, rfl⟩

theorem head_fault {fault : ScriptedPort τ → Option Fault} {f : Fault}
    (hall : ∀ p ∈ l.ports, (fault p).all Fault.isIo = true) (hf : l.ports.head?.bind fault = some f) :
    f.isIo = true := by
  obtain ⟨p, hp, hfault⟩ := Option.bind_eq_some_iff.mp hf
  have hio := hall p (List.mem_of_mem_head? hp)
  rw [hfault] at hio
  exact hio

/-- What a read leaves of the ports: their faults. -/
theorem ports_readLine [TimeScale τ] (l : ScriptedLine τ) :
    ∀ p ∈ l.readLine.2.ports,
      ∃ q ∈ l.ports, p.writeFault = q.writeFault ∧ p.flushFault = q.flushFault := by
  have hself (l : ScriptedLine τ) :
      ∀ p ∈ l.ports, ∃ q ∈ l.ports, p.writeFault = q.writeFault ∧ p.flushFault = q.flushFault :=
    fun p hp => ⟨p, hp, rfl, rfl⟩
  simp only [ScriptedLine.readLine]
  split
  · exact hself l
  · rename_i p ports hports
    split
    · exact hself (l.sleep _)
    · rename_i item script hscript
      have htaken := ports_modify l (fun p => { p with script }) fun _ => ⟨rfl, rfl⟩
      obtain ⟨wait, _ | f, _ | _, data⟩ := item
      case none.true =>
        have hclosed :
            ∀ p ∈ (modify ({ · with isOpen := false }) (l.modify fun p => { p with script })).ports,
            ∃ q ∈ l.ports, p.writeFault = q.writeFault ∧ p.flushFault = q.flushFault := by
          intro p hp
          obtain ⟨q, hq, hwrite, hflush⟩ :=
            ports_modify _ ({ · with isOpen := false }) (fun _ => ⟨rfl, rfl⟩) p hp
          obtain ⟨q', hq', hwrite', hflush'⟩ := htaken q hq
          exact ⟨q', hq', hwrite.trans hwrite', hflush.trans hflush'⟩
        cases wait with
        | none => exact hclosed
        | some d => exact hclosed
      all_goals
        cases wait with
        | none => exact htaken
        | some d => exact htaken

end IoOnly

theorem raisesIoOnly [TimeScale τ] : RaisesIoOnly (σ := ScriptedLine τ) IoOnly where
  clock clock h := ⟨readsSafely_safe.clock clock h.toSafe, h.faults⟩
  openPort {line} settings h := by
    have hsafe := readsSafely_safe.openPort settings h.toSafe
    refine ⟨hsafe, ?_⟩
    change ∀ p ∈ (ScriptedLine.openPort settings line).2.ports, _
    simp only [ScriptedLine.openPort]
    split
    · exact h.faults
    · exact List.forall_mem_cons.mpr ⟨⟨rfl, rfl⟩, h.faults⟩
  write {line} bytes h := by
    refine h.of_ports (readsSafely_safe.write bytes h.toSafe) ?_
    change ∀ p ∈ (ScriptedLine.write bytes line).2.ports, _
    simp only [ScriptedLine.write]
    split
    · exact fun p hp => ⟨p, hp, rfl, rfl⟩
    · exact IoOnly.ports_modify line _ fun _ => ⟨rfl, rfl⟩
  flush h := h
  close {line} h :=
    h.of_ports (readsSafely_safe.close h.toSafe) (IoOnly.ports_modify line _ fun _ => ⟨rfl, rfl⟩)
  readLine {line} h := h.of_ports (readsSafely_safe.readLine h.toSafe) (IoOnly.ports_readLine line)
  faults h hf := readsSafely_safe.faults h.toSafe hf
  writeFaults {line f} bytes h hf := by
    change (ScriptedLine.write bytes line).1 = .error f at hf
    simp only [ScriptedLine.write] at hf
    split at hf
    · rename_i fault hfault
      obtain rfl := Except.error.inj hf
      exact IoOnly.head_fault (fun p hp => (h.faults p hp).1) hfault
    · cases hf
  flushFaults {line f} h hf := by
    change orFault (line.ports.head?.bind ScriptedPort.flushFault) = .error f at hf
    cases hfault : line.ports.head?.bind ScriptedPort.flushFault with
    | none =>
      rw [hfault] at hf
      cases hf
    | some fault =>
      rw [hfault] at hf
      obtain rfl := Except.error.inj hf
      exact IoOnly.head_fault (fun p hp => (h.faults p hp).2) hfault

end StationLink.Serial.ScriptedLine

namespace StationLink.Host

open Serial

/-- Malformed lines and a fault among the lines of a status. -/
def muddled : Host (ScriptedLine Millis) :=
  (Client.start Channel.patientLink).after
    { line :=
        { clock := .start ⟨0⟩
          scripts :=
            [[{ data := "STATUS:CONNECTED\n".toUTF8.toList }, { data := "RSSI:weak\n".toUTF8.toList },
                { fault := some ⟨.system, []⟩ }, { data := "NETWORK:a:b\n".toUTF8.toList },
                { wait := some ⟨1000⟩, data := "RSSI: -45 dBm\n".toUTF8.toList }]] } }

theorem answers_break_no_promise_but_overlong_of_muddled :
    (Client.status Channel.patientLink).outcome muddled = .ok { connected := true, rssi := -45 } ∧
    KeepsPromise ((Client.status Channel.patientLink).outcome muddled)
      (WindowHas Channel.patientLink .status Protocol.OverlongSignal muddled) ∧
    KeepsPromise ((Client.survey Channel.patientLink).outcome muddled)
      (WindowHas Channel.patientLink .scan Protocol.OverlongSighting muddled) ∧
    ∀ f, (Monitor.check Channel.patientLink ⟨"Home".toList, []⟩).outcome muddled = .error f →
      f = .outOfPatience ∨ f = .invalidNumber := by
  have hio : muddled.line.IoOnly := ⟨⟨by decide +kernel, by decide +kernel⟩, by decide +kernel⟩
  obtain ⟨_, _, hstatus, hsurvey, hcheck, _⟩ := answers_break_no_promise_but_overlong
    ScriptedLine.raisesIoOnly Channel.patientLink ⟨"Home".toList, []⟩ muddled hio
  exact ⟨by decide +kernel, hstatus, hsurvey, hcheck⟩

end StationLink.Host
