import StationLink.Proofs.Serial.Recorded

/-!
# The calls of the channel, one equation each

What a call of the channel comes to at a given host, so that later proofs need not open it.
-/

namespace StationLink.Host

open Serial Text

variable {σ τ : Type} [SerialLine σ τ]

theorem isOpen_of_held {h : Host σ} (hheld : h.held = true) (hline : SerialLine.isOpen h.line = true) :
    h.isOpen = true := by
  rw [isOpen, hheld, hline]
  rfl

theorem isOpen_of_not_held {h : Host σ} (hheld : h.held = false) : h.isOpen = false := by
  rw [isOpen, hheld]
  rfl

namespace Channel

variable [TimeScale τ]

/-! ## Opening -/

theorem open_of_open (k : Link τ) (h : Host σ) (ho : h.isOpen = true) : «open» k h = .ok () h := by
  change (if h.isOpen then _ else _ : Call σ Unit) h = _
  rw [ho]
  rfl

theorem open_of_port (k : Link τ) (h : Host σ) (ho : h.isOpen = false) (line : σ)
    (hp : SerialLine.openPort k.settings.serial h.line = (.ok (), line)) :
    «open» k h =
      .ok ()
        { h with
          line := SerialLine.setClock
            ((SerialLine.clock line).sleep k.settings.settleDelay) line
          held := true
          pending := []
          journal := .portOpened k.settings.port k.settings.baudrate :: h.journal } := by
  change (if h.isOpen then _ else _ : Call σ Unit) h = _
  rw [ho]
  exact Call.bind_of_ok (Call.attempt_of_eq hp)

theorem open_of_fault (k : Link τ) (h : Host σ) (ho : h.isOpen = false) (f : Fault) (line : σ)
    (hp : SerialLine.openPort k.settings.serial h.line = (.error f, line)) :
    «open» k h =
      .error (.openFailed k.settings.port f) { h with line, journal := .openFailed f :: h.journal } := by
  change (if h.isOpen then _ else _ : Call σ Unit) h = _
  rw [ho]
  exact Call.bind_of_ok (Call.attempt_of_eq hp)

theorem open_eq_error_iff (k : Link τ) (h : Host σ) (e : Failure) :
    («open» (σ := σ) k).outcome h = .error e ↔
      h.isOpen = false ∧ ∃ f, (SerialLine.openPort k.settings.serial h.line).1 = .error f ∧
        e = .openFailed k.settings.port f := by
  cases ho : h.isOpen with
  | true =>
    rw [Call.outcome, open_of_open k h ho]
    simp
  | false =>
    rcases hport : SerialLine.openPort k.settings.serial h.line with ⟨f | _, line⟩
    · rw [Call.outcome, open_of_fault k h ho f line hport]
      simp [eq_comm]
    · rw [Call.outcome, open_of_port k h ho line hport]
      simp

/-! ## Closing -/

section

omit [TimeScale τ]

theorem close_of_not_held (k : Link τ) (h : Host σ) (hheld : h.held = false) : close k h = .ok () h := by
  change (if h.held then _ else _ : Call σ Unit) h = _
  rw [hheld]
  rfl

theorem close_of_gone (k : Link τ) (h : Host σ) (hheld : h.held = true)
    (hline : SerialLine.isOpen h.line = false) :
    close k h = .ok () { h with held := false, pending := [] } := by
  change (if h.held then if SerialLine.isOpen h.line then _ else _ else _ : Call σ Unit) h = _
  rw [hheld, hline]
  rfl

theorem close_of_port (k : Link τ) (h : Host σ) (ho : h.isOpen = true) (line : σ)
    (hc : SerialLine.close h.line = (.ok (), line)) :
    close k h =
      .ok ()
        { h with
          line
          held := false
          pending := []
          journal := .portClosed k.settings.port :: h.journal } := by
  obtain ⟨hheld, hline⟩ := Bool.and_eq_true_iff.mp ho
  change (if h.held then if SerialLine.isOpen h.line then _ else _ else _ : Call σ Unit) h = _
  rw [hheld, hline]
  exact Call.bind_of_ok (Call.attempt_of_eq hc)

theorem close_of_fault (k : Link τ) (h : Host σ) (ho : h.isOpen = true) (f : Fault) (line : σ)
    (hc : SerialLine.close h.line = (.error f, line)) :
    close k h =
      if f.isIo then
        .ok () { h with line, held := false, pending := [], journal := .closeFailed f :: h.journal }
      else .error (.invalid f) { h with line, held := false, pending := [] } := by
  obtain ⟨hheld, hline⟩ := Bool.and_eq_true_iff.mp ho
  have hclose : close k h = (if f.isIo then Call.note (.closeFailed f) else throw (.invalid f) :
      Call σ Unit) { h with line, held := false, pending := [] } := by
    change (if h.held then if SerialLine.isOpen h.line then _ else _ else _ : Call σ Unit) h = _
    rw [hheld, hline]
    exact Call.bind_of_ok (Call.attempt_of_eq hc)
  rw [hclose]
  cases f.isIo <;> rfl

/-- The host lets go of an open port, whether closing fails or not. -/
theorem after_close (k : Link τ) (h : Host σ) (ho : h.isOpen = true) :
    ∃ journal, (close (σ := σ) k).after h =
      { h with line := (SerialLine.close h.line).2, held := false, pending := [], journal } := by
  rcases hc : SerialLine.close h.line with ⟨f | _, line⟩
  · rw [Call.after, close_of_fault k h ho f line hc]
    cases f.isIo with
    | true => exact ⟨_, rfl⟩
    | false => exact ⟨_, rfl⟩
  · rw [Call.after, close_of_port k h ho line hc]
    exact ⟨_, rfl⟩

theorem held_after_close (k : Link τ) (h : Host σ) : ((close (σ := σ) k).after h).held = false := by
  cases hheld : h.held with
  | false => rw [Call.after, close_of_not_held k h hheld, Call.left, hheld]
  | true =>
    cases hline : SerialLine.isOpen h.line with
    | false => rw [Call.after, close_of_gone k h hheld hline, Call.left]
    | true =>
      obtain ⟨journal, hclose⟩ := after_close k h (isOpen_of_held hheld hline)
      rw [hclose]

end

/-! ## Writing -/

theorem writeLine_of_closed (k : Link τ) (text : Text) (h : Host σ) (ho : h.isOpen = false) :
    writeLine k text h = .error .notConnected h := by
  change (if !h.isOpen then _ else _ : Call σ Unit) h = _
  rw [ho]
  rfl

theorem writeLine_of_open (k : Link τ) (text : Text) (h : Host σ) (ho : h.isOpen = true) :
    writeLine k text h =
      ((do
        Call.note (.sending text)
        match ← Call.attempt (SerialLine.write (Utf8.encode text ++ [lineFeed])) with
        | .error f => sendFailure f
        | .ok _ =>
          match ← Call.attempt SerialLine.flush with
          | .error f => sendFailure f
          | .ok _ => Call.pause k.settings.commandDelay : Call σ Unit)) h := by
  change (if !h.isOpen then _ else _ : Call σ Unit) h = _
  rw [ho]
  rfl

theorem writeLine_of_ok (k : Link τ) (text : Text) (h : Host σ) (ho : h.isOpen = true)
    (written flushed : σ)
    (hw : SerialLine.write (Utf8.encode text ++ [lineFeed]) h.line = (.ok (), written))
    (hf : SerialLine.flush written = (.ok (), flushed)) :
    writeLine k text h =
      .ok ()
        { h with
          line := SerialLine.setClock
            ((SerialLine.clock flushed).sleep k.settings.commandDelay) flushed
          journal := .sending text :: h.journal } := by
  have hwrite := Call.attempt_of_eq (h := { h with journal := .sending text :: h.journal }) hw
  have hflush :=
    Call.attempt_of_eq (h := { h with line := written, journal := .sending text :: h.journal }) hf
  rw [writeLine_of_open k text h ho, Call.bind_of_ok (Call.note_apply _ h), Call.bind_of_ok hwrite]
  exact Call.bind_of_ok hflush

/-- Whether it is sent or not, a text changes the line and the journal only; the line stays in any state
that writes, flushes and pauses keep it in. -/
theorem after_writeLine {P : σ → Prop} (hclock : ∀ clock line, P line → P (SerialLine.setClock clock line))
    (hwrite : ∀ bytes line, P line → P (SerialLine.write bytes line).2)
    (hflush : ∀ line, P line → P (SerialLine.flush line).2) (k : Link τ) (text : Text) (h : Host σ)
    (hP : P h.line) :
    ∃ line journal, (writeLine (σ := σ) k text).after h = { h with line, journal } ∧ P line := by
  have hfailure (f : Fault) (h : Host σ) :
      ∃ journal, (sendFailure (σ := σ) f).after h = { h with journal } := by
    rw [Call.after, sendFailure]
    cases f.isIo with
    | true => exact ⟨_, rfl⟩
    | false => exact ⟨_, rfl⟩
  cases ho : h.isOpen with
  | false =>
    rw [Call.after, writeLine_of_closed k text h ho]
    exact ⟨h.line, h.journal, rfl, hP⟩
  | true =>
    rcases hw : SerialLine.write (Utf8.encode text ++ [lineFeed]) h.line with ⟨written, line⟩
    have hline := hwrite (Utf8.encode text ++ [lineFeed]) h.line hP
    rw [hw] at hline
    have hattempt := Call.attempt_of_eq (h := { h with journal := .sending text :: h.journal }) hw
    rw [Call.after, writeLine_of_open k text h ho, Call.bind_of_ok (Call.note_apply _ h),
      Call.bind_of_ok hattempt]
    cases written with
    | error f =>
      obtain ⟨journal, hfailed⟩ := hfailure f { h with line, journal := .sending text :: h.journal }
      exact ⟨line, journal, hfailed, hline⟩
    | ok _ =>
      rcases hf : SerialLine.flush line with ⟨flushed, line'⟩
      have hline' := hflush line hline
      rw [hf] at hline'
      have hattempt := Call.attempt_of_eq (h := { h with line, journal := .sending text :: h.journal }) hf
      dsimp only
      rw [Call.bind_of_ok hattempt]
      cases flushed with
      | error f =>
        obtain ⟨journal, hfailed⟩ :=
          hfailure f { h with line := line', journal := .sending text :: h.journal }
        exact ⟨line', journal, hfailed, hline'⟩
      | ok _ => exact ⟨_, _, rfl, hclock _ _ hline'⟩

/-! ## Reading -/

/-- The host after a read that failed: the fault is noted and the delay has passed. -/
def afterReadFault (f : Fault) (h : Host σ) : Host σ :=
  { h with
    journal := .readFailed f :: h.journal
    line := SerialLine.setClock
      ((SerialLine.clock h.line).sleep (TimeScale.ofMillis backOff)) h.line }

theorem takeLine_apply (h : Host σ) :
    takeLine h =
      if h.pending.getLast? = some lineFeed then
        .ok (some (trim (Utf8.decode h.pending))) { h with pending := [] }
      else .ok none h := by
  change (if h.pending.getLast? = some lineFeed then _ else _ : Call σ (Option Text)) h = _
  split <;> rfl

theorem takeLine_of_line (h : Host σ) (body : Bytes) (hp : h.pending = body ++ [lineFeed]) :
    takeLine h = .ok (some (trim (Utf8.decode (body ++ [lineFeed])))) { h with pending := [] } := by
  have hlast : h.pending.getLast? = some lineFeed := by rw [hp, List.getLast?_concat]
  rw [takeLine_apply, if_pos hlast, hp]

theorem takeLine_of_unended (h : Host σ) (hp : lineFeed ∉ h.pending) : takeLine h = .ok none h := by
  have hlast : ¬ h.pending.getLast? = some lineFeed := fun hl => hp (List.mem_of_getLast? hl)
  rw [takeLine_apply, if_neg hlast]

theorem line_after_takeLine (h : Host σ) : ((takeLine (σ := σ)).after h).line = h.line := by
  rw [Call.after, takeLine_apply]
  split <;> rfl

theorem readLine_of_closed (h : Host σ) (ho : h.isOpen = false) : readLine h = .ok none h := by
  change (if !h.isOpen then _ else _ : Call σ (Option Text)) h = _
  rw [ho]
  rfl

theorem readLine_of_open (h : Host σ) (ho : h.isOpen = true) :
    readLine h =
      (Call.attempt SerialLine.readLine >>= fun read =>
        match read with
        | .error f =>
          if f.isIo then do
            Call.note (.readFailed f)
            Call.pause (TimeScale.ofMillis backOff)
            return none
          else throw (.invalid f)
        | .ok bytes => do
          modify fun h => { h with pending := h.pending ++ bytes }
          takeLine : Call σ (Option Text)) h := by
  change (if !h.isOpen then _ else _ : Call σ (Option Text)) h = _
  rw [ho]
  rfl

theorem readLine_of_fault (h : Host σ) (ho : h.isOpen = true) (f : Fault) (line : σ)
    (hr : SerialLine.readLine h.line = (.error f, line)) :
    readLine h =
      if f.isIo then .ok none (afterReadFault f { h with line })
      else .error (.invalid f) { h with line } := by
  rw [readLine_of_open h ho, Call.bind_of_ok (Call.attempt_of_eq hr)]
  change (if f.isIo then _ else _ : Call σ (Option Text)) { h with line } = _
  cases f.isIo <;> rfl

theorem readLine_of_bytes (h : Host σ) (ho : h.isOpen = true) (bytes : Bytes) (line : σ)
    (hr : SerialLine.readLine h.line = (.ok bytes, line)) :
    readLine h = takeLine { h with line, pending := h.pending ++ bytes } := by
  rw [readLine_of_open h ho]
  exact Call.bind_of_ok (Call.attempt_of_eq hr)

/-- A read changes the line, what is pending and the journal only; the line stays in any state that reads
and pauses keep it in. -/
theorem after_readLine {P : σ → Prop} (hclock : ∀ clock line, P line → P (SerialLine.setClock clock line))
    (hread : ∀ line, P line → P (SerialLine.readLine line).2) (h : Host σ) (hP : P h.line) :
    ∃ line pending journal, (readLine (σ := σ)).after h = { h with line, pending, journal } ∧ P line := by
  cases ho : h.isOpen with
  | false =>
    rw [Call.after, readLine_of_closed h ho]
    exact ⟨h.line, h.pending, h.journal, rfl, hP⟩
  | true =>
    have hline := hread h.line hP
    rcases hrun : SerialLine.readLine h.line with ⟨f | bytes, line⟩
    · rw [hrun] at hline
      rw [Call.after, readLine_of_fault h ho f line hrun]
      cases f.isIo with
      | true => exact ⟨_, _, _, rfl, hclock _ _ hline⟩
      | false => exact ⟨_, _, _, rfl, hline⟩
    · rw [hrun] at hline
      rw [Call.after, readLine_of_bytes h ho bytes line hrun, takeLine_apply]
      split
      · exact ⟨_, _, _, rfl, hline⟩
      · exact ⟨_, _, _, rfl, hline⟩

/-! ## Windows -/

def afterNow (h : Host σ) : Host σ :=
  { h with line := SerialLine.setClock (SerialLine.clock h.line).read.2 h.line }

theorem collect_of_late (deadline : τ) (patience : Nat) (lines : List Text) (h : Host σ)
    (hlate : TimeScale.before (SerialLine.clock h.line).now deadline = false) :
    collect deadline (patience + 1) lines h = .ok lines (afterNow h) := by
  change (if TimeScale.before (SerialLine.clock h.line).now deadline then _ else _ :
    Call σ (List Text)) (afterNow h) = _
  rw [hlate]
  rfl

def goOn (deadline : τ) (patience : Nat) (lines : List Text) :
    EStateM.Result Failure (Host σ) (Option Text) → EStateM.Result Failure (Host σ) (List Text)
  | .error f h => .error f h
  | .ok none h => collect deadline patience lines h
  | .ok (some line) h =>
    if line = [] then collect deadline patience lines h
    else collect deadline patience (lines ++ [line]) { h with journal := .received line :: h.journal }

theorem collect_of_early (deadline : τ) (patience : Nat) (lines : List Text) (h : Host σ)
    (hearly : TimeScale.before (SerialLine.clock h.line).now deadline = true) :
    collect deadline (patience + 1) lines h = goOn deadline patience lines (readLine (afterNow h)) := by
  change (if TimeScale.before (SerialLine.clock h.line).now deadline then _ else _ :
    Call σ (List Text)) (afterNow h) = _
  rw [hearly]
  change (readLine >>= _ : Call σ (List Text)) (afterNow h) = _
  rcases hread : readLine (afterNow h) with ⟨_ | line, h'⟩ | ⟨f, h'⟩
  · exact Call.bind_of_ok hread
  · rw [Call.bind_of_ok hread]
    change (if line = [] then _ else _ : Call σ (List Text)) h' = _
    simp only [goOn]
    split <;> rfl
  · exact Call.bind_of_error hread

/-- The host once a line that has been read is noted; blank lines are not. -/
def noted (line : Option Text) (h : Host σ) : Host σ :=
  { h with journal := (line.toList.filter (· ≠ [])).map Event.received ++ h.journal }

/-- Whatever looks at the clock keep, and reads with the note of what they have read, a window keeps. -/
theorem collect_ends_noted {I : List Text → Host σ → Prop} {E : Failure → Host σ → Prop}
    (hnow : ∀ lines h, I lines h → I lines (afterNow h))
    (hread : ∀ lines h, I lines h →
      Call.Ends (fun line h' => I (lines ++ line.toList.filter (· ≠ [])) (noted line h')) E (readLine h))
    (hpatience : ∀ lines h, I lines h → E .outOfPatience h) (deadline : τ) (patience : Nat)
    (lines : List Text) (h : Host σ) (hI : I lines h) :
    Call.Ends I E (collect deadline patience lines h) := by
  induction patience generalizing lines h with
  | zero => exact hpatience lines h hI
  | succ patience ih =>
    cases hclock : TimeScale.before (SerialLine.clock h.line).now deadline with
    | false =>
      rw [collect_of_late deadline patience lines h hclock]
      exact hnow lines h hI
    | true =>
      have hkept := hread lines _ (hnow lines h hI)
      rw [collect_of_early deadline patience lines h hclock]
      generalize readLine (afterNow h) = read at hkept
      rcases read with ⟨_ | line, h'⟩ | ⟨f, h'⟩
      · have hsame : I lines h' := by simpa [Call.Ends, noted] using hkept
        exact ih lines h' hsame
      · simp only [goOn]
        by_cases hline : line = []
        · have hsame : I lines h' := by simpa [Call.Ends, noted, hline] using hkept
          rw [if_pos hline]
          exact ih lines h' hsame
        · have hmore : I (lines ++ [line]) { h' with journal := .received line :: h'.journal } := by
            simpa [Call.Ends, noted, hline] using hkept
          rw [if_neg hline]
          exact ih (lines ++ [line]) _ hmore
      · exact hkept

/-- Whatever reads, notes and looks at the clock keep, a window keeps. -/
theorem collect_ends {I : List Text → Host σ → Prop} {E : Failure → Host σ → Prop}
    (hnow : ∀ lines h, I lines h → I lines (afterNow h))
    (hnote : ∀ lines line h, I lines h → I lines { h with journal := .received line :: h.journal })
    (hread : ∀ lines h, I lines h →
      Call.Ends (fun line h' => I (lines ++ line.toList.filter (· ≠ [])) h') E (readLine h))
    (hpatience : ∀ lines h, I lines h → E .outOfPatience h) (deadline : τ) (patience : Nat)
    (lines : List Text) (h : Host σ) (hI : I lines h) :
    Call.Ends I E (collect deadline patience lines h) := by
  have hnoted (noted : List Text) (lines : List Text) (h : Host σ) (hI : I lines h) :
      I lines { h with journal := noted.map Event.received ++ h.journal } := by
    induction noted with
    | nil => exact hI
    | cons line noted ih => exact hnote lines line _ ih
  apply collect_ends_noted hnow ?_ hpatience deadline patience lines h hI
  exact fun lines h hI => (hread lines h hI).imp (fun _ h' hI' => hnoted _ _ h' hI') fun _ _ hE => hE

theorem readLines_of_closed (k : Link τ) (duration : τ) (h : Host σ) (ho : h.isOpen = false) :
    readLines k duration h = .error .notConnected h := by
  change (if !h.isOpen then _ else _ : Call σ (List Text)) h = _
  rw [ho]
  rfl

theorem readLines_of_open (k : Link τ) (duration : τ) (h : Host σ) (ho : h.isOpen = true) :
    readLines k duration h =
      collect (TimeScale.add (SerialLine.clock h.line).now duration) k.patience [] (afterNow h) := by
  change (if !h.isOpen then _ else _ : Call σ (List Text)) h = _
  rw [ho]
  rfl

theorem after_readLines {P : σ → Prop} (hclock : ∀ clock line, P line → P (SerialLine.setClock clock line))
    (hread : ∀ line, P line → P (SerialLine.readLine line).2) (k : Link τ) (duration : τ) (h : Host σ)
    (hP : P h.line) :
    ∃ line pending journal, (readLines (σ := σ) k duration).after h = { h with line, pending, journal } ∧
      P line := by
  cases ho : h.isOpen with
  | false =>
    rw [Call.after, readLines_of_closed k duration h ho]
    exact ⟨h.line, h.pending, h.journal, rfl, hP⟩
  | true =>
    rw [Call.after, readLines_of_open k duration h ho]
    apply Call.ends_iff_after (P := fun h' =>
      ∃ line pending journal, h' = { h with line, pending, journal } ∧ P line).mp
    apply collect_ends
    · rintro _ _ ⟨line, pending, journal, rfl, hline⟩
      exact ⟨_, pending, journal, rfl, hclock _ _ hline⟩
    · rintro _ text _ ⟨line, pending, journal, rfl, hline⟩
      exact ⟨line, pending, .received text :: journal, rfl, hline⟩
    · rintro _ h' ⟨line, pending, journal, rfl, hline⟩
      apply Call.ends_iff_after.mpr
      exact after_readLine hclock hread { h with line, pending, journal } hline
    · exact fun _ _ hI => hI
    · exact ⟨_, h.pending, h.journal, rfl, hclock _ _ hP⟩

end Channel

end StationLink.Host
