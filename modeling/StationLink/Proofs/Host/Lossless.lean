import StationLink.Proofs.Host.Calls
import StationLink.Proofs.Host.Channel
import StationLink.Proofs.Host.Windows

/-!
# The inbox loses nothing

Every window adds the data among its lines to the inbox, also the window of a call that fails on what
it has read, and only the taking of inbound data empties it. So what has been taken and what is in the
inbox are the data of all lines that windows have noted, each once and in order.
-/

namespace StationLink.Host

open Serial Protocol Channel

variable {σ τ α β : Type} [SerialLine σ τ] [TimeScale τ]

/-- The lines of all windows, in order; each has been noted as it was read. -/
def heard (h : Host σ) : List Text :=
  h.journal.reverse.filterMap Event.received?

/-- The states of a line whose reads raise no faults but those of input and output. -/
structure ReadsSafely (P : σ → Prop) : Prop where
  clock : ∀ {line : σ} (c : Clock τ), P line → P (SerialLine.setClock c line)
  openPort : ∀ {line : σ} (settings : PortSettings τ), P line → P (SerialLine.openPort settings line).2
  write : ∀ {line : σ} (bytes : Bytes), P line → P (SerialLine.write bytes line).2
  flush : ∀ {line : σ}, P line → P (SerialLine.flush line).2
  close : ∀ {line : σ}, P line → P (SerialLine.close line).2
  readLine : ∀ {line : σ}, P line → P (SerialLine.readLine line).2
  faults : ∀ {line : σ} {f : Fault}, P line → (SerialLine.readLine line).1 = .error f → f.isIo = true

/-- What has been taken and what is in the inbox, against what has been heard since some host: the lines
of windows that are over, and those of one that is not. -/
structure Account (P : σ → Prop) (start : Host σ) (taken before lines : List Text) (h : Host σ) : Prop where
  line : P h.line
  heard : h.heard = start.heard ++ (before ++ lines)
  inbox : taken ++ h.inbox = start.inbox ++ payloads before

/-- The account between two calls. -/
def Balanced (P : σ → Prop) (start : Host σ) (taken : List Text) (h : Host σ) : Prop :=
  ∃ before, Account P start taken before [] h

namespace Account

variable {P : σ → Prop} {start h h' : Host σ} {taken before lines : List Text}

theorem of_eq (ha : Account P start taken before lines h) (hline : P h'.line)
    (hjournal : h'.journal = h.journal) (hinbox : h'.inbox = h.inbox) :
    Account P start taken before lines h' := by
  refine ⟨hline, ?_, ?_⟩
  · rw [Host.heard, hjournal]
    exact ha.heard
  · rw [hinbox]
    exact ha.inbox

theorem note (e : Event) (h : Host σ) (he : e.received? = none) (ha : Account P start taken before lines h) :
    Account P start taken before lines { h with journal := e :: h.journal } := by
  refine ⟨ha.line, ?_, ha.inbox⟩
  rw [← ha.heard]
  simp [Host.heard, he]

/-- The lines of a window that is over are heard, and their data is in the inbox. -/
theorem settle (ha : Account P start taken before lines h) :
    Account P start taken (before ++ lines) [] { h with inbox := h.inbox ++ payloads lines } := by
  refine ⟨ha.line, ?_, ?_⟩
  · rw [List.append_nil]
    exact ha.heard
  · rw [payloads_append, ← List.append_assoc, ← List.append_assoc]
    exact congrArg (· ++ payloads lines) ha.inbox

theorem take (ha : Account P start taken before [] h) :
    Account P start (taken ++ h.inbox) before [] { h with inbox := [] } := by
  refine ⟨ha.line, ha.heard, ?_⟩
  rw [List.append_nil]
  exact ha.inbox

theorem balanced {c : Call σ α} (hc : ∀ before, Call.Keeps (Account P start taken before []) c) :
    Call.Keeps (Balanced P start taken) c := by
  rintro h ⟨before, ha⟩
  apply (hc before h ha).imp
  · exact fun _ _ ha' => ⟨before, ha'⟩
  · exact fun _ _ hfailed => hfailed.imp_right fun ha' => ⟨before, ha'⟩

variable (hP : ReadsSafely P)

include hP

theorem pause (d : τ) : Call.Keeps (Account P start taken before lines) (Call.pause d) :=
  Call.Keeps.change fun _ ha => ha.of_eq (hP.clock _ ha.line) rfl rfl

/-! ## The channel -/

theorem keeps_open (k : Link τ) : Call.Keeps (Account P start taken before []) (Channel.open (σ := σ) k) := by
  refine .look fun h => .branch (.ret _) (.bind (.attempt fun h ha => ?_) fun opened => ?_)
  · exact ha.of_eq (hP.openPort _ ha.line) rfl rfl
  · cases opened with
    | error f => exact .bind (.note note _ rfl) fun _ => .fail _
    | ok _ =>
      refine .bind (.change fun h ha => ha.of_eq ha.line rfl rfl) fun _ => ?_
      exact .bind (.note note _ rfl) fun _ => pause hP _

omit [TimeScale τ] in
theorem keeps_close (k : Link τ) : Call.Keeps (Account P start taken before []) (Channel.close (σ := σ) k) := by
  have hletGo : Call.Keeps (Account P start taken before []) (letGo (σ := σ)) :=
    .change fun h ha => ha.of_eq ha.line rfl rfl
  refine .look fun h => .branch (.branch (.bind (.attempt fun h ha => ?_) fun closed => ?_) hletGo) (.ret _)
  · exact ha.of_eq (hP.close ha.line) rfl rfl
  · refine .bind hletGo fun _ => ?_
    cases closed with
    | error f => exact .branch (.note note _ rfl) (.fail _)
    | ok _ => exact .note note _ rfl

theorem keeps_writeLine (k : Link τ) (text : Text) :
    Call.Keeps (Account P start taken before []) (writeLine (σ := σ) k text) := by
  have hfailure (f : Fault) : Call.Keeps (Account P start taken before []) (sendFailure (σ := σ) f) :=
    .branch (.bind (.note note _ rfl) fun _ => .fail _) (.fail _)
  refine .look fun h => .guarded (.bind (.note note _ rfl) fun _ => .bind (.attempt fun h ha => ?_) fun written => ?_)
  · exact ha.of_eq (hP.write _ ha.line) rfl rfl
  cases written with
  | error f => exact hfailure f
  | ok _ =>
    refine .bind (.attempt fun h ha => ha.of_eq (hP.flush ha.line) rfl rfl) fun flushed => ?_
    cases flushed with
    | error f => exact hfailure f
    | ok _ => exact pause hP _

/-- A read does not fail. -/
theorem readLine (ha : Account P start taken before lines h) :
    Call.Ends (fun _ h' => Account P start taken before lines h') (fun _ _ => False) (readLine h) := by
  cases ho : h.isOpen with
  | false =>
    rw [readLine_of_closed h ho]
    exact ha
  | true =>
    have hline := hP.readLine ha.line
    have hfaults (f : Fault) := hP.faults (f := f) ha.line
    rcases hread : SerialLine.readLine h.line with ⟨f | bytes, line⟩
    · rw [hread] at hline hfaults
      rw [readLine_of_fault h ho f line hread, hfaults f rfl]
      exact .of_eq (ha.note _ _ rfl) (hP.clock _ hline) rfl rfl
    · rw [hread] at hline
      rw [readLine_of_bytes h ho bytes line hread, takeLine_apply]
      split
      · exact ha.of_eq hline rfl rfl
      · exact ha.of_eq hline rfl rfl

omit [SerialLine σ τ] [TimeScale τ] hP in
/-- A line that has been read is heard as soon as it is noted. -/
theorem hear (ha : Account P start taken before lines h) (line : Option Text) :
    Account P start taken before (lines ++ line.toList.filter (· ≠ [])) (noted line h) := by
  have hnoted : (noted line h).heard = h.heard ++ line.toList.filter (· ≠ []) := by
    rcases line with _ | line
    · simp [noted, Host.heard]
    · by_cases hline : line = []
      · simp [noted, Host.heard, hline]
      · simp [noted, Host.heard, hline, Event.received?]
  refine ⟨ha.line, ?_, ha.inbox⟩
  rw [hnoted, ha.heard, List.append_assoc, List.append_assoc]

theorem window (k : Link τ) (duration : τ) (ha : Account P start taken before [] h) :
    Call.Ends (fun lines h' => Account P start taken before lines h')
      (fun f h' => f = .outOfPatience ∨ Account P start taken before [] h') (readLines k duration h) := by
  cases ho : h.isOpen with
  | false =>
    rw [readLines_of_closed k duration h ho]
    exact .inr ha
  | true =>
    rw [readLines_of_open k duration h ho]
    apply collect_ends_noted
    · intro lines h ha
      exact ha.of_eq (hP.clock _ ha.line) rfl rfl
    · intro lines h ha
      exact (ha.readLine hP).imp (fun line _ ha' => hear ha' line) fun _ _ hnever => hnever.elim
    · exact fun _ _ _ => .inl rfl
    · exact ha.of_eq (hP.clock _ ha.line) rfl rfl

end Account

/-! ## The bridge -/

namespace Balanced

variable {P : σ → Prop} {start h : Host σ} {taken : List Text}

theorem note (e : Event) (h : Host σ) (he : e.received? = none) (hs : Balanced P start taken h) :
    Balanced P start taken { h with journal := e :: h.journal } := by
  obtain ⟨before, ha⟩ := hs
  exact ⟨before, ha.note e h he⟩

theorem take (hs : Balanced P start taken h) :
    Balanced P start (taken ++ h.inbox) { h with inbox := [] } := by
  obtain ⟨before, ha⟩ := hs
  exact ⟨before, ha.take⟩

variable (hP : ReadsSafely P)

include hP

theorem keeps_readLines (k : Link τ) (duration : τ) :
    Call.Keeps (Balanced P start taken) (Client.readLines (σ := σ) k duration) := by
  rintro h ⟨before, ha⟩
  have hwindow := ha.window hP k duration
  rw [Client.readLines]
  rcases hrun : readLines k duration h with ⟨lines, h'⟩ | ⟨f, h'⟩
  · rw [hrun] at hwindow
    rw [Call.bind_of_ok hrun]
    exact ⟨before ++ lines, hwindow.settle⟩
  · rw [hrun] at hwindow
    rw [Call.bind_of_error hrun]
    exact hwindow.imp_right fun ha' => ⟨before, ha'⟩

theorem keeps_query (k : Link τ) (r : Request) :
    Call.Keeps (Balanced P start taken) (Client.query (σ := σ) k r) := by
  simp only [Client.query]
  cases r.line? with
  | none => exact .fail _
  | some line =>
    refine .bind (Account.balanced fun _ => Account.keeps_writeLine hP k line) fun _ => ?_
    cases r.verb.window? with
    | none => exact .ret _
    | some millis => exact keeps_readLines hP k _

theorem keeps_call (k : Link τ) (r : Request) :
    Call.Keeps (Balanced P start taken) (Client.call (σ := σ) k r) :=
  Client.keeps_call note k r (keeps_query hP k r)

theorem keeps_start (k : Link τ) : Call.Keeps (Balanced P start taken) (Client.start (σ := σ) k) :=
  .bind (Account.balanced fun _ => Account.keeps_open hP k) fun _ => .note note _ rfl

theorem keeps_callTo (k : Link τ) (host port : Text) :
    Call.Keeps (Balanced P start taken) (Client.tcpConnectTo (σ := σ) k host port) := by
  rw [Client.tcpConnectTo]
  split
  · exact keeps_call hP k (.tcpConnect host _)
  · exact .fail _

theorem takeInbound (hs : Balanced P start taken h) (k : Link τ) (duration : τ)
    (hpatience : (Client.takeInbound k duration).outcome h ≠ .error .outOfPatience) :
    Balanced P start (taken ++ returned ((Client.takeInbound k duration).outcome h))
      ((Client.takeInbound (σ := σ) k duration).after h) := by
  cases hwait : TimeScale.before TimeScale.zero duration && h.isOpen with
  | false =>
    rw [Call.outcome, Call.after, Client.takeInbound_at_once k duration h hwait]
    exact hs.take
  | true =>
    have hkept := keeps_readLines hP k duration h hs
    rcases Client.takeInbound_after_window k duration h hwait with
      ⟨lines, h', hwindow, hrun⟩ | ⟨f, h', hwindow, hrun⟩
    · rw [hwindow] at hkept
      rw [Call.outcome, Call.after, hrun]
      exact take hkept
    · rw [hwindow] at hkept
      rw [Call.outcome, hrun] at hpatience
      rw [Call.outcome, Call.after, hrun, returned, List.append_nil]
      rcases hkept with rfl | hkept
      · exact absurd rfl hpatience
      · exact hkept

end Balanced

/-! ## Errands -/

inductive Errand (τ : Type) where
  | start
  | close
  | sendLine (text : Text)
  | readLines (duration : τ)
  | request (r : Request)
  | callTo (host port : Text)
  | takeInbound (duration : τ)

/-- Does an errand, which returns what inbound data it takes. -/
def Errand.run (k : Link τ) : Errand τ → Call σ (List Text)
  | .start => do Client.start k; return []
  | .close => do Channel.close k; return []
  | .sendLine text => do Client.sendLine k text; return []
  | .readLines duration => do discard (Client.readLines k duration); return []
  | .request r => do Client.call k r; return []
  | .callTo host port => do Client.tcpConnectTo k host port; return []
  | .takeInbound duration => Client.takeInbound k duration

/-- What errands come to, one after the other, whether they fail or not, and the host they leave. -/
def runErrands (k : Link τ) : List (Errand τ) → Host σ → List (Except Failure (List Text)) × Host σ
  | [], h => ([], h)
  | e :: errands, h =>
    ((e.run k).outcome h :: (runErrands k errands ((e.run k).after h)).1,
      (runErrands k errands ((e.run k).after h)).2)

namespace Balanced

variable {P : σ → Prop} {start h : Host σ} {taken : List Text}

/-- An errand that takes no inbound data. -/
theorem idle {c : Call σ Unit} (hc : Call.Keeps (Balanced P start taken) c) (hs : Balanced P start taken h)
    (hpatience : (do c; return [] : Call σ (List Text)).outcome h ≠ .error .outOfPatience) :
    Balanced P start (taken ++ returned ((do c; return [] : Call σ (List Text)).outcome h))
      ((do c; return [] : Call σ (List Text)).after h) := by
  have hafter := Call.Keeps.after (.bind hc fun _ => .ret ([] : List Text)) hs hpatience
  have hnone : returned ((do c; return [] : Call σ (List Text)).outcome h) = [] :=
    returned_returning_nil c h
  rw [hnone, List.append_nil]
  exact hafter

theorem errand (hP : ReadsSafely P) (k : Link τ) (e : Errand τ) (hs : Balanced P start taken h)
    (hpatience : (e.run k).outcome h ≠ .error .outOfPatience) :
    Balanced P start (taken ++ returned ((e.run k).outcome h)) ((e.run k).after h) := by
  cases e with
  | start => exact idle (keeps_start hP k) hs hpatience
  | close => exact idle (Account.balanced fun _ => Account.keeps_close hP k) hs hpatience
  | sendLine text => exact idle (Account.balanced fun _ => Account.keeps_writeLine hP k text) hs hpatience
  | readLines duration => exact idle (.discard (keeps_readLines hP k duration)) hs hpatience
  | request r => exact idle (keeps_call hP k r) hs hpatience
  | callTo host port => exact idle (keeps_callTo hP k host port) hs hpatience
  | takeInbound duration => exact hs.takeInbound hP k duration hpatience

theorem errands (hP : ReadsSafely P) (k : Link τ) (errands : List (Errand τ))
    (hs : Balanced P start taken h)
    (hpatience : ∀ result ∈ (runErrands k errands h).1, givenUp result = false) :
    Balanced P start (taken ++ (runErrands k errands h).1.flatMap returned) (runErrands k errands h).2 := by
  induction errands generalizing h taken with
  | nil =>
    rw [runErrands, List.flatMap_nil, List.append_nil]
    exact hs
  | cons e errands ih =>
    have hfirst := hs.errand hP k e fun he => by
      have hup := hpatience _ List.mem_cons_self
      rw [he] at hup
      cases hup
    have hrest := ih hfirst fun result hresult => hpatience result (List.mem_cons_of_mem _ hresult)
    rw [runErrands, List.flatMap_cons, ← List.append_assoc]
    exact hrest

end Balanced

theorem Account.refl {P : σ → Prop} {h : Host σ} (hline : P h.line) : Account P h [] [] [] h :=
  ⟨hline, (List.append_nil _).symm, (List.append_nil _).symm⟩

/-- Whatever the errands are and whether they fail: what has been taken and what is in the inbox are what
was in it and the data of the lines heard meanwhile, in order. Lines are heard in windows, and a window
returns the lines that are heard in it. -/
theorem inbox_loses_nothing {P : σ → Prop} (hP : ReadsSafely P) (k : Link τ) (errands : List (Errand τ))
    (h : Host σ) (hline : P h.line)
    (hpatience : ∀ result ∈ (runErrands k errands h).1, givenUp result = false) :
    (∃ lines, (runErrands k errands h).2.heard = h.heard ++ lines ∧
      (runErrands k errands h).1.flatMap returned ++ (runErrands k errands h).2.inbox =
        h.inbox ++ payloads lines) ∧
    ∀ duration lines h', Channel.readLines k duration (runErrands k errands h).2 = .ok lines h' →
      h'.heard = (runErrands k errands h).2.heard ++ lines := by
  obtain ⟨lines, hend⟩ := Balanced.errands hP k errands ⟨[], .refl hline⟩ hpatience
  refine ⟨⟨lines, ?_, ?_⟩, ?_⟩
  · rw [hend.heard, List.append_nil]
  · exact hend.inbox
  · intro duration lines h' hrun
    have hwindow := (Account.refl hend.line).window hP k duration
    rw [hrun] at hwindow
    exact hwindow.heard

end StationLink.Host

/-! ## Scripted ports -/

namespace StationLink.Serial.ScriptedLine

open Host

variable {τ : Type} [TimeScale τ]

/-- No script holds another fault than those of input and output. -/
structure Safe (l : ScriptedLine τ) : Prop where
  scripts : ∀ script ∈ l.scripts, ∀ item ∈ script, item.fault.all Fault.isIo = true
  ports : ∀ p ∈ l.ports, ∀ item ∈ p.script, item.fault.all Fault.isIo = true

namespace Safe

variable {l : ScriptedLine τ}

omit [TimeScale τ]

theorem modify (h : l.Safe) (change : ScriptedPort τ → ScriptedPort τ)
    (hchange : ∀ p, l.ports.head? = some p → ∀ item ∈ (change p).script, item ∈ p.script) :
    (l.modify change).Safe := by
  refine ⟨h.scripts, ?_⟩
  obtain ⟨_, _, _, _ | ⟨p, ports⟩⟩ := l
  · exact h.ports
  · intro q hq item hitem
    rcases List.mem_cons.mp hq with rfl | hq
    · exact h.ports p List.mem_cons_self item (hchange p rfl item hitem)
    · exact h.ports q (List.mem_cons_of_mem p hq) item hitem

theorem openPort (h : l.Safe) (settings : PortSettings τ) : (l.openPort settings).2.Safe := by
  simp only [ScriptedLine.openPort]
  split
  · exact ⟨h.scripts, h.ports⟩
  · refine ⟨h.scripts, ?_⟩
    intro p hp
    rcases List.mem_cons.mp hp with rfl | hp
    · cases hscript : l.scripts[l.ports.length]? with
      | none => simp
      | some script => exact h.scripts script (List.mem_of_getElem? hscript)
    · exact h.ports p hp

theorem write (h : l.Safe) (bytes : Bytes) : (l.write bytes).2.Safe := by
  simp only [ScriptedLine.write]
  split
  · exact h
  · exact h.modify _ fun _ _ _ hitem => hitem

variable [TimeScale τ]

theorem readItem (h : l.Safe) (item : ScriptItem τ) (hitem : item.fault.all Fault.isIo = true) :
    (l.readItem item).2.Safe ∧ ∀ f, (l.readItem item).1 = .error f → f.isIo = true := by
  obtain ⟨wait, fault, hangUp, data⟩ := item
  have hslept (d : τ) : (l.sleep d).Safe := ⟨h.scripts, h.ports⟩
  cases fault with
  | some f =>
    refine ⟨?_, ?_⟩
    · cases wait with
      | none => exact h
      | some d => exact hslept d
    · rintro f' hf'
      obtain rfl := Except.error.inj hf'
      exact hitem
  | none =>
    refine ⟨?_, ?_⟩
    · cases hangUp with
      | false =>
        cases wait with
        | none => exact h
        | some d => exact hslept d
      | true =>
        cases wait with
        | none => exact h.modify _ fun _ _ _ hitem => hitem
        | some d => exact (hslept d).modify _ fun _ _ _ hitem => hitem
    · rintro f hf
      cases hf

theorem readLine (h : l.Safe) :
    l.readLine.2.Safe ∧ ∀ f, l.readLine.1 = .error f → f.isIo = true := by
  simp only [ScriptedLine.readLine]
  split
  · refine ⟨h, ?_⟩
    rintro f hf
    obtain rfl := Except.error.inj hf
    rfl
  · rename_i p ports hports
    split
    · exact ⟨⟨h.scripts, h.ports⟩, fun f hf => nomatch hf⟩
    · rename_i item script hscript
      have hitems := h.ports p (by rw [hports]; exact List.mem_cons_self)
      rw [hscript] at hitems
      apply readItem
      · apply h.modify
        intro q hq other hother
        obtain rfl : p = q := by simpa [hports] using hq
        rw [hscript]
        exact List.mem_cons_of_mem item hother
      · exact hitems item List.mem_cons_self

end Safe

theorem readsSafely_safe : ReadsSafely (σ := ScriptedLine τ) Safe where
  clock _ h := ⟨h.scripts, h.ports⟩
  openPort settings h := h.openPort settings
  write bytes h := h.write bytes
  flush h := h
  close h := h.modify _ fun _ _ _ hitem => hitem
  readLine h := h.readLine.1
  faults h hf := h.readLine.2 _ hf

end StationLink.Serial.ScriptedLine

namespace StationLink.Host

open Serial

/-- The first port faults in the middle of a line, refuses a join, and is closed with half a line
pending. -/
def troubled : Host (ScriptedLine Millis) where
  line :=
    { clock := .start ⟨1⟩
      scripts :=
        [[{ data := "TCPDATA:a\n".toUTF8.toList }, { data := "TCPD".toUTF8.toList },
            { wait := some ⟨5⟩, fault := some ⟨.system, []⟩ }, { data := "ATA:b\n".toUTF8.toList },
            { data := "ERROR:busy\n".toUTF8.toList }, { wait := some ⟨30000⟩, data := "TCPDATA:".toUTF8.toList }],
          [{ data := "TCPDATA:c\n".toUTF8.toList }, { data := "TCPDATA:d\n".toUTF8.toList }]] }

def mixedErrands : List (Errand Millis) :=
  [.start, .request (.connect "Home".toList []), .takeInbound ⟨0⟩, .readLines ⟨50⟩, .close, .sendLine [],
    .takeInbound ⟨10⟩, .start, .request .address, .callTo "h".toList "x".toList, .takeInbound ⟨0⟩]

theorem inbox_loses_nothing_of_troubled :
    (runErrands Channel.patientLink mixedErrands troubled).1.flatMap Channel.returned =
        ["a".toList, "b".toList, "c".toList, "d".toList] ∧
      (∃ lines, (runErrands Channel.patientLink mixedErrands troubled).2.heard = troubled.heard ++ lines ∧
        (runErrands Channel.patientLink mixedErrands troubled).1.flatMap Channel.returned ++
          (runErrands Channel.patientLink mixedErrands troubled).2.inbox =
            troubled.inbox ++ Protocol.payloads lines) ∧
      ∀ duration lines h', Channel.readLines Channel.patientLink duration
          (runErrands Channel.patientLink mixedErrands troubled).2 = .ok lines h' →
        h'.heard = (runErrands Channel.patientLink mixedErrands troubled).2.heard ++ lines := by
  have hsafe : troubled.line.Safe := ⟨by decide, fun p hp => nomatch hp⟩
  have hpatience : ∀ result ∈ (runErrands Channel.patientLink mixedErrands troubled).1,
      Channel.givenUp result = false := by decide +kernel
  refine ⟨by decide +kernel, ?_⟩
  exact inbox_loses_nothing ScriptedLine.readsSafely_safe Channel.patientLink mixedErrands troubled hsafe
    hpatience

end StationLink.Host
