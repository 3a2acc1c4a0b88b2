import StationLink.Proofs.Board.Codec
import StationLink.Proofs.Host.Agreement
import StationLink.Proofs.Host.Lossless
import StationLink.Proofs.Serial.Unwritten

/-!
# Calls whose line is not sent

A call whose line cannot be written leaves no trace but in the journal: nothing is read, no time passes,
and what the host holds stays as it is. So later calls return what they would have returned without it.
-/

namespace StationLink.Host

open Serial Text Protocol Channel

variable {σ τ : Type}

/-! ## Sending -/

/-- A call that sends one line before it does anything else. -/
inductive Sending where
  | line (text : Text)
  | request (r : Request)
  | callTo (host port : Text)

def Sending.line? : Sending → Option Text
  | .line text => some text
  | .request r => r.line?
  | .callTo host port => (Numeral.strict? port).bind fun n => (Request.tcpConnect host n).line?

theorem Sending.line?_eq_none_iff (c : Sending) :
    c.line? = none ↔
      (∃ host port, c = .request (.tcpConnect host port) ∧ Nat.pow 10 Numeral.limit ≤ port.natAbs) ∨
      ∃ host port, c = .callTo host port ∧ Numeral.strict? port = none := by
  cases c with
  | line text => simp [line?]
  | request r => simp [line?, r.line?_eq_none_iff]
  | callTo host port =>
    cases hn : Numeral.strict? port with
    | none => exact iff_of_true (by rw [line?, hn]; rfl) (.inr ⟨host, port, rfl, hn⟩)
    | some n =>
      obtain ⟨number, hnumber⟩ := Numeral.exists_write?_of_strict? port n hn
      have hline := Request.line?_tcpConnect host number n hnumber
      refine iff_of_false (by simp [line?, hn, hline]) ?_
      rintro (⟨_, _, hcall, _⟩ | ⟨_, _, hcall, hnone⟩)
      · cases hcall
      · cases hcall
        cases hn.symm.trans hnone

/-- The port is closed, or writing the text or flushing it has a fault of input or output; with the failure
that this comes to, and with what the port leaves of the line. -/
inductive Unsent [SerialLine σ τ] (text : Text) (h : Host σ) : Failure → σ → Prop
  | shut (hshut : h.isOpen = false) : Unsent text h .notConnected h.line
  | unwritten {f : Fault} {line : σ} (hopen : h.isOpen = true) (hio : f.isIo = true)
      (hwrite : SerialLine.write (Utf8.encode text ++ [lineFeed]) h.line = (.error f, line)) :
      Unsent text h (.sendFailed f) line
  | unflushed {f : Fault} {written line : σ} (hopen : h.isOpen = true) (hio : f.isIo = true)
      (hwrite : SerialLine.write (Utf8.encode text ++ [lineFeed]) h.line = (.ok (), written))
      (hflush : SerialLine.flush written = (.error f, line)) : Unsent text h (.sendFailed f) line

section

variable [SerialLine σ τ] [TimeScale τ]

def Sending.run (k : Link τ) : Sending → Call σ Unit
  | .line text => Client.sendLine k text
  | .request r => Client.call k r
  | .callTo host port => Client.tcpConnectTo k host port

namespace Sending

theorem run_of_writeLine_error (k : Link τ) (c : Sending) {text : Text} (hline : c.line? = some text)
    {h h₁ : Host σ} {f : Failure} (hsend : writeLine k text h = .error f h₁) : c.run k h = .error f h₁ := by
  have hcall (r : Request) (hr : r.line? = some text) : Client.call k r h = .error f h₁ := by
    apply Client.call_of_query_error
    rw [Client.query, hr]
    exact Call.bind_of_error hsend
  cases c with
  | line text' =>
    obtain rfl := Option.some.inj hline
    exact hsend
  | request r => exact hcall r hline
  | callTo host port =>
    obtain ⟨n, hn, hr⟩ := Option.bind_eq_some_iff.mp hline
    rw [run, Client.tcpConnectTo, hn]
    exact hcall _ hr

theorem run_of_unwritable (k : Link τ) (c : Sending) (h : Host σ) (hline : c.line? = none) :
    c.run k h = .error .invalidNumber h := by
  cases c with
  | line text => cases hline
  | request r => exact Client.call_of_no_line k r h hline
  | callTo host port =>
    rw [run, Client.tcpConnectTo]
    cases hn : Numeral.strict? port with
    | none => rfl
    | some n =>
      rw [line?, hn] at hline
      exact Client.call_of_no_line k _ h hline

end Sending

namespace Unsent

variable {text : Text} {h : Host σ} {f : Failure} {line : σ}

omit [TimeScale τ] in
theorem isTransport (hu : Unsent text h f line) : f.isTransport = true := by
  cases hu <;> rfl

theorem writeLine (hu : Unsent text h f line) (k : Link τ) :
    ∃ journal, Channel.writeLine k text h = .error f { h with line, journal } := by
  have hfailure (e : Fault) (he : e.isIo = true) (h : Host σ) : Channel.sendFailure e h =
      .error (.sendFailed e) { h with journal := .sendFailed e :: h.journal } := by
    rw [sendFailure, if_pos he]
    rfl
  cases hu with
  | shut hshut => exact ⟨h.journal, writeLine_of_closed k text h hshut⟩
  | @unwritten e _ hopen hio hwrite =>
    have hwritten := Call.attempt_of_eq (h := { h with journal := .sending text :: h.journal }) hwrite
    refine ⟨.sendFailed e :: .sending text :: h.journal, ?_⟩
    rw [writeLine_of_open k text h hopen, Call.bind_of_ok (Call.note_apply _ h), Call.bind_of_ok hwritten]
    exact hfailure e hio { h with line, journal := .sending text :: h.journal }
  | @unflushed e written _ hopen hio hwrite hflush =>
    have hwritten := Call.attempt_of_eq (h := { h with journal := .sending text :: h.journal }) hwrite
    have hflushed :=
      Call.attempt_of_eq (h := { h with line := written, journal := .sending text :: h.journal }) hflush
    refine ⟨.sendFailed e :: .sending text :: h.journal, ?_⟩
    rw [writeLine_of_open k text h hopen, Call.bind_of_ok (Call.note_apply _ h), Call.bind_of_ok hwritten]
    dsimp only
    rw [Call.bind_of_ok hflushed]
    exact hfailure e hio { h with line, journal := .sending text :: h.journal }

omit [TimeScale τ] in
theorem clock (hu : Unsent text h f line)
    (hwrite : ∀ bytes (line : σ), SerialLine.clock (SerialLine.write bytes line).2 = SerialLine.clock line)
    (hflush : ∀ line : σ, SerialLine.clock (SerialLine.flush line).2 = SerialLine.clock line) :
    SerialLine.clock line = SerialLine.clock h.line := by
  cases hu with
  | shut _ => rfl
  | unwritten _ _ hw =>
    have hkept := hwrite (Utf8.encode text ++ [lineFeed]) h.line
    rw [hw] at hkept
    exact hkept
  | @unflushed _ written _ _ _ hw hf =>
    have hkept := hwrite (Utf8.encode text ++ [lineFeed]) h.line
    have hkept' := hflush written
    rw [hw] at hkept
    rw [hf] at hkept'
    exact hkept'.trans hkept

omit [TimeScale τ] in
theorem recorded (hu : Unsent text h f line) : Unsent (σ := Recorded σ) text h.recorded f { line } := by
  have hbeside {op : σ → Except Fault Unit × σ} {l m : σ} {outcome : Except Fault Unit}
      (hop : op l = (outcome, m)) : Recorded.lift op { line := l } = (outcome, { line := m }) :=
    congrArg (fun p : Except Fault Unit × σ => (p.1, ({ line := p.2 } : Recorded σ))) hop
  cases hu with
  | shut hshut => exact .shut hshut
  | unwritten hopen hio hwrite => exact .unwritten hopen hio (hbeside hwrite)
  | unflushed hopen hio hwrite hflush => exact .unflushed hopen hio (hbeside hwrite) (hbeside hflush)

end Unsent

/-- What a call comes to whose line is not sent: the failure, and nothing that the line does not bring about
by itself. -/
structure Traceless (k : Link τ) (c : Sending) (h : Host σ) (f : Failure) (line : σ) : Prop where
  run : ∃ journal, c.run k h = .error f { h with line, journal }
  transport : f.isTransport = true
  reads : Call.reads (c.run k) h = []
  clock : (∀ bytes (line : σ), SerialLine.clock (SerialLine.write bytes line).2 = SerialLine.clock line) →
    (∀ line : σ, SerialLine.clock (SerialLine.flush line).2 = SerialLine.clock line) →
    SerialLine.clock line = SerialLine.clock h.line

theorem Unsent.traceless {text : Text} {h : Host σ} {f : Failure} {line : σ} (hu : Unsent text h f line)
    (k : Link τ) {c : Sending} (hline : c.line? = some text) : Traceless k c h f line := by
  obtain ⟨journal, hsend⟩ := hu.writeLine k
  refine ⟨⟨journal, c.run_of_writeLine_error k hline hsend⟩, hu.isTransport, ?_, hu.clock⟩
  obtain ⟨journal', hsend'⟩ := hu.recorded.writeLine k
  rw [Call.reads, Call.after, c.run_of_writeLine_error k hline hsend']
  rfl

end

/-! ## Later calls -/

inductive Answer where
  | done
  | lines (lines : List Text)
  | status (s : Status)
  | sightings (sightings : List Sighting)
  | address (ip : Text)
deriving DecidableEq

section

variable [SerialLine σ τ] [TimeScale τ]

def Errand.ask (k : Link τ) : Errand τ → Call σ Answer
  | .start => do Client.start k; return .done
  | .close => do Channel.close k; return .done
  | .sendLine text => do Client.sendLine k text; return .done
  | .readLines duration => return .lines (← Client.readLines k duration)
  | .request .status => return .status (← Client.status k)
  | .request .scan => return .sightings (← Client.survey k)
  | .request .address => return .address (← Client.address k)
  | .request r => do Client.call k r; return .done
  | .callTo host port => do Client.tcpConnectTo k host port; return .done
  | .takeInbound duration => return .lines (← Client.takeInbound k duration)

def askAll (k : Link τ) : List (Errand τ) → Host σ → List (Except Failure Answer)
  | [], _ => []
  | e :: errands, h => (e.ask k).outcome h :: askAll k errands ((e.ask k).after h)

theorem Errand.agrees_ask {R : σ → σ → Prop} (hR : Indistinct (σ := σ) R) (k : Link τ) (e : Errand τ) :
    Call.Agrees R (e.ask (σ := σ) k) := by
  have hdone {c : Call σ Unit} (hc : Call.Agrees R c) : Call.Agrees R (do c; return Answer.done) :=
    .bind hc fun _ => .ret _
  cases e with
  | start => exact hdone (.bind (Channel.agrees_open hR k) fun _ => .note _)
  | close => exact hdone (Channel.agrees_close hR k)
  | sendLine text => exact hdone (Channel.agrees_writeLine hR k text)
  | readLines duration => exact .bind (Client.agrees_readLines hR k duration) fun _ => .ret _
  | request r =>
    cases r with
    | connect ssid password =>
      exact hdone (.bind (Client.agrees_perform hR k .connection _) fun _ => .note _)
    | status => exact .bind (Client.agrees_status hR k) fun _ => .ret _
    | scan => exact .bind (Client.agrees_survey hR k) fun _ => .ret _
    | disconnect => exact hdone (Client.agrees_query hR k .disconnect).discard
    | address => exact .bind (Client.agrees_address hR k) fun _ => .ret _
    | tcpConnect host port => exact hdone (Client.agrees_perform hR k .tcpConnection _)
    | tcpSend data => exact hdone (Client.agrees_query hR k (.tcpSend data)).discard
    | tcpClose => exact hdone (Client.agrees_query hR k .tcpClose).discard
  | callTo host port =>
    refine hdone ?_
    rw [Client.tcpConnectTo]
    split
    · exact Client.agrees_perform hR k .tcpConnection _
    · exact .fail _
  | takeInbound duration => exact .bind (Client.agrees_takeInbound hR k duration) fun _ => .ret _

theorem askAll_of_akin {R : σ → σ → Prop} (hR : Indistinct (σ := σ) R) (k : Link τ)
    (errands : List (Errand τ)) {h h' : Host σ} (hk : Akin R h h') : askAll k errands h = askAll k errands h' := by
  induction errands generalizing h h' with
  | nil => rfl
  | cons e errands ih =>
    obtain ⟨houtcome, hafter⟩ := e.agrees_ask hR k h h' hk
    rw [askAll, askAll, houtcome, ih hafter]

end

/-! ## Scripted ports -/

def mended (h : Host (ScriptedLine τ)) : Host (ScriptedLine τ) :=
  { h with line := h.line.modify ({ · with writeFault := none, flushFault := none }) }

variable [TimeScale τ]

/-- A scripted port keeps at most the bytes of a line that was not sent. -/
theorem Unsent.sameButWritten {text : Text} {h : Host (ScriptedLine τ)} {f : Failure} {line : ScriptedLine τ}
    (hu : Unsent text h f line) : line.SameButWritten h.line := by
  have hwritten (bytes : Bytes) (l : ScriptedLine τ) : (l.write bytes).2.SameButWritten l := by
    rw [ScriptedLine.write]
    split
    · rfl
    · obtain ⟨clock, openings, scripts, _ | ⟨p, ports⟩⟩ := l <;> rfl
  cases hu with
  | shut _ => rfl
  | unwritten _ _ hwrite =>
    have hsame := hwritten (Utf8.encode text ++ [lineFeed]) h.line
    change h.line.write _ = _ at hwrite
    rw [hwrite] at hsame
    exact hsame
  | @unflushed _ written _ _ _ hwrite hflush =>
    -- The bytes were written before the flush failed, and no operation shows them.
    have hsame := hwritten (Utf8.encode text ++ [lineFeed]) h.line
    change h.line.write _ = _ at hwrite
    rw [hwrite] at hsame
    obtain rfl : written = line := congrArg Prod.snd hflush
    exact hsame

/-- A call whose line is not sent, because the port is closed or has a fault of writing, fails with a failure of
the port. It reads nothing, waits for nothing, and leaves what the host holds as it is; on a scripted port, once
that is freed of its faults, all later calls return what they would have returned without it. A call without a
line, which is one to a port that has no numeral, does nothing at all, and its failure is none of the port. -/
theorem unsent_call_leaves_no_trace (k : Link τ) (c : Sending) :
    (∀ text, c.line? = some text →
      (∀ {σ : Type} [SerialLine σ τ] (h : Host σ) f line, Unsent text h f line → Traceless k c h f line) ∧
      ∀ (h : Host (ScriptedLine τ)) f line, Unsent text h f line →
        line.SameButWritten h.line ∧
        ∀ errands, askAll k errands ((c.run k).after h).mended = askAll k errands h.mended) ∧
    (c.line? = none → ∀ {σ : Type} [SerialLine σ τ] (h : Host σ), c.run k h = .error .invalidNumber h) ∧
    (c.line? = none ↔
      (∃ host port, c = .request (.tcpConnect host port) ∧ Nat.pow 10 Numeral.limit ≤ port.natAbs) ∨
      ∃ host port, c = .callTo host port ∧ Numeral.strict? port = none) := by
  refine ⟨fun text hline => ⟨?_, ?_⟩, fun hnone _ _ h => c.run_of_unwritable k h hnone,
    c.line?_eq_none_iff⟩
  · exact fun h f line hu => hu.traceless k hline
  · intro h f line hu
    have hsame := hu.sameButWritten
    obtain ⟨journal, hrun⟩ := (hu.traceless k hline).run
    refine ⟨hsame, fun errands => askAll_of_akin ScriptedLine.indistinct_sameButWritten k errands ?_⟩
    rw [Call.after, hrun]
    exact ⟨hsame.modify fun _ => rfl, rfl, rfl, rfl⟩

/-- A port that cannot be flushed, with half a line pending and data in the inbox. -/
def clogged : Host (ScriptedLine Millis) where
  line :=
    { clock := .start ⟨1⟩
      ports :=
        [{ settings := Settings.serial (.default Millis)
           script := [{ wait := some ⟨1000⟩, data := Utf8.encode "CONNECTED\n".toList }]
           flushFault := some ⟨.timeout, []⟩ }] }
  held := true
  pending := Utf8.encode "STATUS:".toList
  inbox := ["a".toList]

def laterErrands : List (Errand Millis) :=
  [.request .status, .takeInbound ⟨0⟩]

theorem unsent_call_leaves_no_trace_of_clogged :
    askAll patientLink laterErrands (((Sending.request .status).run patientLink).after clogged).mended =
      [.ok (.status { connected := true }), .ok (.lines ["a".toList])] ∧
    ∃ line, Traceless patientLink (.request .status) clogged (.sendFailed ⟨.timeout, []⟩) line ∧
      line.SameButWritten clogged.line ∧
      ∀ errands, askAll patientLink errands (((Sending.request .status).run patientLink).after clogged).mended =
        askAll patientLink errands clogged.mended := by
  have hunsent : Unsent "STATUS".toList clogged (.sendFailed ⟨.timeout, []⟩)
      (clogged.line.write (Utf8.encode "STATUS".toList ++ [lineFeed])).2 :=
    .unflushed (by decide) rfl rfl rfl
  obtain ⟨hgeneral, hscripted⟩ := (unsent_call_leaves_no_trace patientLink (.request .status)).1 _ rfl
  exact ⟨by decide +kernel, _, hgeneral clogged _ _ hunsent, hscripted clogged _ _ hunsent⟩

/-- A port that is closed, and a call to a number that is too long for any line. -/
theorem unprintable_call_is_no_transport_failure :
    ∃ (h : Host (ScriptedLine Millis)) (f : Failure), h.isOpen = false ∧ f.isTransport = false ∧
      (Sending.request (.tcpConnect "h".toList (Nat.pow 10 Numeral.limit))).run patientLink h =
        .error f h := by
  have hlong (n : Nat) : n ≤ (n : Int).natAbs := Nat.le_of_eq (Int.natAbs_natCast n).symm
  have hnone := (Sending.line?_eq_none_iff _).mpr (.inl ⟨"h".toList, _, rfl, hlong _⟩)
  exact ⟨{ clogged with held := false }, .invalidNumber, rfl, rfl,
    Sending.run_of_unwritable patientLink _ _ hnone⟩

end StationLink.Host
