import StationLink.Proofs.Host.Leftovers
import StationLink.Proofs.Host.Unsent
import StationLink.Proofs.Protocol.Verdict

/-!
# The line that decides a call

A call that awaits a verdict is told by the lines of its window what it comes to, and by the first line
among them that has the phrase of success or the mark of an error. So all lines after it might be others,
and all lines before it might be missing.
-/

namespace StationLink.Host

open Serial Text Protocol

variable {σ τ : Type} [SerialLine σ τ] [TimeScale τ]

/-- The calls that await the verdict of an action, with the requests they send. -/
inductive Awaits : Sending → Action → Request → Prop
  | join (ssid password : Text) :
      Awaits (.request (.connect ssid password)) .connection (.connect ssid password)
  | call (host : Text) (port : Int) : Awaits (.request (.tcpConnect host port)) .tcpConnection (.tcpConnect host port)
  | callTo (host : Text) {numeral : Text} {port : Int} (hport : Numeral.strict? numeral = some port) :
      Awaits (.callTo host numeral) .tcpConnection (.tcpConnect host port)

def Action.phrase : Action → Text
  | .connection => "OK:Connected".toList
  | .tcpConnection => "OK:TCP connected".toList

/-- The line of the request was written, and this is what the window after it came to. -/
def Windowed (k : Link τ) (r : Request) (h : Host σ) (window : Except Failure (List Text)) : Prop :=
  ∃ text sent, r.line? = some text ∧ Channel.writeLine k text h = .ok () sent ∧
    (Client.readLines k (TimeScale.ofMillis Verb.slow)).outcome sent = window

namespace Awaits

variable {c : Sending} {action : Action} {r : Request}

theorem query (hc : Awaits c action r) {k : Link τ} {h : Host σ} {window : Except Failure (List Text)}
    (hwindow : Windowed k r h window) : (Client.query k r).outcome h = window := by
  obtain ⟨text, sent, hline, hsent, hread⟩ := hwindow
  have hslow : r.verb.window? = some Verb.slow := by cases hc <;> rfl
  rw [Client.query, hline]
  dsimp only
  rw [Client.sendLine, Call.outcome, Call.bind_of_ok hsent, hslow]
  exact hread

theorem perform (hc : Awaits c action r) (k : Link τ) (h : Host σ) :
    (c.run k).outcome h = (Client.perform k action r).outcome h := by
  cases hc with
  | join ssid password => exact outcome_connect k ssid password h
  | call host port => rfl
  | callTo host hport =>
    rw [Sending.run, Client.tcpConnectTo, hport]
    rfl

theorem outcome (hc : Awaits c action r) {k : Link τ} {h : Host σ} {window : Except Failure (List Text)}
    (hwindow : Windowed k r h window) : (c.run k).outcome h =
      window.bind fun lines => judge action (Verdict.ofLines action.phrase lines) := by
  have hphrase : r.verb.success? = some action.phrase := by cases hc <;> rfl
  rw [hc.perform, outcome_perform, hc.query hwindow, hphrase]
  rfl

end Awaits

/-- One of three things happens, and the lines tell which. -/
structure FirstDecides (action : Action) (lines : List Text) (outcome : Except Failure Unit) : Prop where
  success : outcome = .ok () ↔ Succeeds action.phrase lines
  refusal : ∀ line, outcome = .error (.refused action line) ↔ Refuses action.phrase lines line
  silence : outcome = .error (.timedOut action) ↔ Undecided action.phrase lines
  exhaustive : Succeeds action.phrase lines ∨ (∃ line, Refuses action.phrase lines line) ∨
    Undecided action.phrase lines
  exclusive : ¬ (Succeeds action.phrase lines ∧ ∃ line, Refuses action.phrase lines line) ∧
    ¬ (Succeeds action.phrase lines ∧ Undecided action.phrase lines) ∧
    ¬ ((∃ line, Refuses action.phrase lines line) ∧ Undecided action.phrase lines)

theorem firstDecides_judge (action : Action) (lines : List Text) :
    FirstDecides action lines (judge action (Verdict.ofLines action.phrase lines)) := by
  have hundecided : Undecided action.phrase lines ↔ Verdict.ofLines action.phrase lines = .timeout :=
    (Verdict.ofLines_eq_timeout_iff _ _).symm
  -- Each of the three is a verdict, and there is but one verdict.
  constructor
  all_goals
    simp only [succeeds_iff, Verdict.refuses_iff, hundecided]
    cases Verdict.ofLines action.phrase lines <;> simp [judge]

/-- Once the line of a join or a call is written, what its window returns decides, and the first line with the
phrase of success or the mark of an error decides that. Whatever the ports, the clocks and the links are, the call
comes to the same if the windows differ in lines that have neither, or in lines after the one that decides. If the
window fails, the call fails with it. -/
theorem first_decisive_line_decides {c : Sending} {action : Action} {r : Request} (hc : Awaits c action r)
    (k : Link τ) (h : Host σ) :
    (∀ f, Windowed k r h (.error f) → (c.run k).outcome h = .error f) ∧
    ∀ lines, Windowed k r h (.ok lines) →
      FirstDecides action lines ((c.run k).outcome h) ∧
      ∀ {σ' τ' : Type} [SerialLine σ' τ'] [TimeScale τ'] (k' : Link τ') (h' : Host σ') (lines' : List Text),
        Windowed k' r h' (.ok lines') →
        (lines'.filter (decides action.phrase) = lines.filter (decides action.phrase) →
          (c.run k').outcome h' = (c.run k).outcome h) ∧
        ∀ before line after after', decides action.phrase line = true →
          lines = before ++ line :: after → lines' = before ++ line :: after' →
            (c.run k').outcome h' = (c.run k).outcome h := by
  refine ⟨fun f hwindow => hc.outcome hwindow, ?_⟩
  intro lines hlines
  rw [hc.outcome hlines]
  refine ⟨firstDecides_judge action lines, ?_⟩
  intro σ' τ' _ _ k' h' lines' hlines'
  rw [hc.outcome hlines']
  constructor
  · intro hsame
    simp only [Except.bind, Verdict.ofLines_of_filter hsame]
  · rintro before line after after' hline rfl rfl
    simp only [Except.bind, Verdict.ofLines_of_decides hline before after' after]

/-- A port from which these lines are heard at once, and then nothing. -/
def saying (lines : List String) : Host (ScriptedLine Millis) :=
  (Client.start Channel.patientLink).after
    { line :=
        { clock := .start ⟨0⟩
          scripts := [lines.map (fun line => { data := (line ++ "\n").toUTF8.toList }) ++
            [{ wait := some ⟨5000⟩ }]] } }

def cleared : List String :=
  ["CONNECTING:Home", "OK:Connected, last ERROR cleared", "ERROR:Connection failed"]

def turnedDown : List String :=
  ["CONNECTING:Home", "ERROR:Busy", "OK:Connected"]

theorem first_decisive_line_decides_of_cleared :
    (Client.connect Channel.patientLink "Home".toList "pw".toList).outcome (saying cleared) = .ok () ∧
    (Client.connect Channel.patientLink "Home".toList "pw".toList).outcome (saying turnedDown) =
      .error (.refused .connection "ERROR:Busy".toList) ∧
    (Client.connect Channel.patientLink "Home".toList "pw".toList).outcome (saying cleared.tail) =
      (Client.connect Channel.patientLink "Home".toList "pw".toList).outcome (saying cleared) ∧
    (Client.connect Channel.patientLink "Home".toList "pw".toList).outcome (saying cleared.dropLast) =
      (Client.connect Channel.patientLink "Home".toList "pw".toList).outcome (saying cleared) := by
  have hsaid (lines : List String)
      (hsent : (Channel.writeLine Channel.patientLink "CONNECT:Home:pw".toList).outcome (saying lines) = .ok ())
      (hread : (Client.readLines Channel.patientLink (TimeScale.ofMillis Verb.slow)).outcome
        ((Channel.writeLine Channel.patientLink "CONNECT:Home:pw".toList).after (saying lines)) =
          .ok (lines.map String.toList)) :
      Windowed Channel.patientLink (.connect "Home".toList "pw".toList) (saying lines)
        (.ok (lines.map String.toList)) :=
    ⟨_, _, rfl, Call.run_of_outcome hsent, hread⟩
  have hdecides (lines : List String) := first_decisive_line_decides (.join "Home".toList "pw".toList)
    Channel.patientLink (saying lines)
  obtain ⟨hcleared, hothers⟩ := (hdecides cleared).2 _
    (hsaid cleared (by decide +kernel) (by decide +kernel))
  obtain ⟨hrefused, -⟩ := (hdecides turnedDown).2 _
    (hsaid turnedDown (by decide +kernel) (by decide +kernel))
  have hwithout := hothers Channel.patientLink (saying cleared.tail) _
    (hsaid cleared.tail (by decide +kernel) (by decide +kernel))
  have hbefore := hothers Channel.patientLink (saying cleared.dropLast) _
    (hsaid cleared.dropLast (by decide +kernel) (by decide +kernel))
  refine ⟨hcleared.success.mpr ?_, (hrefused.refusal _).mpr ?_, hwithout.1 (by decide),
    hbefore.2 ["CONNECTING:Home".toList] _ _ [] (by decide) rfl rfl⟩
  · exact ⟨["CONNECTING:Home".toList], _, _, rfl, by decide, by decide⟩
  · exact ⟨["CONNECTING:Home".toList], _, rfl, by decide, by decide⟩

end StationLink.Host
