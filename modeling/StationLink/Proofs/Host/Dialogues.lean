import StationLink.Host.Monitor
import StationLink.Host.Roaming
import StationLink.Proofs.Board.Codec
import StationLink.Proofs.Host.Calls
import StationLink.Proofs.Host.Channel
import StationLink.Proofs.Host.Windows

/-!
# What calls ask of the channel

A call of the bridge asks its channel to send lines and to read windows, one thing after the other, and
whatever comes of it decides what is asked next. Seen as such a dialogue, a call shows all that it has asked
for, also where the channel refuses because its port is closed. What the channel keeps, every dialogue keeps.
-/

namespace StationLink.Host

open Serial Protocol

variable {σ τ α β : Type}

/-- Something that was asked for, and what came of it. -/
inductive Deed (τ : Type) where
  | sent (text : Text) (outcome : Except Failure Unit)
  | heard (duration : τ) (outcome : Except Failure (List Text))
  | rested (duration : τ)

namespace Deed

def text? : Deed τ → Option Text
  | .sent text _ => some text
  | _ => none

def texts (deeds : List (Deed τ)) : List Text :=
  deeds.filterMap text?

theorem texts_append (deeds more : List (Deed τ)) : texts (deeds ++ more) = texts deeds ++ texts more :=
  List.filterMap_append

end Deed

/-- What a host keeps for itself. -/
inductive Memo where
  | event (e : Event)
  | inbound (data : List Text)
  | rejoined

def Memo.keep (m : Memo) (h : Host σ) : Host σ :=
  match m with
  | .event e => { h with journal := e :: h.journal }
  | .inbound data => { h with inbox := h.inbox ++ data }
  | .rejoined => { h with rejoined := h.rejoined + 1 }

theorem Call.same_of_run {c d : Call σ α} {h h' : Host σ} (hrun : c h = d h') :
    c.outcome h = d.outcome h' ∧ c.after h = d.after h' := by
  rw [Call.outcome, Call.outcome, Call.after, Call.after, hrun]
  exact ⟨rfl, rfl⟩

theorem Call.discard_bind (c : Call σ α) (d : Call σ β) : (do discard c; d) = (do let _ ← c; d) := by
  funext h
  rcases hrun : c h with ⟨a, h'⟩ | ⟨f, h'⟩
  · rw [Call.bind_of_ok hrun, Call.bind_of_ok (Call.discard_of_ok hrun)]
  · rw [Call.bind_of_error hrun, Call.bind_of_error (Call.discard_of_error hrun)]

inductive Dialogue (τ α : Type) where
  | ended (outcome : Except Failure α)
  | send (text : Text) (next : Except Failure Unit → Dialogue τ α)
  | hear (duration : τ) (next : Except Failure (List Text) → Dialogue τ α)
  | rest (duration : τ) (next : Dialogue τ α)
  | keep (m : Memo) (next : Dialogue τ α)

namespace Dialogue

/-- What follows a dialogue, whether it fails or not. -/
def andThen : Dialogue τ α → (Except Failure α → Dialogue τ β) → Dialogue τ β
  | .ended outcome, g => g outcome
  | .send text next, g => .send text fun sent => (next sent).andThen g
  | .hear duration next, g => .hear duration fun heard => (next heard).andThen g
  | .rest duration next, g => .rest duration (next.andThen g)
  | .keep m next, g => .keep m (next.andThen g)

def bind (d : Dialogue τ α) (g : α → Dialogue τ β) : Dialogue τ β :=
  d.andThen fun
    | .ok a => g a
    | .error f => .ended (.error f)

def orLinkFailure (d : Dialogue τ α) : Dialogue τ (Except Failure α) :=
  d.andThen fun
    | .ok a => .ended (.ok (.ok a))
    | .error f => .ended (if f.isLink then .ok (.error f) else .error f)

def notes (events : List Event) (d : Dialogue τ α) : Dialogue τ α :=
  events.foldr (fun e d => .keep (.event e) d) d

/-! ## The calls as dialogues -/

def sendLine (text : Text) : Dialogue τ Unit :=
  .send text .ended

def readLines (duration : τ) : Dialogue τ (List Text) :=
  bind (.hear duration .ended) fun lines => .keep (.inbound (payloads lines)) (.ended (.ok lines))

def fail (f : Failure) : Dialogue τ α :=
  .keep (.event (.failed f)) (.ended (.error f))

section

variable [TimeScale τ]

def query (r : Request) : Dialogue τ (List Text) :=
  match r.line? with
  | none => .ended (.error .invalidNumber)
  | some line => (sendLine line).bind fun _ =>
    match r.verb.window? with
    | none => .ended (.ok [])
    | some millis => readLines (TimeScale.ofMillis millis)

def perform (action : Action) (r : Request) : Dialogue τ Unit :=
  (query r).bind fun lines =>
    match Verdict.ofLines (r.verb.success?.getD []) lines with
    | .ok _ => .ended (.ok ())
    | .error line => fail (.refused action line)
    | .timeout => fail (.timedOut action)

def connect (ssid password : Text) : Dialogue τ Unit :=
  (perform .connection (.connect ssid password)).bind fun _ => .keep (.event (.joined ssid)) (.ended (.ok ()))

def status : Dialogue τ Status :=
  (query .status).bind fun lines => notes ((Status.dropped lines).map .signalDropped) (.ended
    (match Status.ofLines? lines with
    | some s => .ok s
    | none => .error .invalidNumber))

def survey : Dialogue τ (List Sighting) :=
  (query .scan).bind fun lines => .ended
    (match survey? lines with
    | some sightings => .ok sightings
    | none => .error .invalidNumber)

def connectStrongest (known : List (Text × Text)) : Dialogue τ (Option Sighting) :=
  survey.bind fun sightings =>
    match Roaming.strongestKnown? known sightings with
    | none => .ended (.ok none)
    | some s => (connect s.ssid ((known.lookup s.ssid).getD [])).bind fun _ => .ended (.ok (some s))

def rejoin (c : Credentials) : Dialogue τ Bool :=
  (connect c.ssid c.password).orLinkFailure.bind fun
    | .error f => .keep (.event (.rejoinFailed f)) (.ended (.ok false))
    | .ok _ => .keep .rejoined (.keep (.event .rejoined) (.ended (.ok true)))

def check (c : Credentials) : Dialogue τ Bool :=
  status.orLinkFailure.bind fun
    | .error f => .keep (.event (.checkFailed f)) (.ended (.ok false))
    | .ok s =>
      if s.connected then .keep (.event (.linkUp s)) (.ended (.ok true))
      else .keep (.event .linkLost) (rejoin c)

def patrol (m : Monitor τ) : Nat → Dialogue τ Unit
  | 0 => .ended (.ok ())
  | checks + 1 => .rest m.interval ((check m.toCredentials).bind fun _ => patrol m checks)

end

/-! ## Dialogues with a channel -/

variable [SerialLine σ τ] [TimeScale τ]

def run (k : Link τ) : Dialogue τ α → Call σ α
  | .ended (.ok a) => pure a
  | .ended (.error f) => throw f
  | .send text next => do (next (← (Channel.writeLine k text).caught)).run k
  | .hear duration next => do (next (← (Channel.readLines k duration).caught)).run k
  | .rest duration next => do
    Monitor.rest duration
    next.run k
  | .keep m next => do
    modify m.keep
    next.run k

/-- All that is asked for in a dialogue, in order. -/
def deeds (k : Link τ) : Dialogue τ α → Host σ → List (Deed τ)
  | .ended _, _ => []
  | .send text next, h =>
    .sent text ((Channel.writeLine k text).outcome h) ::
      (next ((Channel.writeLine k text).outcome h)).deeds k ((Channel.writeLine k text).after h)
  | .hear duration next, h =>
    .heard duration ((Channel.readLines k duration).outcome h) ::
      (next ((Channel.readLines k duration).outcome h)).deeds k ((Channel.readLines k duration).after h)
  | .rest duration next, h => .rested duration :: next.deeds k ((Monitor.rest duration).after h)
  | .keep m next, h => next.deeds k (m.keep h)

section

variable (k : Link τ)

theorem run_send (text : Text) (next : Except Failure Unit → Dialogue τ α) (h : Host σ) :
    (send text next).run k h =
      (next ((Channel.writeLine k text).outcome h)).run k ((Channel.writeLine k text).after h) := by
  rw [run, Call.bind_of_ok (Call.caught_apply _ h)]

theorem run_hear (duration : τ) (next : Except Failure (List Text) → Dialogue τ α) (h : Host σ) :
    (hear duration next).run k h =
      (next ((Channel.readLines k duration).outcome h)).run k ((Channel.readLines k duration).after h) := by
  rw [run, Call.bind_of_ok (Call.caught_apply _ h)]

theorem run_andThen (d : Dialogue τ α) (g : Except Failure α → Dialogue τ β) (h : Host σ) :
    (d.andThen g).run k h = (g ((d.run k).outcome h)).run k ((d.run k).after h) := by
  induction d generalizing h with
  | ended outcome => cases outcome <;> rfl
  | send text next ih =>
    obtain ⟨houtcome, hafter⟩ := Call.same_of_run (run_send k text next h)
    rw [andThen, run_send, ih, houtcome, hafter]
  | hear duration next ih =>
    obtain ⟨houtcome, hafter⟩ := Call.same_of_run (run_hear k duration next h)
    rw [andThen, run_hear, ih, houtcome, hafter]
  | rest duration next ih => exact ih _
  | keep m next ih => exact ih _

theorem deeds_andThen (d : Dialogue τ α) (g : Except Failure α → Dialogue τ β) (h : Host σ) :
    (d.andThen g).deeds k h =
      d.deeds k h ++ (g ((d.run k).outcome h)).deeds k ((d.run k).after h) := by
  induction d generalizing h with
  | ended outcome => cases outcome <;> rfl
  | send text next ih =>
    obtain ⟨houtcome, hafter⟩ := Call.same_of_run (run_send k text next h)
    rw [andThen, deeds, ih, houtcome, hafter]
    rfl
  | hear duration next ih =>
    obtain ⟨houtcome, hafter⟩ := Call.same_of_run (run_hear k duration next h)
    rw [andThen, deeds, ih, houtcome, hafter]
    rfl
  | rest duration next ih => exact congrArg (_ :: ·) (ih _)
  | keep m next ih => exact ih _

theorem run_bind (d : Dialogue τ α) (g : α → Dialogue τ β) :
    (d.bind g).run (σ := σ) k = d.run k >>= fun a => (g a).run k := by
  funext h
  rw [bind, run_andThen]
  rcases hrun : d.run k h with ⟨a, h'⟩ | ⟨f, h'⟩
  · rw [Call.bind_of_ok hrun, Call.outcome, Call.after, hrun]
    rfl
  · rw [Call.bind_of_error hrun, Call.outcome, Call.after, hrun]
    rfl

theorem deeds_bind_of_ok {d : Dialogue τ α} {h h' : Host σ} {a : α} (hrun : d.run k h = .ok a h')
    (g : α → Dialogue τ β) : (d.bind g).deeds k h = d.deeds k h ++ (g a).deeds k h' := by
  rw [bind, deeds_andThen, Call.outcome, Call.after, hrun]
  rfl

theorem deeds_bind_of_error {d : Dialogue τ α} {h h' : Host σ} {f : Failure}
    (hrun : d.run k h = .error f h') (g : α → Dialogue τ β) : (d.bind g).deeds k h = d.deeds k h := by
  rw [bind, deeds_andThen, Call.outcome, Call.after, hrun]
  exact List.append_nil _

theorem run_orLinkFailure (d : Dialogue τ α) :
    d.orLinkFailure.run (σ := σ) k = (d.run k).orLinkFailure := by
  funext h
  rw [orLinkFailure, run_andThen, Call.orLinkFailure, Call.outcome, Call.after]
  rcases d.run k h with ⟨a, h'⟩ | ⟨f, h'⟩
  · rfl
  · cases hf : f.isLink <;> simp only [hf] <;> rfl

/-! ## The calls are their dialogues -/

theorem run_ended_outcome (c : Call σ α) (h : Host σ) : (ended (c.outcome h)).run k (c.after h) = c h := by
  rw [Call.outcome, Call.after]
  rcases c h with ⟨a, h'⟩ | ⟨f, h'⟩
  · rfl
  · rfl

theorem run_notes (e : Text → Event) (lines : List Text) (d : Dialogue τ α) :
    (notes (lines.map e) d).run (σ := σ) k = (do (lines.forM fun line => Call.note (e line)); d.run k) := by
  funext h
  induction lines generalizing h with
  | nil => rfl
  | cons line lines ih => exact ih _

theorem run_sendLine (text : Text) : (sendLine text).run (σ := σ) k = Client.sendLine k text := by
  funext h
  rw [sendLine, run_send, run_ended_outcome]
  rfl

theorem run_readLines (duration : τ) :
    (readLines duration).run (σ := σ) k = Client.readLines k duration := by
  have hhear : (hear duration .ended).run (σ := σ) k = Channel.readLines k duration := by
    funext h
    rw [run_hear, run_ended_outcome]
  rw [readLines, run_bind, hhear]
  rfl

theorem run_query (r : Request) : (query r).run (σ := σ) k = Client.query k r := by
  rw [query, Client.query]
  cases r.line? with
  | none => rfl
  | some line =>
    dsimp only
    rw [run_bind, run_sendLine]
    cases r.verb.window? with
    | none => rfl
    | some millis =>
      dsimp only
      rw [run_readLines]

theorem run_perform (action : Action) (r : Request) :
    (perform action r).run (σ := σ) k = Client.perform k action r := by
  rw [perform, Client.perform, run_bind, run_query]
  congr
  funext lines
  cases Verdict.ofLines (r.verb.success?.getD []) lines with
  | ok line => rfl
  | error line => rfl
  | timeout => rfl

theorem run_connect (ssid password : Text) :
    (connect ssid password).run (σ := σ) k = Client.connect k ssid password := by
  rw [connect, Client.connect, run_bind, run_perform]
  rfl

theorem run_status : status.run (σ := σ) k = Client.status k := by
  rw [status, Client.status, run_bind, run_query]
  congr
  funext lines
  rw [run_notes]
  cases Status.ofLines? lines with
  | some s => rfl
  | none => rfl

theorem run_survey : survey.run (σ := σ) k = Client.survey k := by
  rw [survey, Client.survey, run_bind, run_query]
  congr
  funext lines
  cases survey? lines with
  | some sightings => rfl
  | none => rfl

theorem run_connectStrongest (known : List (Text × Text)) :
    (connectStrongest known).run (σ := σ) k = Roaming.connectStrongest k known := by
  rw [connectStrongest, Roaming.connectStrongest, run_bind, run_survey]
  congr
  funext sightings
  cases Roaming.strongestKnown? known sightings with
  | none => rfl
  | some s =>
    dsimp only
    rw [run_bind, run_connect]
    rfl

theorem run_rejoin (c : Credentials) : (rejoin c).run (σ := σ) k = Monitor.rejoin k c := by
  rw [rejoin, Monitor.rejoin, run_bind, run_orLinkFailure, run_connect]
  congr
  funext joined
  cases joined with
  | error f => rfl
  | ok _ => rfl

theorem run_check (c : Credentials) : (check c).run (σ := σ) k = Monitor.check k c := by
  rw [check, Monitor.check, run_bind, run_orLinkFailure, run_status]
  congr
  funext found
  cases found with
  | error f => rfl
  | ok s =>
    cases hup : s.connected with
    | true => simp only [hup]; rfl
    | false =>
      simp only [hup]
      rw [← run_rejoin]
      rfl

theorem run_patrol (m : Monitor τ) (checks : Nat) :
    (patrol m checks).run (σ := σ) k = Monitor.run k m checks := by
  induction checks with
  | zero => rfl
  | succ checks ih =>
    rw [patrol, Monitor.run, run, run_bind, run_check, ih, Call.discard_bind]

/-! ## What the calls have asked for -/

theorem deeds_bind_of_silent {d : Dialogue τ α} {g : α → Dialogue τ β}
    (hg : ∀ a (h : Host σ), (g a).deeds k h = []) (h : Host σ) : (d.bind g).deeds k h = d.deeds k h := by
  rcases hrun : d.run k h with ⟨a, h'⟩ | ⟨f, h'⟩
  · rw [deeds_bind_of_ok k hrun, hg, List.append_nil]
  · rw [deeds_bind_of_error k hrun]

theorem deeds_orLinkFailure (d : Dialogue τ α) (h : Host σ) :
    d.orLinkFailure.deeds k h = d.deeds k h := by
  rw [orLinkFailure, deeds_andThen]
  cases (d.run k).outcome h with
  | ok a => exact List.append_nil _
  | error f => exact List.append_nil _

theorem deeds_notes (e : Text → Event) (lines : List Text) (d : Dialogue τ α) (h : Host σ)
    (hd : ∀ h : Host σ, d.deeds k h = []) : (notes (lines.map e) d).deeds k h = [] := by
  induction lines generalizing h with
  | nil => exact hd h
  | cons line lines ih => exact ih _

theorem deeds_connect (ssid password : Text) (h : Host σ) :
    (connect ssid password).deeds k h = (query (.connect ssid password)).deeds k h := by
  rw [connect, deeds_bind_of_silent k fun _ _ => rfl, perform, deeds_bind_of_silent k fun lines _ => ?_]
  cases Verdict.ofLines ((Request.connect ssid password).verb.success?.getD []) lines with
  | ok line => rfl
  | error line => rfl
  | timeout => rfl

theorem deeds_status (h : Host σ) : status.deeds k h = (query .status).deeds k h :=
  deeds_bind_of_silent k (fun _ h => deeds_notes k _ _ _ h fun _ => rfl) h

theorem deeds_survey (h : Host σ) : survey.deeds k h = (query .scan).deeds k h :=
  deeds_bind_of_silent k (fun _ _ => rfl) h

theorem deeds_rejoin (c : Credentials) (h : Host σ) :
    (rejoin c).deeds k h = (query (.connect c.ssid c.password)).deeds k h := by
  rw [rejoin, deeds_bind_of_silent k, deeds_orLinkFailure, deeds_connect]
  intro joined h
  cases joined with
  | error f => rfl
  | ok _ => rfl

theorem deeds_check_of_error (c : Credentials) {h h₁ : Host σ} {f : Failure}
    (hstatus : Client.status k h = .error f h₁) : (check c).deeds k h = (query .status).deeds k h := by
  have hrun : status.orLinkFailure.run k h = (Client.status k).orLinkFailure h := by
    rw [run_orLinkFailure, run_status]
  rw [Call.orLinkFailure, hstatus] at hrun
  have hasked : status.orLinkFailure.deeds k h = (query .status).deeds k h := by
    rw [deeds_orLinkFailure, deeds_status]
  cases hf : f.isLink with
  | true =>
    rw [check, deeds_bind_of_ok k (hrun.trans (if_pos hf)), hasked]
    exact List.append_nil _
  | false => rw [check, deeds_bind_of_error k (hrun.trans (if_neg (by simp [hf]))), hasked]

theorem deeds_check_of_ok (c : Credentials) {h h₁ : Host σ} {s : Status}
    (hstatus : Client.status k h = .ok s h₁) :
    (check c).deeds k h = (query .status).deeds k h ++
      if s.connected then [] else (rejoin c).deeds k { h₁ with journal := .linkLost :: h₁.journal } := by
  have hrun : status.orLinkFailure.run k h = (Client.status k).orLinkFailure h := by
    rw [run_orLinkFailure, run_status]
  rw [Call.orLinkFailure, hstatus] at hrun
  rw [check, deeds_bind_of_ok k hrun, deeds_orLinkFailure, deeds_status]
  cases hup : s.connected with
  | true => simp only [hup]; rfl
  | false => simp only [hup]; rfl

/-- A request that awaits its answer asks for one line to be sent and, once it is sent, for one window. -/
theorem query_cases {r : Request} {line : Text} {millis : Nat} (hline : r.line? = some line)
    (hwindow : r.verb.window? = some millis) (h : Host σ) :
    (∃ f h', Client.query k r h = .error f h' ∧ (query r).deeds k h = [.sent line (.error f)]) ∨
    (∃ f h', Client.query k r h = .error f h' ∧
      (query r).deeds k h = [.sent line (.ok ()), .heard (TimeScale.ofMillis millis) (.error f)]) ∨
    ∃ lines h', Client.query k r h = .ok lines h' ∧
      (query r).deeds k h = [.sent line (.ok ()), .heard (TimeScale.ofMillis millis) (.ok lines)] := by
  have hquery : (query r : Dialogue τ (List Text)) =
      (sendLine line).bind fun _ => readLines (TimeScale.ofMillis millis) := by
    simp only [query, hline, hwindow]
  rw [← run_query, hquery, run_bind, run_sendLine, run_readLines]
  rcases hsend : Client.sendLine k line h with ⟨_, h₁⟩ | ⟨f, h₁⟩
  · have hsent : (sendLine line).deeds k h = [.sent line (.ok ())] := by
      change [Deed.sent line ((Client.sendLine k line).outcome h)] = _
      rw [Call.outcome, hsend]
    rw [Call.bind_of_ok hsend, deeds_bind_of_ok k (by rw [run_sendLine, hsend]), hsent]
    have hheard : (readLines (TimeScale.ofMillis millis)).deeds k h₁ =
        [.heard (TimeScale.ofMillis millis) ((Channel.readLines k (TimeScale.ofMillis millis)).outcome h₁)] :=
      deeds_bind_of_silent k (fun _ _ => rfl) h₁
    rw [hheard, Client.readLines, Call.outcome]
    rcases hread : Channel.readLines k (TimeScale.ofMillis millis) h₁ with ⟨lines, h₂⟩ | ⟨f, h₂⟩
    · exact .inr (.inr ⟨lines, _, Call.bind_of_ok hread, rfl⟩)
    · exact .inr (.inl ⟨f, h₂, Call.bind_of_error hread, rfl⟩)
  · have hsent : (sendLine line).deeds k h = [.sent line (.error f)] := by
      change [Deed.sent line ((Client.sendLine k line).outcome h)] = _
      rw [Call.outcome, hsend]
    rw [Call.bind_of_error hsend, deeds_bind_of_error k (by rw [run_sendLine, hsend]), hsent]
    exact .inl ⟨f, h₁, rfl, rfl⟩

theorem texts_query {r : Request} {line : Text} {millis : Nat} (hline : r.line? = some line)
    (hwindow : r.verb.window? = some millis) (h : Host σ) :
    Deed.texts ((query r).deeds k h) = [line] := by
  rcases query_cases k hline hwindow h with ⟨_, _, _, hdeeds⟩ | ⟨_, _, _, hdeeds⟩ | ⟨_, _, _, hdeeds⟩
  · rw [hdeeds]
    rfl
  · rw [hdeeds]
    rfl
  · rw [hdeeds]
    rfl

theorem not_rested_query {r : Request} {line : Text} {millis : Nat} (hline : r.line? = some line)
    (hwindow : r.verb.window? = some millis) (h : Host σ) (duration : τ) :
    Deed.rested duration ∉ (query r).deeds k h := by
  rcases query_cases k hline hwindow h with ⟨_, _, _, hdeeds⟩ | ⟨_, _, _, hdeeds⟩ | ⟨_, _, _, hdeeds⟩
  · simp [hdeeds]
  · simp [hdeeds]
  · simp [hdeeds]

/-- A request fails, and then its window brings no lines; or it returns the lines of its window. -/
theorem query_heard {r : Request} {line : Text} {millis : Nat} (hline : r.line? = some line)
    (hwindow : r.verb.window? = some millis) (h : Host σ) :
    (∃ f h', Client.query k r h = .error f h' ∧ ∀ lines more,
      (query r).deeds k h ≠ .sent line (.ok ()) :: .heard (TimeScale.ofMillis millis) (.ok lines) :: more) ∨
    ∃ lines h', Client.query k r h = .ok lines h' ∧
      (query r).deeds k h = [.sent line (.ok ()), .heard (TimeScale.ofMillis millis) (.ok lines)] := by
  rcases query_cases k hline hwindow h with ⟨f, h', hrun, hdeeds⟩ | ⟨f, h', hrun, hdeeds⟩ | hheard
  · exact .inl ⟨f, h', hrun, by simp [hdeeds]⟩
  · exact .inl ⟨f, h', hrun, by simp [hdeeds]⟩
  · exact .inr hheard

theorem texts_survey (h : Host σ) : Deed.texts (survey.deeds k h) = ["SCAN".toList] := by
  rw [deeds_survey]
  exact texts_query k rfl rfl h

def joinLine (ssid password : Text) : Text :=
  "CONNECT:".toList ++ (ssid ++ ':' :: password)

theorem texts_connect (ssid password : Text) (h : Host σ) :
    Deed.texts ((connect ssid password).deeds k h) = [joinLine ssid password] := by
  rw [deeds_connect]
  exact texts_query k (Request.line?_connect ssid password) rfl h

/-! ## What dialogues keep -/

/-- What the calls of the channel and the memos keep, a dialogue keeps, however it ends. -/
theorem keeps {I : Host σ → Prop} (hsend : ∀ text h, I h → I ((Channel.writeLine k text).after h))
    (hhear : ∀ duration h, I h → I ((Channel.readLines k duration).after h))
    (hrest : ∀ duration h, I h → I ((Monitor.rest duration).after h))
    (hkeep : ∀ (m : Memo) h, I h → I (m.keep h)) (d : Dialogue τ α) (h : Host σ) (hI : I h) :
    I ((d.run k).after h) := by
  induction d generalizing h with
  | ended outcome =>
    cases outcome with
    | ok a => exact hI
    | error f => exact hI
  | send text next ih =>
    rw [(Call.same_of_run (run_send k text next h)).2]
    exact ih _ _ (hsend text h hI)
  | hear duration next ih =>
    rw [(Call.same_of_run (run_hear k duration next h)).2]
    exact ih _ _ (hhear duration h hI)
  | rest duration next ih => exact ih _ (hrest duration h hI)
  | keep m next ih => exact ih _ (hkeep m h hI)

end

end Dialogue

/-! ## What is not counted -/

def Call.Uncounted (c : Call σ α) : Prop :=
  ∀ h, (c.after h).rejoined = h.rejoined ∧ (c.after h).rests = h.rests

namespace Call.Uncounted

theorem ret (a : α) : Uncounted (pure a : Call σ α) := fun _ => ⟨rfl, rfl⟩

theorem fail (f : Failure) : Uncounted (throw f : Call σ α) := fun _ => ⟨rfl, rfl⟩

theorem note (e : Event) : Uncounted (Call.note e : Call σ Unit) := fun _ => ⟨rfl, rfl⟩

theorem bind {c : Call σ α} {g : α → Call σ β} (hc : c.Uncounted) (hg : ∀ a, (g a).Uncounted) :
    (c >>= g).Uncounted := by
  intro h
  have hfirst := hc h
  rw [after] at hfirst
  rw [after_bind]
  rcases hrun : c h with ⟨a, h'⟩ | ⟨f, h'⟩
  · rw [hrun] at hfirst
    exact ⟨(hg a h').1.trans hfirst.1, (hg a h').2.trans hfirst.2⟩
  · rw [hrun] at hfirst
    exact hfirst

end Call.Uncounted

section

open Call

variable [SerialLine σ τ] [TimeScale τ] (k : Link τ)

theorem Channel.uncounted_writeLine (text : Text) : Uncounted (writeLine (σ := σ) k text) := by
  intro h
  obtain ⟨line, journal, hafter, -⟩ := after_writeLine (P := fun _ => True) (fun _ _ _ => trivial)
    (fun _ _ _ => trivial) (fun _ _ => trivial) k text h trivial
  rw [hafter]
  exact ⟨rfl, rfl⟩

theorem Channel.uncounted_readLines (duration : τ) : Uncounted (readLines (σ := σ) k duration) := by
  intro h
  obtain ⟨line, pending, journal, hafter, -⟩ := after_readLines (P := fun _ => True) (fun _ _ _ => trivial)
    (fun _ _ => trivial) k duration h trivial
  rw [hafter]
  exact ⟨rfl, rfl⟩

namespace Client

theorem uncounted_readLines (duration : τ) : Uncounted (readLines (σ := σ) k duration) :=
  .bind (Channel.uncounted_readLines k duration) fun lines => .bind (fun _ => ⟨rfl, rfl⟩) fun _ => .ret lines

theorem uncounted_query (r : Request) : Uncounted (query (σ := σ) k r) := by
  simp only [query]
  cases r.line? with
  | none => exact .fail _
  | some line =>
    refine .bind (Channel.uncounted_writeLine k line) fun _ => ?_
    cases r.verb.window? with
    | none => exact .ret _
    | some millis => exact uncounted_readLines k _

theorem uncounted_perform (action : Action) (r : Request) : Uncounted (perform (σ := σ) k action r) := by
  refine .bind (uncounted_query k r) fun lines => ?_
  cases Verdict.ofLines (r.verb.success?.getD []) lines with
  | ok line => exact .ret _
  | error line => exact .bind (.note _) fun _ => .fail _
  | timeout => exact .bind (.note _) fun _ => .fail _

theorem uncounted_connect (ssid password : Text) : Uncounted (connect (σ := σ) k ssid password) :=
  .bind (uncounted_perform k .connection _) fun _ => .note _

end Client

end

end StationLink.Host
