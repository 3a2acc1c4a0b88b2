import StationLink.Proofs.Serial.Recorded

/-!
# What the calls of the bridge have in common

A call of the bridge is a query, and what it does with the lines of its window does not touch the
line any more. So all calls leave the line as their queries do.
-/

namespace StationLink.Host

open Serial Protocol

variable {σ τ α β : Type}

/-- The line of a window that an event notes. -/
def Event.received? : Event → Option Text
  | .received line => some line
  | _ => none

/-- The second host differs from the first in journal, inbox and counts at most. -/
structure Alike (h h' : Host σ) : Prop where
  line : h'.line = h.line
  held : h'.held = h.held
  pending : h'.pending = h.pending

theorem Alike.refl (h : Host σ) : Alike h h :=
  ⟨rfl, rfl, rfl⟩

theorem Alike.trans {h h' h'' : Host σ} (h₁ : Alike h h') (h₂ : Alike h' h'') : Alike h h'' :=
  ⟨h₂.line.trans h₁.line, h₂.held.trans h₁.held, h₂.pending.trans h₁.pending⟩

namespace Call

/-- A call that leaves the line alone. -/
def Offline (c : Call σ α) : Prop :=
  ∀ h, Alike h (c.after h)

theorem after_bind (c : Call σ α) (k : α → Call σ β) (h : Host σ) :
    (c >>= k).after h =
      match c h with
      | .ok a h' => (k a).after h'
      | .error _ h' => h' := by
  rw [after]
  rcases hc : c h with ⟨a, h'⟩ | ⟨f, h'⟩
  · exact congrArg left (bind_of_ok hc)
  · exact congrArg left (bind_of_error hc)

theorem discard_of_ok {c : Call σ α} {h h' : Host σ} {a : α} (hc : c h = .ok a h') :
    discard c h = .ok () h' := by
  change EStateM.map _ c h = _
  rw [EStateM.map, hc]

theorem discard_of_error {c : Call σ α} {h h' : Host σ} {f : Failure} (hc : c h = .error f h') :
    discard c h = .error f h' := by
  change EStateM.map _ c h = _
  rw [EStateM.map, hc]

theorem after_discard (c : Call σ α) (h : Host σ) : (discard c).after h = c.after h := by
  change left (EStateM.map _ c h) = left (c h)
  rw [EStateM.map]
  rcases c h with ⟨a, h'⟩ | ⟨f, h'⟩ <;> rfl

theorem alike_after_bind {c : Call σ α} {k : α → Call σ β} (hk : ∀ a, (k a).Offline) (h : Host σ) :
    Alike (c.after h) ((c >>= k).after h) := by
  rw [after_bind, after]
  rcases c h with ⟨a, h'⟩ | ⟨f, h'⟩
  · exact hk a h'
  · exact .refl h'

/-- What follows a call may look at what it returns alone. -/
theorem outcome_bind (c : Call σ α) (k : α → Call σ β) (g : α → Except Failure β)
    (hk : ∀ a h, (k a).outcome h = g a) (h : Host σ) : (c >>= k).outcome h = (c.outcome h).bind g := by
  rw [outcome, outcome]
  rcases hc : c h with ⟨a, h'⟩ | ⟨f, h'⟩
  · rw [bind_of_ok hc]
    exact hk a h'
  · rw [bind_of_error hc]
    rfl

namespace Offline

theorem ret (a : α) : (pure a : Call σ α).Offline := fun h => .refl h

theorem fail (f : Failure) : (throw f : Call σ α).Offline := fun h => .refl h

theorem note (e : Event) : (Call.note e : Call σ Unit).Offline := fun _ => ⟨rfl, rfl, rfl⟩

theorem bind {c : Call σ α} {k : α → Call σ β} (hc : c.Offline) (hk : ∀ a, (k a).Offline) :
    (c >>= k).Offline :=
  fun h => (hc h).trans (alike_after_bind hk h)

end Offline

theorem forM_note_eq (lines : List Text) (e : Text → Event) (h : Host σ) :
    ∃ journal, (lines.forM fun line => note (e line) : Call σ PUnit) h =
      .ok ⟨⟩ { h with journal } := by
  induction lines generalizing h with
  | nil => exact ⟨h.journal, rfl⟩
  | cons line lines ih => exact ih { h with journal := e line :: h.journal }

theorem forM_note (lines : List Text) (e : Text → Event) (h : Host σ) :
    ∃ h', (lines.forM fun line => note (e line) : Call σ PUnit) h = .ok ⟨⟩ h' ∧ Alike h h' := by
  obtain ⟨journal, hrun⟩ := forM_note_eq lines e h
  exact ⟨_, hrun, rfl, rfl, rfl⟩

theorem offline_forM_note (lines : List Text) (e : Text → Event) :
    (lines.forM fun line => note (e line) : Call σ PUnit).Offline := by
  intro h
  obtain ⟨h', hrun, halike⟩ := forM_note lines e h
  rw [after, hrun]
  exact halike

/-- A call keeps a property of the host, unless a window in it is given up. -/
def Keeps (I : Host σ → Prop) (c : Call σ α) : Prop :=
  ∀ h, I h → Ends (fun _ h' => I h') (fun f h' => f = .outOfPatience ∨ I h') (c h)

namespace Keeps

variable {I : Host σ → Prop}

theorem ret (a : α) : Keeps I (pure a : Call σ α) := fun _ hI => hI

theorem fail (f : Failure) : Keeps I (throw f : Call σ α) := fun _ hI => .inr hI

theorem bind {c : Call σ α} {k : α → Call σ β} (hc : Keeps I c) (hk : ∀ a, Keeps I (k a)) :
    Keeps I (c >>= k) := by
  intro h hI
  have hfirst := hc h hI
  rcases hrun : c h with ⟨a, h'⟩ | ⟨f, h'⟩
  · rw [hrun] at hfirst
    rw [bind_of_ok hrun]
    exact hk a h' hfirst
  · rw [hrun] at hfirst
    rw [bind_of_error hrun]
    exact hfirst

theorem discard {c : Call σ α} (hc : Keeps I c) : Keeps I (discard c) :=
  bind hc fun _ => ret _

theorem after {c : Call σ α} (hc : Keeps I c) {h : Host σ} (hI : I h)
    (hpatience : c.outcome h ≠ .error .outOfPatience) : I (c.after h) := by
  have hends := hc h hI
  rw [outcome] at hpatience
  rw [Call.after]
  rcases hrun : c h with ⟨a, h'⟩ | ⟨f, h'⟩
  · rw [hrun] at hends
    exact hends
  · rw [hrun] at hends hpatience
    rcases hends with rfl | hI'
    · exact absurd rfl hpatience
    · exact hI'

/-- What follows a look at the host is done for whatever host that may be. -/
theorem look {c : Host σ → Call σ α} (hc : ∀ h, Keeps I (c h)) : Keeps I (get >>= c) :=
  fun h hI => hc h h hI

theorem change {f : Host σ → Host σ} (hf : ∀ h, I h → I (f h)) : Keeps I (modify f) :=
  fun h hI => hf h hI

theorem branch {c d : Call σ α} {p : Prop} [Decidable p] (hc : Keeps I c) (hd : Keeps I d) :
    Keeps I (if p then c else d) := by
  by_cases hp : p
  · rw [if_pos hp]
    exact hc
  · rw [if_neg hp]
    exact hd

/-- A call that first gives up unless a condition holds. -/
theorem guarded {c : Call σ α} {p : Prop} [Decidable p] {f : Failure} (hc : Keeps I c) :
    Keeps I (if p then (throw f : Call σ PUnit) >>= fun _ => c else c) :=
  .branch (.bind (.fail f) fun _ => hc) hc

theorem attempt {f : σ → Except Fault α × σ} (hf : ∀ h, I h → I { h with line := (f h.line).2 }) :
    Keeps I (Call.attempt f) :=
  fun h hI => hf h hI

/-- Notes are kept apart from the lines of a window. -/
theorem note (hnote : ∀ e h, e.received? = none → I h → I { h with journal := e :: h.journal })
    (e : Event) (he : e.received? = none) : Keeps I (Call.note e : Call σ Unit) :=
  fun h hI => hnote e h he hI

theorem forM_note (hnote : ∀ e h, e.received? = none → I h → I { h with journal := e :: h.journal })
    (lines : List Text) (e : Text → Event) (he : ∀ line, (e line).received? = none) :
    Keeps I (lines.forM fun line => Call.note (e line) : Call σ PUnit) := by
  induction lines with
  | nil => exact ret _
  | cons line lines ih => exact bind (note hnote (e line) (he line)) fun _ => ih

end Keeps

end Call

namespace Client

open Call

variable [SerialLine σ τ] [TimeScale τ]

/-- The call of the bridge that sends a request. -/
def call (k : Link τ) : Request → Call σ Unit
  | .connect ssid password => connect k ssid password
  | .status => discard (status k)
  | .scan => discard (survey k)
  | .disconnect => disconnect k
  | .address => discard (address k)
  | .tcpConnect host port => tcpConnect k host port
  | .tcpSend data => tcpSend k data
  | .tcpClose => tcpClose k

theorem alike_perform (k : Link τ) (action : Action) (r : Request) (h : Host σ) :
    Alike ((query (σ := σ) k r).after h) ((perform (σ := σ) k action r).after h) := by
  refine alike_after_bind (fun lines => ?_) h
  cases Verdict.ofLines (r.verb.success?.getD []) lines with
  | ok line => exact .ret _
  | error line => exact .bind (.note _) fun _ => .fail _
  | timeout => exact .bind (.note _) fun _ => .fail _

theorem alike_status (k : Link τ) (h : Host σ) :
    Alike ((query (σ := σ) k .status).after h) ((status (σ := σ) k).after h) := by
  refine alike_after_bind (fun lines => .bind (offline_forM_note _ _) fun _ => ?_) h
  cases Status.ofLines? lines with
  | some s => exact .ret s
  | none => exact .fail _

theorem alike_call (k : Link τ) (r : Request) (h : Host σ) :
    Alike ((query (σ := σ) k r).after h) ((call (σ := σ) k r).after h) := by
  cases r with
  | connect ssid password =>
    exact (alike_perform k .connection _ h).trans (alike_after_bind (fun _ => .note _) h)
  | status =>
    rw [call, after_discard]
    exact alike_status k h
  | scan =>
    rw [call, after_discard]
    refine alike_after_bind (fun lines => ?_) h
    cases survey? lines with
    | some sightings => exact .ret sightings
    | none => exact .fail _
  | disconnect =>
    rw [call, disconnect, after_discard]
    exact .refl _
  | address =>
    rw [call, after_discard]
    refine alike_after_bind (fun lines => ?_) h
    cases address? lines with
    | some ip => exact .ret ip
    | none => exact .fail _
  | tcpConnect host port => exact alike_perform k .tcpConnection _ h
  | tcpSend data =>
    rw [call, tcpSend, after_discard]
    exact .refl _
  | tcpClose =>
    rw [call, tcpClose, after_discard]
    exact .refl _

theorem call_of_query_error (k : Link τ) (r : Request) {h h' : Host σ} {f : Failure}
    (hquery : query k r h = .error f h') : call k r h = .error f h' := by
  cases r with
  | connect ssid password => exact bind_of_error (bind_of_error hquery)
  | status => exact discard_of_error (bind_of_error hquery)
  | scan => exact discard_of_error (bind_of_error hquery)
  | disconnect => exact discard_of_error hquery
  | address => exact discard_of_error (bind_of_error hquery)
  | tcpConnect host port => exact bind_of_error hquery
  | tcpSend data => exact discard_of_error hquery
  | tcpClose => exact discard_of_error hquery

theorem call_of_no_line (k : Link τ) (r : Request) (h : Host σ) (hline : r.line? = none) :
    call k r h = .error .invalidNumber h := by
  apply call_of_query_error
  rw [query, hline]
  rfl

theorem status_of_query_eq (k : Link τ) (h h' : Host σ) (lines : List Text) (s : Status)
    (hquery : query k .status h = .ok lines h') (hs : Status.ofLines? lines = some s) :
    ∃ journal, status k h = .ok s { h' with journal } := by
  obtain ⟨journal, hnotes⟩ := forM_note_eq (Status.dropped lines) .signalDropped h'
  refine ⟨journal, ?_⟩
  rw [status, bind_of_ok hquery, bind_of_ok hnotes, hs]
  rfl

theorem status_of_query (k : Link τ) (h h' : Host σ) (lines : List Text) (s : Status)
    (hquery : query k .status h = .ok lines h') (hs : Status.ofLines? lines = some s) :
    ∃ h'', status k h = .ok s h'' ∧ Alike h' h'' := by
  obtain ⟨journal, hrun⟩ := status_of_query_eq k h h' lines s hquery hs
  exact ⟨_, hrun, rfl, rfl, rfl⟩

theorem status_of_query_error (k : Link τ) (h h' : Host σ) (f : Failure)
    (hquery : query k .status h = .error f h') : status k h = .error f h' :=
  bind_of_error hquery

/-- The inbound data is taken as it is. -/
theorem takeInbound_at_once (k : Link τ) (duration : τ) (h : Host σ)
    (hnow : (TimeScale.before TimeScale.zero duration && h.isOpen) = false) :
    takeInbound k duration h = .ok h.inbox { h with inbox := [] } := by
  change (if TimeScale.before TimeScale.zero duration && h.isOpen then _ else _ : Call σ (List Text)) h = _
  rw [hnow]
  rfl

/-- The inbound data is taken after a window, or not at all because the window fails. -/
theorem takeInbound_after_window (k : Link τ) (duration : τ) (h : Host σ)
    (hwait : (TimeScale.before TimeScale.zero duration && h.isOpen) = true) :
    (∃ lines h', readLines k duration h = .ok lines h' ∧
      takeInbound k duration h = .ok h'.inbox { h' with inbox := [] }) ∨
    ∃ f h', readLines k duration h = .error f h' ∧ takeInbound k duration h = .error f h' := by
  have happly : takeInbound k duration h = (discard (readLines k duration) >>= fun _ =>
      modifyGet fun h => (h.inbox, { h with inbox := [] }) : Call σ (List Text)) h := by
    change (if TimeScale.before TimeScale.zero duration && h.isOpen then _ else _ : Call σ (List Text)) h = _
    rw [hwait]
    rfl
  rw [happly]
  rcases hrun : readLines k duration h with ⟨lines, h'⟩ | ⟨f, h'⟩
  · exact .inl ⟨lines, h', rfl, bind_of_ok (discard_of_ok hrun)⟩
  · exact .inr ⟨f, h', rfl, bind_of_error (discard_of_error hrun)⟩

theorem alike_takeInbound (k : Link τ) (duration : τ) (h : Host σ) :
    Alike (if TimeScale.before TimeScale.zero duration && h.isOpen then
      (readLines (σ := σ) k duration).after h else h) ((takeInbound (σ := σ) k duration).after h) := by
  cases hwait : TimeScale.before TimeScale.zero duration && h.isOpen with
  | false =>
    rw [if_neg Bool.false_ne_true, Call.after, takeInbound_at_once k duration h hwait]
    exact ⟨rfl, rfl, rfl⟩
  | true =>
    rw [if_pos rfl]
    rcases takeInbound_after_window k duration h hwait with ⟨lines, h', hwindow, hrun⟩ | ⟨f, h', hwindow, hrun⟩
    · rw [Call.after, Call.after, hrun, hwindow]
      exact ⟨rfl, rfl, rfl⟩
    · rw [Call.after, Call.after, hrun, hwindow]
      exact .refl h'

/-- What a call does after its query is noted in the journal at most. -/
theorem keeps_call {I : Host σ → Prop} 
    (hnote : ∀ e h, e.received? = none → I h → I { h with journal := e :: h.journal })
    (k : Link τ) (r : Request) (hquery : Keeps I (query k r)) : Keeps I (call k r) := by
  have hperform (action : Action) : Keeps I (perform k action r) := by
    refine hquery.bind fun lines => ?_
    cases Verdict.ofLines (r.verb.success?.getD []) lines with
    | ok line => exact .ret _
    | error line => exact .bind (.note hnote _ rfl) fun _ => .fail _
    | timeout => exact .bind (.note hnote _ rfl) fun _ => .fail _
  cases r with
  | connect ssid password => exact (hperform .connection).bind fun _ => .note hnote _ rfl
  | status =>
    apply Keeps.discard
    refine hquery.bind fun lines => .bind (.forM_note hnote _ _ fun _ => rfl) fun _ => ?_
    cases Status.ofLines? lines with
    | some s => exact .ret s
    | none => exact .fail _
  | scan =>
    apply Keeps.discard
    refine hquery.bind fun lines => ?_
    cases survey? lines with
    | some sightings => exact .ret sightings
    | none => exact .fail _
  | disconnect => exact hquery.discard
  | address =>
    apply Keeps.discard
    refine hquery.bind fun lines => ?_
    cases address? lines with
    | some ip => exact .ret ip
    | none => exact .fail _
  | tcpConnect host port => exact hperform .tcpConnection
  | tcpSend data => exact hquery.discard
  | tcpClose => exact hquery.discard

end Client

end StationLink.Host
