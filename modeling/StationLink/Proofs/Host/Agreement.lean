import StationLink.Proofs.Serial.Paired

/-!
# Hosts that no call tells apart

No call looks at the journal or at the counts of a host, nor at more of its line than the operations show.
Hosts that are alike in all else answer every call alike, and are alike after it.
-/

namespace StationLink.Host

open Serial Protocol

variable {σ τ α β : Type} {R : σ → σ → Prop}

/-- Two hosts whose lines are related, and which hold the same. -/
structure Akin (R : σ → σ → Prop) (h h' : Host σ) : Prop where
  line : R h.line h'.line
  held : h.held = h'.held
  pending : h.pending = h'.pending
  inbox : h.inbox = h'.inbox

namespace Call

/-- A call comes to the same on hosts that are akin, and leaves them akin. -/
def Agrees (R : σ → σ → Prop) (c : Call σ α) : Prop :=
  ∀ h h', Akin R h h' → c.outcome h = c.outcome h' ∧ Akin R (c.after h) (c.after h')

namespace Agrees

theorem ret (a : α) : Agrees R (pure a : Call σ α) := fun _ _ hk => ⟨rfl, hk⟩

theorem fail (f : Failure) : Agrees R (throw f : Call σ α) := fun _ _ hk => ⟨rfl, hk⟩

theorem bind {c : Call σ α} {k : α → Call σ β} (hc : Agrees R c) (hk : ∀ a, Agrees R (k a)) :
    Agrees R (c >>= k) := by
  intro h h' hakin
  obtain ⟨houtcome, hafter⟩ := hc h h' hakin
  rw [outcome, outcome] at houtcome
  rw [after, after] at hafter
  rcases hrun : c h with ⟨a, h₁⟩ | ⟨f, h₁⟩
  · rcases hrun' : c h' with ⟨a', h₁'⟩ | ⟨f', h₁'⟩
    · rw [hrun, hrun'] at houtcome hafter
      obtain rfl := Except.ok.inj houtcome
      rw [outcome, outcome, after, after, bind_of_ok hrun, bind_of_ok hrun']
      exact hk a h₁ h₁' hafter
    · rw [hrun, hrun'] at houtcome
      cases houtcome
  · rcases hrun' : c h' with ⟨a', h₁'⟩ | ⟨f', h₁'⟩
    · rw [hrun, hrun'] at houtcome
      cases houtcome
    · rw [hrun, hrun'] at houtcome hafter
      obtain rfl := Except.error.inj houtcome
      rw [outcome, outcome, after, after, bind_of_error hrun, bind_of_error hrun']
      exact ⟨rfl, hafter⟩

theorem discard {c : Call σ α} (hc : Agrees R c) : Agrees R (discard c) :=
  bind hc fun _ => ret _

theorem look {c : Host σ → Call σ α} (hsame : ∀ h h', Akin R h h' → c h = c h') (hc : ∀ h, Agrees R (c h)) :
    Agrees R (get >>= c) := by
  intro h h' hakin
  have hagrees := hc h h h' hakin
  have happly (h : Host σ) : (get >>= c) h = c h h := rfl
  rw [outcome, outcome, after, after, happly, happly, ← hsame h h' hakin]
  exact hagrees

theorem change {f : Host σ → Host σ} (hf : ∀ h h', Akin R h h' → Akin R (f h) (f h')) :
    Agrees R (modify f) :=
  fun h h' hakin => ⟨rfl, hf h h' hakin⟩

theorem take {f : Host σ → α × Host σ}
    (hf : ∀ h h', Akin R h h' → (f h).1 = (f h').1 ∧ Akin R (f h).2 (f h').2) : Agrees R (modifyGet f) :=
  fun h h' hakin => ⟨congrArg Except.ok (hf h h' hakin).1, (hf h h' hakin).2⟩

theorem note (e : Event) : Agrees R (Call.note e : Call σ Unit) :=
  change fun _ _ hk => ⟨hk.line, hk.held, hk.pending, hk.inbox⟩

theorem branch {c d : Call σ α} {p : Prop} [Decidable p] (hc : Agrees R c) (hd : Agrees R d) :
    Agrees R (if p then c else d) := by
  by_cases hp : p
  · rw [if_pos hp]
    exact hc
  · rw [if_neg hp]
    exact hd

theorem guarded {c : Call σ α} {p : Prop} [Decidable p] {f : Failure} (hc : Agrees R c) :
    Agrees R (if p then (throw f : Call σ PUnit) >>= fun _ => c else c) :=
  branch (bind (fail f) fun _ => hc) hc

theorem attempt {f : σ → Except Fault α × σ}
    (hf : ∀ l m, R l m → (f l).1 = (f m).1 ∧ R (f l).2 (f m).2) : Agrees R (Call.attempt f) :=
  take fun _ _ hk => ⟨(hf _ _ hk.line).1, (hf _ _ hk.line).2, hk.held, hk.pending, hk.inbox⟩

end Agrees

end Call

/-! ## The channel -/

variable [SerialLine σ τ] [TimeScale τ]

namespace Akin

omit [TimeScale τ] in
theorem isOpen (hR : Indistinct R) {h h' : Host σ} (hk : Akin R h h') : h.isOpen = h'.isOpen := by
  rw [Host.isOpen, Host.isOpen, hk.held, hR.isOpen hk.line]

end Akin

namespace Channel

open Call

variable (hR : Indistinct (σ := σ) R)

include hR

theorem agrees_pause (d : τ) : Agrees R (Call.pause (σ := σ) d) := by
  refine .change fun h h' hk => ⟨?_, hk.held, hk.pending, hk.inbox⟩
  rw [hR.clock hk.line]
  exact hR.setClock _ hk.line

theorem agrees_now : Agrees R (Call.now : Call σ τ) := by
  refine .take fun h h' hk => ⟨?_, ?_, hk.held, hk.pending, hk.inbox⟩
  · exact congrArg Clock.now (hR.clock hk.line)
  · change R (SerialLine.setClock (SerialLine.clock h.line).read.2 h.line)
      (SerialLine.setClock (SerialLine.clock h'.line).read.2 h'.line)
    rw [hR.clock hk.line]
    exact hR.setClock _ hk.line

theorem agrees_open (k : Link τ) : Agrees R (Channel.open (σ := σ) k) := by
  refine .look (fun h h' hk => by rw [hk.isOpen hR]) fun h => .branch (.ret _) ?_
  refine .bind (.attempt fun _ _ hl => hR.openPort _ hl) fun opened => ?_
  cases opened with
  | error f => exact .bind (.note _) fun _ => .fail _
  | ok _ =>
    refine .bind (.change fun _ _ hk => ⟨hk.line, rfl, rfl, hk.inbox⟩) fun _ => ?_
    exact .bind (.note _) fun _ => agrees_pause hR _

omit [TimeScale τ] in
theorem agrees_close (k : Link τ) : Agrees R (Channel.close (σ := σ) k) := by
  have hletGo : Agrees R (letGo (σ := σ)) := .change fun _ _ hk => ⟨hk.line, rfl, rfl, hk.inbox⟩
  refine .look (fun h h' hk => by rw [hk.held, hR.isOpen hk.line]) fun h => .branch (.branch ?_ hletGo) (.ret _)
  refine .bind (.attempt fun _ _ hl => hR.close hl) fun closed => .bind hletGo fun _ => ?_
  cases closed with
  | error f => exact .branch (.note _) (.fail _)
  | ok _ => exact .note _

theorem agrees_writeLine (k : Link τ) (text : Text) : Agrees R (writeLine (σ := σ) k text) := by
  have hfailure (f : Fault) : Agrees R (sendFailure (σ := σ) f) :=
    .branch (.bind (.note _) fun _ => .fail _) (.fail _)
  refine .look (fun h h' hk => by rw [hk.isOpen hR]) fun h => .guarded (.bind (.note _) fun _ => ?_)
  refine .bind (.attempt fun _ _ hl => hR.write _ hl) fun written => ?_
  cases written with
  | error f => exact hfailure f
  | ok _ =>
    refine .bind (.attempt fun _ _ hl => hR.flush hl) fun flushed => ?_
    cases flushed with
    | error f => exact hfailure f
    | ok _ => exact agrees_pause hR _

theorem agrees_readLine : Agrees R (readLine (σ := σ)) := by
  have htake : Agrees R (takeLine (σ := σ)) := by
    refine .look (fun h h' hk => by rw [hk.pending]) fun h => .branch ?_ (.ret _)
    exact .bind (.change fun _ _ hk => ⟨hk.line, hk.held, rfl, hk.inbox⟩) fun _ => .ret _
  refine .look (fun h h' hk => by rw [hk.isOpen hR]) fun h => .branch (.ret _) ?_
  refine .bind (.attempt fun _ _ hl => hR.readLine hl) fun read => ?_
  cases read with
  | error f =>
    exact .branch (.bind (.note _) fun _ => .bind (agrees_pause hR _) fun _ => .ret _) (.fail _)
  | ok bytes =>
    refine .bind (.change fun _ _ hk => ⟨hk.line, hk.held, ?_, hk.inbox⟩) fun _ => htake
    exact congrArg (· ++ bytes) hk.pending

theorem agrees_collect (deadline : τ) (patience : Nat) (lines : List Text) :
    Agrees R (collect (σ := σ) deadline patience lines) := by
  induction patience generalizing lines with
  | zero => exact .fail _
  | succ patience ih =>
    refine .bind (agrees_now hR) fun time => .branch ?_ (.ret _)
    refine .bind (agrees_readLine hR) fun read => ?_
    cases read with
    | none => exact ih lines
    | some line => exact .branch (ih lines) (.bind (.note _) fun _ => ih _)

theorem agrees_readLines (k : Link τ) (duration : τ) : Agrees R (readLines (σ := σ) k duration) := by
  refine .look (fun h h' hk => by rw [hk.isOpen hR]) fun h => .guarded ?_
  exact .bind (agrees_now hR) fun _ => agrees_collect hR _ _ _

end Channel

/-! ## The bridge -/

namespace Client

open Call

variable (hR : Indistinct (σ := σ) R) (k : Link τ)

include hR

theorem agrees_readLines (duration : τ) : Agrees R (readLines (σ := σ) k duration) := by
  refine .bind (Channel.agrees_readLines hR k duration) fun lines => ?_
  refine .bind (.change fun _ _ hk => ⟨hk.line, hk.held, hk.pending, ?_⟩) fun _ => .ret lines
  exact congrArg (· ++ payloads lines) hk.inbox

theorem agrees_query (r : Request) : Agrees R (query (σ := σ) k r) := by
  simp only [query]
  cases r.line? with
  | none => exact .fail _
  | some line =>
    refine .bind (Channel.agrees_writeLine hR k line) fun _ => ?_
    cases r.verb.window? with
    | none => exact .ret _
    | some millis => exact agrees_readLines hR k _

theorem agrees_perform (action : Action) (r : Request) : Agrees R (perform (σ := σ) k action r) := by
  refine .bind (agrees_query hR k r) fun lines => ?_
  cases Verdict.ofLines (r.verb.success?.getD []) lines with
  | ok line => exact .ret _
  | error line => exact .bind (.note _) fun _ => .fail _
  | timeout => exact .bind (.note _) fun _ => .fail _

theorem agrees_status : Agrees R (status (σ := σ) k) := by
  have hnotes (lines : List Text) :
      Agrees R (lines.forM fun line => Call.note (.signalDropped line) : Call σ PUnit) := by
    induction lines with
    | nil => exact .ret _
    | cons line lines ih => exact .bind (.note _) fun _ => ih
  refine .bind (agrees_query hR k .status) fun lines => .bind (hnotes _) fun _ => ?_
  cases Status.ofLines? lines with
  | some s => exact .ret s
  | none => exact .fail _

theorem agrees_survey : Agrees R (survey (σ := σ) k) := by
  refine .bind (agrees_query hR k .scan) fun lines => ?_
  cases survey? lines with
  | some sightings => exact .ret sightings
  | none => exact .fail _

theorem agrees_address : Agrees R (address (σ := σ) k) := by
  refine .bind (agrees_query hR k .address) fun lines => ?_
  cases address? lines with
  | some ip => exact .ret ip
  | none => exact .fail _

theorem agrees_takeInbound (duration : τ) : Agrees R (takeInbound (σ := σ) k duration) := by
  have htake : Agrees R (modifyGet fun h : Host σ => (h.inbox, { h with inbox := [] }) : Call σ (List Text)) :=
    .take fun _ _ hk => ⟨hk.inbox, hk.line, hk.held, hk.pending, rfl⟩
  refine .look (fun h h' hk => by rw [hk.isOpen hR]) fun h => .branch ?_ htake
  exact .bind (agrees_readLines hR k duration).discard fun _ => htake

end Client

end StationLink.Host
