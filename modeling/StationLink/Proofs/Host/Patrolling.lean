import StationLink.Proofs.Host.Ahead
import StationLink.Proofs.Host.Dialogues
import StationLink.Proofs.Host.Promised
import StationLink.Proofs.Protocol.Verdict

/-!
# The accounts of a patrol

A run of the monitor rests and checks in turn, whatever faults its port has. Each check asks for the
status, and for a join only if it has heard that the link is lost. The joins that are counted are those
whose windows bring success.
-/

namespace StationLink.Host

open Serial Text Protocol

variable {σ τ : Type}

def joinPhrase : Text :=
  "OK:Connected".toList

/-! ## Joins -/

variable [SerialLine σ τ] [TimeScale τ]

theorem connect_of_query {k : Link τ} {ssid password : Text} {h h₁ : Host σ} {lines : List Text}
    (hquery : Client.query k (.connect ssid password) h = .ok lines h₁) :
    Succeeds joinPhrase lines ∧ Client.connect k ssid password h =
      .ok () { h₁ with journal := .joined ssid :: h₁.journal } ∨
    ¬ Succeeds joinPhrase lines ∧ ∃ f, f.isLink = true ∧
      Client.connect k ssid password h = .error f { h₁ with journal := .failed f :: h₁.journal } := by
  have hphrase : (Request.connect ssid password).verb.success?.getD [] = joinPhrase := rfl
  have hperform := perform_of_query k .connection _ hquery
  rw [hphrase] at hperform
  rw [succeeds_iff]
  cases hverdict : Verdict.ofLines joinPhrase lines with
  | ok line =>
    rw [hverdict] at hperform
    exact .inl ⟨⟨line, rfl⟩, Call.bind_of_ok hperform⟩
  | error line =>
    rw [hverdict] at hperform
    exact .inr ⟨by simp, .refused .connection line, rfl, Call.bind_of_error hperform⟩
  | timeout =>
    rw [hverdict] at hperform
    exact .inr ⟨by simp, .timedOut .connection, rfl, Call.bind_of_error hperform⟩

namespace Monitor

open Dialogue

/-- What a check has asked for, and whether it has joined the network again. -/
structure Inspection (τ : Type) where
  deeds : List (Deed τ)
  rejoined : Bool

/-- The status request was sent, and by the lines of its window the link is lost. -/
def Lost (deeds : List (Deed τ)) : Prop :=
  ∃ lines s more,
    deeds = .sent Verb.status.word (.ok ()) :: .heard (TimeScale.ofMillis Verb.fast) (.ok lines) :: more ∧
    Status.ofLines? lines = some s ∧ s.connected = false

/-- The status request and a join were sent, and the window of the join brought the lines. -/
def JoinHeard (c : Credentials) (lines : List Text) (deeds : List (Deed τ)) : Prop :=
  ∃ before, deeds =
    [.sent Verb.status.word (.ok ()), .heard (TimeScale.ofMillis Verb.fast) (.ok before),
      .sent (joinLine c.ssid c.password) (.ok ()), .heard (TimeScale.ofMillis Verb.slow) (.ok lines)]

structure Inspection.Sound (c : Credentials) (i : Inspection τ) : Prop where
  lost : Lost i.deeds → Deed.texts i.deeds = [Verb.status.word, joinLine c.ssid c.password]
  kept : ¬ Lost i.deeds → Deed.texts i.deeds = [Verb.status.word]
  rejoined : i.rejoined = true ↔ ∃ lines, JoinHeard c lines i.deeds ∧ Succeeds joinPhrase lines
  awake : ∀ duration, Deed.rested duration ∉ i.deeds

/-- A check that asks for its status and nothing more. -/
theorem Inspection.sound_of_kept (c : Credentials) {deeds : List (Deed τ)} (hlost : ¬ Lost deeds)
    (htexts : Deed.texts deeds = [Verb.status.word]) (hawake : ∀ duration, Deed.rested duration ∉ deeds) :
    Inspection.Sound c ⟨deeds, false⟩ where
  lost h := absurd h hlost
  kept _ := htexts
  rejoined := by
    refine ⟨Bool.noConfusion, ?_⟩
    rintro ⟨lines, ⟨before, rfl⟩, -⟩
    cases congrArg List.length htexts
  awake := hawake

/-- What a join comes to for the monitor: whether it succeeds, and what it has asked for. -/
structure Joining (c : Credentials) (deeds : List (Deed τ)) (rejoined : Bool) : Prop where
  texts : Deed.texts deeds = [joinLine c.ssid c.password]
  rejoined : rejoined = true ↔ ∃ lines,
    deeds = [.sent (joinLine c.ssid c.password) (.ok ()), .heard (TimeScale.ofMillis Verb.slow) (.ok lines)] ∧
      Succeeds joinPhrase lines
  awake : ∀ duration, Deed.rested duration ∉ deeds

theorem Joining.sound {c : Credentials} {lines : List Text} {s : Status} {deeds : List (Deed τ)} {rejoined : Bool}
    (hj : Joining c deeds rejoined) (hs : Status.ofLines? lines = some s) (hlost : s.connected = false) :
    Inspection.Sound c ⟨.sent Verb.status.word (.ok ()) ::
      .heard (TimeScale.ofMillis Verb.fast) (.ok lines) :: deeds, rejoined⟩ where
  lost _ := congrArg (Verb.status.word :: ·) hj.texts
  kept hkept := absurd ⟨lines, s, deeds, rfl, hs, hlost⟩ hkept
  rejoined := by
    refine hj.rejoined.trans (exists_congr fun heard => and_congr_left fun _ => ?_)
    constructor
    · rintro rfl
      exact ⟨lines, rfl⟩
    · rintro ⟨before, hdeeds⟩
      exact (List.cons.inj (List.cons.inj hdeeds).2).2
  awake duration := by simpa using hj.awake duration

/-! ## One check -/

theorem rejoin_accounts {P : σ → Prop} (hP : RaisesIoOnly P) (k : Link τ) (c : Credentials) {h : Host σ}
    (hline : P h.line) (hpatience : (rejoin (σ := σ) k c).outcome h ≠ .error .outOfPatience) :
    ∃ up h', rejoin k c h = .ok up h' ∧ h'.rejoined = h.rejoined + up.toNat ∧ h'.rests = h.rests ∧
      Joining c ((Dialogue.rejoin c).deeds k h) up := by
  have hpromised := hP.promises_query k (.connect c.ssid c.password) rfl h hline
  have hcounts := Client.uncounted_query k (.connect c.ssid c.password) h
  have hsent := Request.line?_connect c.ssid c.password
  have htexts := texts_query k hsent rfl h
  have hawake := not_rested_query k hsent rfl h
  rw [Call.after] at hcounts
  rw [deeds_rejoin]
  rcases query_heard k hsent rfl h with ⟨f, h₁, hquery, hdeeds⟩ | ⟨lines, h₁, hquery, hdeeds⟩
  · rw [hquery] at hpromised hcounts
    have hconnect : Client.connect k c.ssid c.password h = .error f h₁ :=
      Call.bind_of_error (Call.bind_of_error hquery)
    rcases hpromised.1 with hlink | rfl
    · refine ⟨false, _, rejoin_of_linkFailure k c hconnect hlink, hcounts.1, hcounts.2, htexts, ?_, hawake⟩
      refine ⟨Bool.noConfusion, ?_⟩
      rintro ⟨lines, hheard, _⟩
      exact absurd hheard (hdeeds lines [])
    · rw [Call.outcome, rejoin_of_error k c hconnect rfl] at hpatience
      exact absurd rfl hpatience
  · rw [hquery] at hcounts
    rcases connect_of_query hquery with ⟨hsucceeds, hconnect⟩ | ⟨hfails, f, hlink, hconnect⟩
    · refine ⟨true, _, rejoin_of_ok k c hconnect, congrArg (· + 1) hcounts.1, hcounts.2, htexts, ?_, hawake⟩
      exact ⟨fun _ => ⟨lines, hdeeds, hsucceeds⟩, fun _ => rfl⟩
    · refine ⟨false, _, rejoin_of_linkFailure k c hconnect hlink, hcounts.1, hcounts.2, htexts, ?_, hawake⟩
      refine ⟨Bool.noConfusion, ?_⟩
      rintro ⟨lines', heq, hsucceeds⟩
      cases (List.cons.inj (List.cons.inj (heq.symm.trans hdeeds)).2).1
      exact absurd hsucceeds hfails

/-- On a line that raises no faults but those of input and output, a check whose windows come to an end,
and that hears no signal with too many digits, raises nothing and is accounted for. -/
theorem check_accounts {P : σ → Prop} (hP : RaisesIoOnly P) (k : Link τ) (c : Credentials) {h : Host σ}
    (hline : P h.line) (hshort : ¬ WindowHas k .status OverlongSignal h)
    (hpatience : (check (σ := σ) k c).outcome h ≠ .error .outOfPatience) :
    ∃ up rejoined h', check k c h = .ok up h' ∧ h'.rejoined = h.rejoined + rejoined.toNat ∧
      h'.rests = h.rests ∧ Inspection.Sound c ⟨(Dialogue.check c).deeds k h, rejoined⟩ := by
  have hpromised := hP.promises_query k .status rfl h hline
  have hcounts := Client.uncounted_query k .status h
  have htexts := texts_query k (r := .status) rfl rfl h
  have hawake := not_rested_query k (r := .status) rfl rfl h
  rw [Call.after] at hcounts
  rcases query_heard k (r := .status) rfl rfl h with ⟨f, h₁, hquery, hdeeds⟩ | ⟨lines, h₁, hquery, hdeeds⟩
  · have hstatus := Client.status_of_query_error k h h₁ f hquery
    have hcheck := check_of_error k c hstatus
    rw [hquery] at hpromised hcounts
    rcases hpromised.1 with hlink | rfl
    · refine ⟨false, false, _, hcheck.trans (if_pos hlink), hcounts.1, hcounts.2, ?_⟩
      rw [deeds_check_of_error k c hstatus]
      refine Inspection.sound_of_kept c ?_ htexts hawake
      rintro ⟨lines, _, more, heq, _⟩
      exact hdeeds lines more heq
    · rw [Call.outcome, hcheck] at hpatience
      exact absurd rfl hpatience
  · -- The window came to an end: only a signal with too many digits could keep its status from being read.
    have hnone : ∀ text ∈ lines, ¬ OverlongSignal text := fun text htext hlong =>
      hshort ⟨lines, by rw [Call.outcome, hquery], text, htext, hlong⟩
    obtain ⟨s, hs⟩ := Option.isSome_iff_exists.mp ((isSome_answers_iff lines).1.mpr hnone)
    obtain ⟨journal, hstatus⟩ := Client.status_of_query_eq k h h₁ lines s hquery hs
    have hcheck := check_of_status k c hstatus
    have hasked := deeds_check_of_ok k c hstatus
    rw [hquery] at hpromised hcounts
    cases hup : s.connected with
    | true =>
      rw [if_pos hup] at hcheck hasked
      refine ⟨true, false, _, hcheck, hcounts.1, hcounts.2, ?_⟩
      rw [hasked, List.append_nil]
      refine Inspection.sound_of_kept c ?_ htexts hawake
      rintro ⟨lines', s', more, heq, hs', hdown⟩
      cases (List.cons.inj (List.cons.inj (heq.symm.trans hdeeds)).2).1
      obtain rfl := Option.some.inj (hs'.symm.trans hs)
      cases hup.symm.trans hdown
    | false =>
      rw [if_neg (by simp [hup])] at hcheck hasked
      rw [Call.outcome, hcheck] at hpatience
      have hlost : P ({ h₁ with journal := .linkLost :: journal } : Host σ).line := hpromised
      obtain ⟨up, h', hrejoin, hcount, hrests, hjoining⟩ := rejoin_accounts hP k c hlost hpatience
      refine ⟨up, up, h', hcheck.trans hrejoin, hcount.trans (congrArg (· + _) hcounts.1),
        hrests.trans hcounts.2, ?_⟩
      rw [hasked, hdeeds]
      exact hjoining.sound hs hup

/-! ## A run -/

/-- The host's ports are scripted with no faults but those of input and output, and its newest port tells no
signal with too many digits. -/
structure Steady (h : Host (ScriptedLine τ)) : Prop where
  io : h.line.IoOnly
  short : ShortSignals h.ahead

namespace Steady

variable {h : Host (ScriptedLine τ)}

omit [TimeScale τ] in
theorem of_less {h' : Host (ScriptedLine τ)} (hs : Steady h) (hio : h'.line.IoOnly) (hless : h'.ahead <:+ h.ahead) :
    Steady h' :=
  ⟨hio, fun line hline => hs.short line (hline.of_suffix hless)⟩

theorem writeLine (hs : Steady h) (k : Link τ) (text : Text) : Steady ((Channel.writeLine k text).after h) := by
  have hio := ScriptedLine.raisesIoOnly (τ := τ)
  obtain ⟨line, journal, hafter, hline, hahead⟩ := Channel.after_writeLine
    (P := fun l : ScriptedLine τ => l.IoOnly ∧ l.ahead = h.line.ahead)
    (fun _ _ hl => ⟨hio.clock _ hl.1, hl.2⟩)
    (fun bytes l hl => ⟨hio.write bytes hl.1, (l.ahead_write bytes).trans hl.2⟩)
    (fun _ hl => ⟨hio.flush hl.1, hl.2⟩) k text h ⟨hs.io, rfl⟩
  have hsame : ahead { h with line, journal } = ahead h := congrArg (h.pending ++ ·) hahead
  rw [hafter]
  exact hs.of_less hline (hsame ▸ List.suffix_rfl)

theorem readLines (hs : Steady h) (k : Link τ) (duration : τ) :
    Steady ((Channel.readLines k duration).after h) := by
  have hio := ScriptedLine.raisesIoOnly (τ := τ)
  obtain ⟨line, pending, journal, hafter, hline⟩ := Channel.after_readLines
    (fun _ _ hl => hio.clock _ hl) (fun _ hl => hio.readLine hl) k duration h hs.io
  have hless : ((Channel.readLines k duration).after h).ahead <:+ h.ahead :=
    Call.ends_iff_after.mp ((ahead_after_window k duration h).imp (fun _ _ hl => hl.1) fun _ _ hl => hl)
  refine hs.of_less ?_ hless
  rw [hafter]
  exact hline

theorem rest (hs : Steady h) (duration : τ) : Steady ((Monitor.rest duration).after h) :=
  hs.of_less (ScriptedLine.raisesIoOnly.clock _ hs.io) List.suffix_rfl

theorem dialogue {α : Type} (hs : Steady h) (k : Link τ) (d : Dialogue τ α) : Steady ((d.run k).after h) := by
  refine d.keeps k (fun text h hs => hs.writeLine k text) (fun duration h hs => hs.readLines k duration)
    (fun duration h hs => hs.rest duration) (fun m h hs => ?_) h hs
  cases m with
  | event e => exact hs.of_less hs.io List.suffix_rfl
  | inbound data => exact hs.of_less hs.io List.suffix_rfl
  | rejoined => exact hs.of_less hs.io List.suffix_rfl

theorem not_windowHas (hs : Steady h) (k : Link τ) : ¬ WindowHas k .status OverlongSignal h := by
  rintro ⟨lines, hlines, line, hline, hlong⟩
  have hsent := hs.writeLine k Verb.status.word
  have hquery : Client.query k .status h = (Channel.writeLine k Verb.status.word >>= fun _ =>
      Client.readLines k (TimeScale.ofMillis Verb.fast) : Call (ScriptedLine τ) (List Text)) h := rfl
  rw [Call.outcome, hquery] at hlines
  rw [Call.after] at hsent
  rcases hsend : Channel.writeLine k Verb.status.word h with ⟨_, h₁⟩ | ⟨f, h₁⟩
  · rw [hsend] at hsent
    have hwindow := ahead_after_window k (TimeScale.ofMillis Verb.fast) h₁
    rw [Call.bind_of_ok hsend, Client.readLines] at hlines
    rcases hread : Channel.readLines k (TimeScale.ofMillis Verb.fast) h₁ with ⟨heard, h₂⟩ | ⟨f, h₂⟩
    · rw [hread] at hwindow
      rw [Call.bind_of_ok hread] at hlines
      obtain rfl : heard = lines := Except.ok.inj hlines
      exact hsent.short line (hwindow.2 line hline) hlong
    · rw [Call.bind_of_error hread] at hlines
      cases hlines
  · rw [Call.bind_of_error hsend] at hlines
    cases hlines

end Steady

theorem run_succ {σ : Type} [SerialLine σ τ] (k : Link τ) (m : Monitor τ) (n : Nat) (h : Host σ) :
    run k m (n + 1) h = (do discard (check k m.toCredentials); run k m n) ((rest m.interval).after h) := rfl

/-- On a scripted port with no faults but those of input and output and with no signal of too many digits, a
run whose windows come to an end raises nothing. It rests and checks in turn, as often as asked for and the
rest first; each check is accounted for, and the joins that are counted are those of the checks. -/
theorem patrol_is_accounted_for (k : Link τ) (m : Monitor τ) (n : Nat) (h : Host (ScriptedLine τ))
    (hsteady : Steady h) (hpatience : (run k m n).outcome h ≠ .error .outOfPatience) :
    (patrol m n).run (σ := ScriptedLine τ) k = run k m n ∧
    ∃ h', ∃ checks : List (Inspection τ), run k m n h = .ok () h' ∧ checks.length = n ∧
      (patrol m n).deeds k h = checks.flatMap (fun i => .rested m.interval :: i.deeds) ∧
      (∀ i ∈ checks, i.Sound m.toCredentials) ∧
      h'.rejoined = h.rejoined + checks.countP (·.rejoined) ∧ h'.rests = h.rests + n := by
  refine ⟨run_patrol k m n, ?_⟩
  induction n generalizing h with
  | zero => exact ⟨h, [], rfl, rfl, rfl, by simp, rfl, rfl⟩
  | succ n ih =>
    have hrested := hsteady.rest m.interval
    have hfirst : (check k m.toCredentials).outcome ((rest m.interval).after h) ≠ .error .outOfPatience := by
      intro hout
      rcases hcheck : check k m.toCredentials ((rest m.interval).after h) with ⟨up, h₁⟩ | ⟨f, h₁⟩
      · rw [Call.outcome, hcheck] at hout
        cases hout
      · rw [Call.outcome, hcheck] at hout
        obtain rfl := Except.error.inj hout
        rw [Call.outcome, run_succ, Call.bind_of_error (Call.discard_of_error hcheck)] at hpatience
        exact hpatience rfl
    obtain ⟨up, rejoined, h₁, hcheck, hcount, hrests, hsound⟩ := check_accounts ScriptedLine.raisesIoOnly k
      m.toCredentials hrested.io (hrested.not_windowHas k) hfirst
    have hrun : run k m (n + 1) h = run k m n h₁ := by
      rw [run_succ, Call.bind_of_ok (Call.discard_of_ok hcheck)]
    have hnext : Steady h₁ := by
      have hkept := hrested.dialogue k (Dialogue.check m.toCredentials)
      rw [run_check, Call.after, hcheck] at hkept
      exact hkept
    rw [Call.outcome, hrun] at hpatience
    obtain ⟨h', checks, hrest, hlength, hdeeds, hall, hcounts, htotal⟩ := ih h₁ hnext hpatience
    refine ⟨h', ⟨_, rejoined⟩ :: checks, hrun.trans hrest, congrArg (· + 1) hlength, ?_,
      List.forall_mem_cons.mpr ⟨hsound, hall⟩, ?_, ?_⟩
    · have hran : (Dialogue.check m.toCredentials).run k ((rest m.interval).after h) = .ok up h₁ := by
        rw [run_check, hcheck]
      have hasked := deeds_bind_of_ok k hran fun _ => patrol m n
      rw [List.flatMap_cons, ← hdeeds, List.cons_append]
      exact congrArg (_ :: ·) hasked
    · rw [hcounts, hcount, List.countP_cons, Nat.add_assoc, Nat.add_comm rejoined.toNat]
      cases rejoined with
      | true => rfl
      | false => rfl
    · rw [htotal, hrests, Nat.add_comm n 1, ← Nat.add_assoc]
      rfl

/-- A port over which a join succeeds, and later fails for want of a status; then it hangs up. -/
def fickle : Host (ScriptedLine Millis) where
  line :=
    { clock := .start ⟨1⟩
      ports :=
        [{ settings := Settings.serial (.default Millis)
           script :=
             [{ wait := some ⟨1000⟩, data := Utf8.encode "STATUS:DISCONNECTED\n".toList },
               { wait := some ⟨5000⟩, data := Utf8.encode "OK:Connected\n".toList },
               { wait := some ⟨1000⟩, data := Utf8.encode "STATUS:CONNECTED\n".toList },
               { wait := some ⟨1000⟩, fault := some ⟨.serial, []⟩ },
               { wait := some ⟨5000⟩, hangUp := true, data := Utf8.encode "ERROR:Connection failed\n".toList }] }] }
  held := true

def homeMonitor : Monitor Millis where
  ssid := "Home".toList
  password := "pw".toList
  interval := ⟨30000⟩

theorem patrol_is_accounted_for_of_fickle :
    Deed.texts ((patrol homeMonitor 4).deeds Channel.patientLink fickle) =
      ["STATUS".toList, "CONNECT:Home:pw".toList, "STATUS".toList, "STATUS".toList, "CONNECT:Home:pw".toList,
        "STATUS".toList] ∧
    ((run Channel.patientLink homeMonitor 4).after fickle).rejoined = 1 ∧
    ∃ h', ∃ checks : List (Inspection Millis), run Channel.patientLink homeMonitor 4 fickle = .ok () h' ∧
      checks.length = 4 ∧
      (patrol homeMonitor 4).deeds Channel.patientLink fickle =
        checks.flatMap (fun i => .rested ⟨30000⟩ :: i.deeds) ∧
      (∀ i ∈ checks, i.Sound homeMonitor.toCredentials) ∧
      h'.rejoined = 0 + checks.countP (·.rejoined) ∧ h'.rests = 0 + 4 := by
  have hsteady : Steady fickle :=
    ⟨⟨⟨by decide +kernel, by decide +kernel⟩, by decide +kernel⟩, shortSignals_of_length (by decide +kernel)⟩
  exact ⟨by decide +kernel, by decide +kernel,
    (patrol_is_accounted_for Channel.patientLink homeMonitor 4 fickle hsteady (by decide +kernel)).2⟩

end Monitor

end StationLink.Host
