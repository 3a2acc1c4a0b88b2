import StationLink.Proofs.Host.Hearing
import StationLink.Proofs.Host.Truth
import StationLink.Proofs.Host.Windows
import StationLink.Proofs.Serial.Conservation

/-!
# What a history leaves on the link

Whatever calls have been made of a host, on whatever board, and however its windows ended: between two
calls a port that is held is open, texts wait whole at the board, and lines wait whole on the link. If
all windows stayed open until a read brought no line, only requests that are sent and forgotten wait.
-/

namespace StationLink.Host

open Serial Text Protocol Board Channel

variable {τ : Type}

/-! ## Links before and after a window -/

namespace Links

variable {texts left : List Text} {h h' : Host (WiredLine τ)}

theorem of_alike (hl : Links texts left h) (ha : Alike h h') : Links texts left h' := by
  obtain ⟨hline, hheld, hpending⟩ := ha
  exact ⟨hheld.trans hl.held, hline ▸ hl.ready, hpending.trans hl.pending, hline ▸ hl.input, hl.sendable,
    hline ▸ hl.holds⟩

theorem atBoard (hl : Links texts left h) (f : Board → Board)
    (hinput : (f h.line.board).input = h.line.board.input)
    (houtput : (f h.line.board).output = h.line.board.output) : Links texts left (h.atBoard f) := by
  refine ⟨hl.held, hl.ready, hl.pending, hinput.trans hl.input, hl.sendable, ?_, hl.holds.2⟩
  change h.line.received ++ (f h.line.board).output = _
  rw [houtput]
  exact hl.holds.1

theorem exists_course {h : Host (Recorded (WiredLine τ))} (hl : Links texts left h.unrecorded)
    (hreads : h.line.reads = []) :
    ∃ c : Course τ, c.host = h ∧ c.texts = texts ∧ c.start = left := by
  obtain ⟨answer, hprinted, hfree⟩ :=
    (adds_executeAll (texts.map Order.ofText) h.line.line.board.bare).lines
  exact ⟨⟨h, texts, left, answer, hl, hreads, hprinted, hfree⟩, rfl, rfl, rfl⟩

theorem sent {line : Text} {h₁ : Host (Recorded (WiredLine τ))} (hl : Links texts left h)
    (hs : Sent line h h₁) (hline : Sendable line) : Links (texts ++ [line]) left h₁.unrecorded := by
  refine ⟨hs.held.trans hl.held, hs.ready, hs.pending.trans hl.pending, ?_,
    List.forall_mem_append.mpr ⟨hl.sendable, List.forall_mem_singleton.mpr hline⟩, hs.holds left hl.holds⟩
  change h₁.line.line.board.input = _
  rw [hs.board, Utf8.encodeLines_append, Utf8.encodeLines_singleton, ← hl.input]
  rfl

variable [TimeScale τ]

theorem isOpen (hl : Links texts left h) : h.isOpen = true :=
  isOpen_of_held hl.held hl.ready.1

theorem query_forgotten (hl : Links texts left h) (k : Link τ) (r : Request) (line : Text)
    (hline : r.line? = some line) (hwindow : r.verb.window? = none) :
    ∃ h₁, Sent line h h₁ ∧ Client.query k r h.recorded = .ok [] h₁ := by
  obtain ⟨h₁, hwrite, hs⟩ := writeLine_of_ready k line h hl.isOpen hl.ready
  refine ⟨h₁, hs, ?_⟩
  rw [Client.query, hline, hwindow]
  exact Call.bind_of_ok hwrite

/-- The window of a request opens on the links as they are, with the line of the request last. -/
theorem query_window (hl : Links texts left h) (k : Link τ) (r : Request) (line : Text) (millis : Nat)
    (hline : r.line? = some line) (hends : r.FreeOfLineEnds) (hwindow : r.verb.window? = some millis) :
    ∃ c : Course τ, Sent line h c.host ∧ c.texts = texts ++ [line] ∧ c.start = left ∧
      Window c (Client.query k r h.recorded) := by
  obtain ⟨h₁, hwrite, hs⟩ := writeLine_of_ready k line h hl.isOpen hl.ready
  obtain ⟨c, rfl, htexts, hstart⟩ :=
    (hl.sent hs (r.sendable_line line hline hends)).exists_course hs.reads
  refine ⟨c, hs, htexts, hstart, ?_⟩
  have hquery : Client.query k r h.recorded = Client.readLines k (TimeScale.ofMillis millis) c.host := by
    rw [Client.query, hline, hwindow]
    exact Call.bind_of_ok hwrite
  rw [hquery]
  exact c.window k _

theorem readLines_window (hl : Links texts left h) (k : Link τ) (duration : τ) :
    ∃ c : Course τ, c.host = h.recorded ∧ c.texts = texts ∧ c.start = left ∧
      Window c (Client.readLines k duration h.recorded) := by
  obtain ⟨c, hhost, htexts, hstart⟩ := exists_course (h := h.recorded) hl rfl
  refine ⟨c, hhost, htexts, hstart, ?_⟩
  rw [← hhost]
  exact c.window k duration

end Links

section

variable {c : Course τ} {h : Host (Recorded (WiredLine τ))} {heard left : List Text}

theorem Hearing.links (hh : Hearing c h heard left) :
    ∃ texts, (texts = c.texts ∨ texts = []) ∧ Links texts left h.unrecorded := by
  rcases hh.phase with hw | ha
  · exact ⟨c.texts, .inl rfl, hh.held, hh.ready, hh.pending, hw.input.trans c.links.input,
      c.links.sendable, hh.holds⟩
  · exact ⟨[], .inr rfl, hh.held, hh.ready, hh.pending, ha.input, by simp, hh.holds⟩

theorem Hearing.links_of_through (hh : Hearing c h heard left) (ht : Through c h heard left) :
    Links [] left h.unrecorded :=
  ⟨hh.held, hh.ready, hh.pending, ht.input, by simp, hh.holds⟩

theorem Stopped.links {crash : Crash} (hs : Stopped c crash h) : Links [] c.answer h.unrecorded :=
  ⟨hs.held, hs.ready, hs.pending, hs.input, by simp, hs.holds⟩

theorem Window.links {run : EStateM.Result Failure (Host (Recorded (WiredLine τ))) (List Text)}
    (hw : Window c run) :
    ∃ texts left, (texts = c.texts ∨ texts = []) ∧ Links texts left (Call.left run).unrecorded := by
  cases hw with
  | closed heard left h hh | givenUp heard left h hh =>
    obtain ⟨texts, htexts, hl⟩ := hh.links
    exact ⟨texts, left, htexts, hl⟩
  | crashed crash h hs => exact ⟨[], c.answer, .inr rfl, hs.links⟩

theorem Window.whole_of_uncut {h : Host (WiredLine τ)}
    {call : Call (Recorded (WiredLine τ)) (List Text)} {call' : Call (WiredLine τ) (List Text)}
    (hw : Window c (call h.recorded)) (hrecords : Call.Records call call')
    (hspent : Spent (Call.reads call h)) (hgiven : Channel.givenUp (call'.outcome h) = false) :
    Whole c (call h.recorded) := by
  refine hw.whole hspent fun h' hrun => ?_
  rw [hrecords.outcome h, Call.outcome, hrun] at hgiven
  cases hgiven

end

/-! ## Hosts that are linked -/

/-- The links of a host, with what is known of the texts that wait. -/
def Linked (Q : Text → Prop) (h : Host (WiredLine τ)) : Prop :=
  ∃ texts left, Links texts left h ∧ ∀ t ∈ texts, Q t

variable [TimeScale τ]

/-- The window of a request, if it opens one, is not given up and stays open until a read brings no
line. -/
def Uncut (k : Link τ) (r : Request) (h : Host (WiredLine τ)) : Prop :=
  r.line?.isSome → r.verb.window?.isSome →
    Spent (Call.reads (Client.query k r) h) ∧ givenUp ((Client.query k r).outcome h) = false

theorem Uncut.whole {k : Link τ} {r : Request} {h : Host (WiredLine τ)} {c : Course τ} {line : Text}
    {millis : Nat} (hu : Uncut k r h) (hline : r.line? = some line)
    (hwindow : r.verb.window? = some millis) (hw : Window c (Client.query k r h.recorded)) :
    Whole c (Client.query k r h.recorded) := by
  obtain ⟨hspent, hgiven⟩ := hu (by rw [hline]; rfl) (by rw [hwindow]; rfl)
  exact hw.whole_of_uncut (Client.records_query k r) hspent hgiven

namespace Linked

variable {Q : Text → Prop} {h h' : Host (WiredLine τ)}

omit [TimeScale τ] in
theorem of_alike (hl : Linked Q h) (ha : Alike h h') : Linked Q h' := by
  obtain ⟨texts, left, hlinks, hQ⟩ := hl
  exact ⟨texts, left, hlinks.of_alike ha, hQ⟩

theorem readLines (hl : Linked Q h) (k : Link τ) (duration : τ) :
    Linked Q ((Client.readLines (σ := WiredLine τ) k duration).after h) := by
  obtain ⟨texts, left, hlinks, hQ⟩ := hl
  obtain ⟨c, _, rfl, _, hwindow⟩ := hlinks.readLines_window k duration
  obtain ⟨texts', left', htexts, hlinks'⟩ := hwindow.links
  rw [(Client.records_readLines k duration).after h]
  refine ⟨texts', left', hlinks', ?_⟩
  rcases htexts with rfl | rfl
  · exact hQ
  · simp

/-- A request leaves its own line to wait only if that may wait, or if its window is uncut. -/
theorem query (hl : Linked Q h) (k : Link τ) (r : Request) (hends : r.FreeOfLineEnds)
    (hforgotten : ∀ line, r.line? = some line → r.verb.window? = none → Q line)
    (hcut : (∀ line, r.line? = some line → Q line) ∨ Uncut k r h) :
    Linked Q ((Client.query (σ := WiredLine τ) k r).after h) := by
  obtain ⟨texts, left, hlinks, hQ⟩ := hl
  cases hline : r.line? with
  | none =>
    have hquery : (Client.query (σ := WiredLine τ) k r).after h = h := by
      rw [Client.query, hline]
      rfl
    rw [hquery]
    exact ⟨texts, left, hlinks, hQ⟩
  | some line =>
    rw [(Client.records_query k r).after h]
    cases hwindow : r.verb.window? with
    | none =>
      obtain ⟨h₁, hs, hrun⟩ := hlinks.query_forgotten k r line hline hwindow
      rw [Call.after, hrun]
      exact ⟨texts ++ [line], left, hlinks.sent hs (r.sendable_line line hline hends),
        List.forall_mem_append.mpr ⟨hQ, List.forall_mem_singleton.mpr (hforgotten line hline hwindow)⟩⟩
    | some millis =>
      obtain ⟨c, _, htexts, _, hw⟩ := hlinks.query_window k r line millis hline hends hwindow
      rcases hcut with hall | huncut
      · obtain ⟨texts', left', hsame, hlinks'⟩ := hw.links
        refine ⟨texts', left', hlinks', ?_⟩
        rcases hsame with rfl | rfl
        · rw [htexts]
          exact List.forall_mem_append.mpr ⟨hQ, List.forall_mem_singleton.mpr (hall line hline)⟩
        · simp
      · rcases huncut.whole hline hwindow hw with ⟨heard, left', h', hrun, hh, hthrough⟩ | hcrashed
        · rw [Call.after, hrun]
          exact ⟨[], left', hh.links_of_through hthrough, by simp⟩
        · obtain ⟨crash, h', _, hrun, hs⟩ := hcrashed
          rw [Call.after, hrun]
          exact ⟨[], c.answer, hs.links, by simp⟩

end Linked

/-! ## Histories -/

/-- The hosts that any calls lead to, from any board on. Fields have no line ends, radio and dialer may be
changed from outside at any time; windows may be cut short only if that is allowed. -/
inductive Used (k : Link τ) (cut : Bool) : Host (WiredLine τ) → Prop
  | new (h : Host (WiredLine τ)) (hheld : h.held = false) : Used k cut h
  | start (h : Host (WiredLine τ)) (hu : Used k cut h) : Used k cut ((Client.start k).after h)
  | call (h : Host (WiredLine τ)) (r : Request) (hu : Used k cut h) (hends : r.FreeOfLineEnds)
      (hcut : cut = false → Uncut k r h) : Used k cut ((Client.call k r).after h)
  | readLines (h : Host (WiredLine τ)) (duration : τ) (hu : Used k cut h) :
      Used k cut ((Client.readLines k duration).after h)
  | takeInbound (h : Host (WiredLine τ)) (duration : τ) (hu : Used k cut h) :
      Used k cut ((Client.takeInbound k duration).after h)
  | close (h : Host (WiredLine τ)) (hu : Used k cut h) : Used k cut ((Channel.close k).after h)
  | surround (h : Host (WiredLine τ)) (radio : Radio → Radio) (dialer : Dialer → Dialer)
      (hu : Used k cut h) : Used k cut (h.atBoard (surroundings radio dialer))

/-- What may wait at the board: anything if windows may be cut short, and otherwise requests that are
sent and forgotten. -/
def MayWait (cut : Bool) (text : Text) : Prop :=
  cut = false → (Order.ofText text).Quiet

def Sound (cut : Bool) (h : Host (WiredLine τ)) : Prop :=
  h.held = true → Linked (MayWait cut) h

section

variable {cut : Bool} {h : Host (WiredLine τ)}

omit [TimeScale τ] in
theorem Sound.of_not_held (hheld : h.held = false) : Sound cut h := by
  intro hh
  cases hheld.symm.trans hh

theorem Sound.start (hs : Sound cut h) (k : Link τ) :
    Sound cut ((Client.start (σ := WiredLine τ) k).after h) := by
  cases hheld : h.held with
  | true =>
    obtain ⟨texts, left, hlinks, hQ⟩ := hs hheld
    rw [Call.after, Client.start, Call.bind_of_ok (Channel.open_of_open k h hlinks.isOpen)]
    exact fun _ => ⟨texts, left, hlinks.of_alike ⟨rfl, rfl, rfl⟩, hQ⟩
  | false =>
    have hclosed := isOpen_of_not_held hheld
    cases hfault : h.line.openings.fault? with
    | some f =>
      have hport := h.line.openPort_of_fault k.settings.serial f hfault
      rw [Call.after, Client.start, Call.bind_of_error (Channel.open_of_fault k h hclosed f _ hport)]
      exact .of_not_held hheld
    | none =>
      have hport := h.line.openPort_of_none k.settings.serial hfault
      rw [Call.after, Client.start, Call.bind_of_ok (Channel.open_of_port k h hclosed _ hport)]
      refine fun _ => ⟨[], banner, ⟨rfl, ⟨rfl, rfl⟩, rfl, h.line.board.input_reset, by simp, ?_, ?_⟩, by simp⟩
      · exact h.line.board.output_reset
      · exact fun t ht => (silent_banner t ht).1

theorem Sound.query (hs : Sound cut h) (k : Link τ) (r : Request) (hends : r.FreeOfLineEnds)
    (hcut : cut = false → Uncut k r h) : Sound cut ((Client.query (σ := WiredLine τ) k r).after h) := by
  cases hheld : h.held with
  | true =>
    refine fun _ => (hs hheld).query k r hends ?_ ?_
    · exact fun line hline hwindow _ => Resting.quiet_of_forgotten r line hline hwindow
    · cases cut with
      | true => exact .inl fun _ _ => Bool.noConfusion
      | false => exact .inr (hcut rfl)
  | false =>
    have hquery : (Client.query (σ := WiredLine τ) k r).after h = h := by
      have hwrite (line : Text) : Channel.writeLine k line h = .error .notConnected h :=
        writeLine_of_closed k line h (isOpen_of_not_held hheld)
      rw [Call.after, Client.query]
      cases r.line? with
      | none => rfl
      | some line => exact congrArg Call.left (Call.bind_of_error (hwrite line))
    rw [hquery]
    exact hs

omit [TimeScale τ] in
theorem Sound.of_alike {h' : Host (WiredLine τ)} (hs : Sound cut h) (ha : Alike h h') : Sound cut h' :=
  fun hheld => (hs (ha.held.symm.trans hheld)).of_alike ha

theorem Sound.readLines (hs : Sound cut h) (k : Link τ) (duration : τ) :
    Sound cut ((Client.readLines (σ := WiredLine τ) k duration).after h) := by
  cases hheld : h.held with
  | true => exact fun _ => (hs hheld).readLines k duration
  | false =>
    have hread : Client.readLines k duration h = .error .notConnected h :=
      Call.bind_of_error (readLines_of_closed k duration h (isOpen_of_not_held hheld))
    rw [Call.after, hread]
    exact hs

omit [TimeScale τ] in
theorem Sound.surround (hs : Sound cut h) (radio : Radio → Radio) (dialer : Dialer → Dialer) :
    Sound cut (h.atBoard (surroundings radio dialer)) := by
  intro hheld
  obtain ⟨texts, left, hlinks, hQ⟩ := hs hheld
  exact ⟨texts, left, hlinks.atBoard _ rfl rfl, hQ⟩

end

theorem Used.sound {k : Link τ} {cut : Bool} {h : Host (WiredLine τ)} (hu : Used k cut h) :
    Sound cut h := by
  induction hu with
  | new h hheld => exact .of_not_held hheld
  | start h _ ih => exact ih.start k
  | call h r _ hends hcut ih => exact (ih.query k r hends hcut).of_alike (Client.alike_call k r h)
  | readLines h duration _ ih => exact ih.readLines k duration
  | takeInbound h duration _ ih =>
    have halike := Client.alike_takeInbound k duration h
    split at halike
    · exact (ih.readLines k duration).of_alike halike
    · exact ih.of_alike halike
  | close h _ _ => exact .of_not_held (held_after_close k h)
  | surround h radio dialer _ ih => exact ih.surround radio dialer

end StationLink.Host
