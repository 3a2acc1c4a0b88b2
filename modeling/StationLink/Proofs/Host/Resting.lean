import StationLink.Proofs.Host.Calls
import StationLink.Proofs.Host.Exchange

/-!
# Hosts at rest

Between two calls nothing is left on the link that could be taken for the answer to a later request:
what waits in the input of the board are requests that are sent and forgotten, and what is printed and
not read is silent. Every call leaves its host at rest, if a window that is opened for an answer stays
open until a read finds no line.
-/

namespace StationLink.Host

open Serial Text Protocol Board

variable {τ : Type}

structure Resting (h : Host (WiredLine τ)) : Prop where
  held : h.held = true
  ready : h.line.Ready
  pending : h.pending = []
  plain : h.line.board.Plain
  input : ∃ texts, h.line.board.input = Utf8.encodeLines texts ∧
    ∀ t ∈ texts, Sendable t ∧ (Order.ofText t).Quiet
  holds : ∃ left, h.line.Holds left ∧ ∀ t ∈ left, Silent t

theorem Resting.of_alike {h h' : Host (WiredLine τ)} (hr : Resting h) (ha : Alike h h') : Resting h' := by
  obtain ⟨hline, hheld, hpending⟩ := ha
  exact ⟨hheld.trans hr.held, hline ▸ hr.ready, hpending.trans hr.pending, hline ▸ hr.plain,
    hline ▸ hr.input, hline ▸ hr.holds⟩

/-! ## The end of an exchange -/

namespace Exchange

variable {texts : List Text} {S : List Text → Radio → Prop} {h : Host (Recorded (WiredLine τ))}
  {heard left : List Text}

/-- Once a read has found no line, the answer is among the lines heard, and all others are silent. -/
theorem heard_of_lull (he : Exchange texts S h heard left) (hlull : Lull h.line.reads) :
    ∃ before answer after, heard = before ++ answer ++ after ∧ S answer h.line.line.board.radio ∧
      (∀ t ∈ before, Silent t) ∧ (∀ t ∈ after ++ left, Silent t) ∧ h.line.line.board.input = [] := by
  rcases he.phase with hw | ⟨before, answer, after, ha⟩
  · exact absurd hlull hw.busy
  · obtain ⟨rest, rfl⟩ := ha.drained hlull
    have hrest : rest ++ left = after := by
      have hlines := ha.lines
      rw [List.append_assoc (before ++ answer)] at hlines
      exact List.append_cancel_left hlines
    exact ⟨before, answer, rest, rfl, ha.said, ha.silent_before, hrest ▸ ha.silent_after, ha.input⟩

theorem status_of_lull (he : Exchange texts EndsInReport h heard left) (hlull : Lull h.line.reads) :
    Status.ofLines? (shown heard) = some h.line.line.board.radio.status := by
  obtain ⟨before, _, after, rfl, ⟨quiet, report, rfl, hquiet, hreport⟩, hbefore, hafter, _⟩ :=
    he.heard_of_lull hlull
  rw [← List.append_assoc before]
  exact ofLines?_of_reports _ (before ++ quiet) report after hreport
    (List.forall_mem_append.mpr ⟨hbefore, hquiet⟩) (List.forall_mem_append.mp hafter).1

theorem resting_of_lull (he : Exchange texts S h heard left) (hlull : Lull h.line.reads) :
    Resting h.unrecorded := by
  obtain ⟨before, answer, after, _, _, _, hsilent, hinput⟩ := he.heard_of_lull hlull
  exact ⟨he.held, he.ready, he.pending, he.plain, ⟨[], hinput, by simp⟩, left, he.holds,
    (List.forall_mem_append.mp hsilent).2⟩

/-- Where nothing but silent lines is printed, a window may end at any time. -/
theorem resting_of_quiet (he : Exchange texts (fun lines _ => ∀ t ∈ lines, Silent t) h heard left)
    (htexts : ∀ t ∈ texts, Sendable t ∧ (Order.ofText t).Quiet) : Resting h.unrecorded := by
  rcases he.phase with hw | ⟨before, answer, after, ha⟩
  · refine ⟨he.held, he.ready, he.pending, he.plain, ⟨texts, hw.input, htexts⟩, left, he.holds, ?_⟩
    exact fun t ht => hw.silent t (List.mem_append_right _ ht)
  · refine ⟨he.held, he.ready, he.pending, he.plain, ⟨[], ha.input, by simp⟩, left, he.holds, ?_⟩
    have hall : ∀ t ∈ before ++ answer ++ after, Silent t := List.forall_mem_append.mpr
      ⟨List.forall_mem_append.mpr ⟨ha.silent_before, ha.said⟩, ha.silent_after⟩
    rw [← ha.lines] at hall
    exact (List.forall_mem_append.mp hall).2

end Exchange

/-! ## Calls -/

variable [TimeScale τ]

/-- What a line that is written changes: the board has it in its input, and nothing has been read. -/
structure Sent (text : Text) (h : Host (WiredLine τ)) (h' : Host (Recorded (WiredLine τ))) : Prop where
  held : h'.held = h.held
  pending : h'.pending = h.pending
  rejoined : h'.rejoined = h.rejoined
  reads : h'.line.reads = []
  ready : h'.line.line.Ready
  board : h'.line.line.board = h.line.board.feed (Utf8.encodeLine text)
  written : h'.line.line.written = h.line.written ++ Utf8.encodeLine text
  holds : ∀ left, h.line.Holds left → h'.line.line.Holds left

theorem writeLine_of_ready (k : Link τ) (text : Text) (h : Host (WiredLine τ)) (ho : h.isOpen = true)
    (hready : h.line.Ready) :
    ∃ h', Channel.writeLine k text h.recorded = .ok () h' ∧ Sent text h h' := by
  have hw : SerialLine.write (Utf8.encode text ++ [Channel.lineFeed]) h.recorded.line =
      (.ok (), ⟨h.line.sent (Utf8.encodeLine text), []⟩) := by
    have hline : SerialLine.write (Utf8.encode text ++ [Channel.lineFeed]) h.line =
        (.ok (), h.line.sent (Utf8.encodeLine text)) := h.line.write_of_ready _ hready
    change Recorded.lift (SerialLine.write (Utf8.encode text ++ [Channel.lineFeed])) ⟨h.line, []⟩ = _
    rw [Recorded.lift, hline]
  refine ⟨_, Channel.writeLine_of_ok k text h.recorded ho _ _ hw rfl, ?_⟩
  exact ⟨rfl, rfl, rfl, rfl, hready.sent _, rfl, h.line.written_sent hready.1 _, fun left hl => hl.sent _⟩

namespace Resting

variable {h : Host (WiredLine τ)}

theorem isOpen (hr : Resting h) : h.isOpen = true :=
  isOpen_of_held hr.held hr.ready.1

theorem writeLine (hr : Resting h) (k : Link τ) (text : Text) :
    ∃ h', Channel.writeLine k text h.recorded = .ok () h' ∧ h'.held = true ∧ h'.pending = [] ∧
      h'.line.reads = [] ∧ h'.line.line.Ready ∧
      h'.line.line.board = h.line.board.feed (Utf8.encodeLine text) ∧
      ∀ left, h.line.Holds left → h'.line.line.Holds left := by
  obtain ⟨h', hrun, hsent⟩ := writeLine_of_ready k text h hr.isOpen hr.ready
  exact ⟨h', hrun, hsent.held.trans hr.held, hsent.pending.trans hr.pending, hsent.reads, hsent.ready,
    hsent.board, hsent.holds⟩

/-- A request that awaits an answer begins an exchange, which stands when its window is over. -/
theorem query (hr : Resting h) (k : Link τ) (r : Request) (line : Text) (millis : Nat)
    (hline : r.line? = some line) (hends : r.FreeOfLineEnds) (hwindow : r.verb.window? = some millis) :
    ∃ texts, (∀ t ∈ texts, Sendable t ∧ (Order.ofText t).Quiet) ∧ ∀ S, Carries (texts ++ [line]) S →
      ∃ heard left h', Exchange (texts ++ [line]) S h' heard left ∧
        (Client.query k r h.recorded = .ok (shown heard) h' ∨
          Client.query k r h.recorded = .error .outOfPatience h') := by
  obtain ⟨texts, hinput, htexts⟩ := hr.input
  obtain ⟨left, hholds, hsilent⟩ := hr.holds
  obtain ⟨h₁, hwrite, hheld, hpending, hreads, hready, hboard, hleft⟩ := hr.writeLine k line
  have hquery : Client.query k r h.recorded = Client.readLines k (TimeScale.ofMillis millis) h₁ := by
    rw [Client.query, hline, hwindow]
    exact Call.bind_of_ok hwrite
  have hsendable : ∀ t ∈ texts ++ [line], Sendable t := List.forall_mem_append.mpr
    ⟨fun t ht => (htexts t ht).1, List.forall_mem_singleton.mpr (r.sendable_line line hline hends)⟩
  refine ⟨texts, htexts, fun S hcarries => ?_⟩
  have hbegun : Exchange (texts ++ [line]) S h₁ [] left := by
    refine ⟨hheld, hready, hpending, ?_, hleft left hholds, .inl ⟨?_, hsilent, ?_⟩⟩
    · rw [hboard]
      exact ⟨hr.plain.radio, hr.plain.dialer⟩
    · rw [hboard, Utf8.encodeLines_append, Utf8.encodeLines_singleton, ← hinput]
      rfl
    · rw [hreads]
      rintro ⟨bytes, hmem, _⟩
      cases hmem
  rw [hquery]
  exact hbegun.readLines hsendable hcarries k (TimeScale.ofMillis millis)

theorem quiet_of_forgotten (r : Request) (line : Text) (h : r.line? = some line)
    (hwindow : r.verb.window? = none) : (Order.ofText line).Quiet := by
  cases r with
  | disconnect =>
    rw [Request.ofText_line .disconnect line h trivial]
    trivial
  | tcpSend data =>
    rw [Request.ofText_line (.tcpSend data) line h trivial]
    trivial
  | tcpClose =>
    rw [Request.ofText_line .tcpClose line h trivial]
    trivial
  | connect ssid password => cases hwindow
  | status => cases hwindow
  | scan => cases hwindow
  | address => cases hwindow
  | tcpConnect host port => cases hwindow

theorem query_forgotten (hr : Resting h) (k : Link τ) (r : Request) (line : Text)
    (hline : r.line? = some line) (hends : r.FreeOfLineEnds) (hwindow : r.verb.window? = none) :
    Resting ((Client.query (σ := WiredLine τ) k r).after h) := by
  obtain ⟨texts, hinput, htexts⟩ := hr.input
  obtain ⟨left, hholds, hsilent⟩ := hr.holds
  obtain ⟨h₁, hwrite, hheld, hpending, _, hready, hboard, hleft⟩ := hr.writeLine k line
  have hquery : Client.query k r h.recorded = .ok [] h₁ := by
    rw [Client.query, hline, hwindow]
    exact Call.bind_of_ok hwrite
  rw [(Client.records_query k r).after h, Call.after, hquery]
  refine ⟨hheld, hready, hpending, ?_, ⟨texts ++ [line], ?_, ?_⟩, left, hleft left hholds, hsilent⟩
  · change h₁.line.line.board.Plain
    rw [hboard]
    exact ⟨hr.plain.radio, hr.plain.dialer⟩
  · change h₁.line.line.board.input = _
    rw [hboard, Utf8.encodeLines_append, Utf8.encodeLines_singleton, ← hinput]
    rfl
  · refine List.forall_mem_append.mpr ⟨htexts, List.forall_mem_singleton.mpr ?_⟩
    exact ⟨r.sendable_line line hline hends, quiet_of_forgotten r line hline hwindow⟩

theorem reads_call (k : Link τ) (r : Request) (h : Host (WiredLine τ)) :
    Call.reads (Client.call k r) h = ((Client.query k r).after h.recorded).line.reads := by
  have halike := Client.alike_call k r h.recorded
  rw [Call.reads, halike.line]

theorem call (hr : Resting h) (k : Link τ) (r : Request) (hends : r.FreeOfLineEnds)
    (hlull : r.line?.isSome → r.verb.window?.isSome → Lull (Call.reads (Client.call k r) h)) :
    Resting ((Client.call (σ := WiredLine τ) k r).after h) := by
  refine Resting.of_alike ?_ (Client.alike_call k r h)
  cases hline : r.line? with
  | none =>
    have hquery : (Client.query (σ := WiredLine τ) k r).after h = h := by
      rw [Client.query, hline]
      rfl
    rw [hquery]
    exact hr
  | some line =>
    cases hwindow : r.verb.window? with
    | none => exact hr.query_forgotten k r line hline hends hwindow
    | some millis =>
      have hlull' := hlull (by rw [hline]; rfl) (by rw [hwindow]; rfl)
      rw [reads_call] at hlull'
      obtain ⟨texts, htexts, hexchange⟩ := hr.query k r line millis hline hends hwindow
      have hfree : ∀ t ∈ texts ++ [line], '\n' ∉ t := List.forall_mem_append.mpr
        ⟨fun t ht => (htexts t ht).1.lineFeed,
          List.forall_mem_singleton.mpr (r.sendable_line line hline hends).lineFeed⟩
      obtain ⟨heard, left, h', he, hrun⟩ := hexchange _ (carries_of_plain _ hfree)
      have hafter := Call.after_of_run hrun
      rw [hafter] at hlull'
      rw [(Client.records_query k r).after h, hafter]
      exact he.resting_of_lull hlull'

theorem readLines (hr : Resting h) (k : Link τ) (duration : τ) :
    Resting ((Client.readLines (σ := WiredLine τ) k duration).after h) := by
  obtain ⟨texts, hinput, htexts⟩ := hr.input
  obtain ⟨left, hholds, hsilent⟩ := hr.holds
  have hbegun : Exchange texts (fun lines _ => ∀ t ∈ lines, Silent t) h.recorded [] left := by
    refine ⟨hr.held, hr.ready, hr.pending, hr.plain, hholds, .inl ⟨hinput, hsilent, ?_⟩⟩
    rintro ⟨bytes, hmem, _⟩
    cases hmem
  obtain ⟨heard, left', h', he, hrun⟩ := hbegun.readLines (fun t ht => (htexts t ht).1)
    (carries_of_quiet texts fun t ht => (htexts t ht).2) k duration
  rw [(Client.records_readLines k duration).after h, Call.after_of_run hrun]
  exact he.resting_of_quiet htexts

theorem takeInbound (hr : Resting h) (k : Link τ) (duration : τ) :
    Resting ((Client.takeInbound (σ := WiredLine τ) k duration).after h) := by
  have halike := Client.alike_takeInbound k duration h
  split at halike
  · exact (hr.readLines k duration).of_alike halike
  · exact hr.of_alike halike

end Resting

end StationLink.Host
