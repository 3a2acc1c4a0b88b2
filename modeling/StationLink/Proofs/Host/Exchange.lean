import StationLink.Proofs.Board.Answers
import StationLink.Proofs.Host.Reassembly
import StationLink.Proofs.Serial.Wired

/-!
# An exchange over a wired port

While a window is open, the board at first has not carried out what it was sent: all that is read was
printed before and is silent. From its turn on, the answer stands between silent lines. A read that
finds no line comes only after that turn, and by then all of the answer has been read.
-/

namespace StationLink.Host

open Serial Text Protocol Board Channel

variable {τ : Type}

/-- Some read found no line. -/
def Lull (reads : List (Except Fault Bytes)) : Prop :=
  ∃ bytes, .ok bytes ∈ reads ∧ lineFeed ∉ bytes

def findsNoLine : Except Fault Bytes → Bool
  | .ok bytes => lineFeed ∉ bytes
  | .error _ => false

theorem lull_iff (reads : List (Except Fault Bytes)) : Lull reads ↔ reads.any findsNoLine = true := by
  rw [List.any_eq_true]
  constructor
  · rintro ⟨bytes, hmem, hbytes⟩
    exact ⟨.ok bytes, hmem, decide_eq_true hbytes⟩
  · rintro ⟨_ | bytes, hmem, hfound⟩
    · cases hfound
    · exact ⟨bytes, hmem, of_decide_eq_true hfound⟩

instance : DecidablePred Lull := fun reads => decidable_of_iff _ (lull_iff reads).symm

theorem lull_snoc (reads : List (Except Fault Bytes)) (bytes : Bytes) :
    Lull (reads ++ [.ok bytes]) ↔ Lull reads ∨ lineFeed ∉ bytes := by
  constructor
  · rintro ⟨found, hmem, hfound⟩
    rcases List.mem_append.mp hmem with hmem | hmem
    · exact .inl ⟨found, hmem, hfound⟩
    · obtain rfl : found = bytes := by simpa using hmem
      exact .inr hfound
  · rintro (⟨found, hmem, hfound⟩ | hbytes)
    · exact ⟨found, List.mem_append_left _ hmem, hfound⟩
    · exact ⟨bytes, by simp, hbytes⟩

theorem lineFeed_mem_encodeLines (new : List Text) :
    lineFeed ∉ Utf8.encodeLines new ↔ new = [] := by
  cases new with
  | nil => simp [Utf8.encodeLines]
  | cons t new => simp [Utf8.encodeLines, Utf8.encodeLine, lineFeed]

/-- At most one line is read, and handed on unless it is blank. -/
theorem readLine_of_read {σ : Type} [SerialLine σ τ] [TimeScale τ] (h : Host σ) (ho : h.isOpen = true)
    (hpending : h.pending = []) (new : List Text) (hnew : new.length ≤ 1) (line : σ)
    (hread : SerialLine.readLine h.line = (.ok (Utf8.encodeLines new), line)) :
    ∃ text, readLine h = .ok text { h with line, pending := [] } ∧
      text.toList.filter (· ≠ []) = shown new := by
  rw [readLine_of_bytes h ho _ _ hread, hpending, List.nil_append]
  match new, hnew with
  | [], _ =>
    rw [takeLine_of_unended _ (by simp [Utf8.encodeLines])]
    exact ⟨none, rfl, rfl⟩
  | [t], _ =>
    have hbytes : Utf8.encodeLines [t] = Utf8.encode t ++ [lineFeed] := Utf8.encodeLines_singleton t
    have htext : trim (Utf8.decode (Utf8.encode t ++ [lineFeed])) = trim t :=
      Utf8.trim_decode_encodeLine t
    rw [takeLine_of_line _ (Utf8.encode t) hbytes, htext]
    exact ⟨some (trim t), rfl, by simp [shown]⟩

theorem readLine_of_wired [TimeScale τ] (h : Host (Recorded (WiredLine τ))) (ho : h.isOpen = true)
    (hpending : h.pending = []) (new : List Text) (hnew : new.length ≤ 1) (line : WiredLine τ)
    (hread : h.line.line.readLine = (.ok (Utf8.encodeLines new), line)) :
    ∃ text, readLine h = .ok text
        { h with
          line := ⟨line, h.line.reads ++ [.ok (Utf8.encodeLines new)]⟩
          pending := [] } ∧
      text.toList.filter (· ≠ []) = shown new := by
  apply readLine_of_read h ho hpending new hnew
  change Recorded.readLine h.line = _
  have hline : SerialLine.readLine h.line.line = (.ok (Utf8.encodeLines new), line) := hread
  rw [Recorded.readLine, hline]

namespace Exchange

/-- The board has had no turn: its input is as it was sent, and no read has found no line. -/
structure Waiting (texts : List Text) (h : Host (Recorded (WiredLine τ))) (heard left : List Text) :
    Prop where
  input : h.line.line.board.input = Utf8.encodeLines texts
  silent : ∀ t ∈ heard ++ left, Silent t
  busy : ¬ Lull h.line.reads

/-- The board has carried out its input; a read that found no line found the answer already read. -/
structure Answered (S : List Text → Radio → Prop) (h : Host (Recorded (WiredLine τ)))
    (heard left before answer after : List Text) : Prop where
  input : h.line.line.board.input = []
  lines : heard ++ left = before ++ answer ++ after
  said : S answer h.line.line.board.radio
  silent_before : ∀ t ∈ before, Silent t
  silent_after : ∀ t ∈ after, Silent t
  drained : Lull h.line.reads → before ++ answer <+: heard

end Exchange

/-- Where an exchange stands: the lines heard since it began, and those that are left to be read. -/
structure Exchange (texts : List Text) (S : List Text → Radio → Prop)
    (h : Host (Recorded (WiredLine τ))) (heard left : List Text) : Prop where
  held : h.held = true
  ready : h.line.line.Ready
  pending : h.pending = []
  plain : h.line.line.board.Plain
  holds : h.line.line.Holds left
  phase : Exchange.Waiting texts h heard left ∨
    ∃ before answer after, Exchange.Answered S h heard left before answer after

namespace Exchange

variable {texts : List Text} {S : List Text → Radio → Prop} {h : Host (Recorded (WiredLine τ))}
  {heard left : List Text}

/-! ## What one read does to the phases -/

variable {h' : Host (Recorded (WiredLine τ))} {before answer after new more : List Text}

theorem Waiting.hear (hw : Waiting texts h heard (new ++ left)) (hnew : new ≠ [])
    (hinput : h'.line.line.board.input = h.line.line.board.input)
    (hreads : h'.line.reads = h.line.reads ++ [.ok (Utf8.encodeLines new)]) :
    Waiting texts h' (heard ++ new) left := by
  refine ⟨hinput.trans hw.input, by simpa using hw.silent, ?_⟩
  rw [hreads, lull_snoc, lineFeed_mem_encodeLines]
  rintro (hlull | hnil)
  · exact hw.busy hlull
  · exact hnew hnil

theorem Answered.hear (ha : Answered S h heard (new ++ left) before answer after) (hnew : new ≠ [])
    (hinput : h'.line.line.board.input = h.line.line.board.input)
    (hradio : h'.line.line.board.radio = h.line.line.board.radio)
    (hreads : h'.line.reads = h.line.reads ++ [.ok (Utf8.encodeLines new)]) :
    Answered S h' (heard ++ new) left before answer after := by
  refine ⟨hinput.trans ha.input, by simpa using ha.lines, hradio ▸ ha.said, ha.silent_before,
    ha.silent_after, ?_⟩
  rw [hreads, lull_snoc, lineFeed_mem_encodeLines]
  rintro (hlull | hnil)
  · exact (ha.drained hlull).trans (List.prefix_append heard new)
  · exact absurd hnil hnew

/-- In its turn the board answers, and what it forwards comes after the answer. -/
theorem Waiting.turn (hw : Waiting texts h heard []) (hinput : h'.line.line.board.input = [])
    (hsaid : S answer h'.line.line.board.radio) (hprinted : answer ++ more = new ++ left)
    (hsilent : ∀ t ∈ more, Silent t) (hdrained : new = [] → left = [])
    (hreads : h'.line.reads = h.line.reads ++ [.ok (Utf8.encodeLines new)]) :
    Answered S h' (heard ++ new) left heard answer more := by
  refine ⟨hinput, by simp [hprinted], hsaid, by simpa using hw.silent, hsilent, ?_⟩
  rw [hreads, lull_snoc, lineFeed_mem_encodeLines]
  rintro (hlull | hnil)
  · exact absurd hlull hw.busy
  · have hleft := hdrained hnil
    subst hnil hleft
    obtain ⟨rfl, _⟩ := List.append_eq_nil_iff.mp hprinted
    simp

theorem Answered.turn (ha : Answered S h heard [] before answer after)
    (hinput : h'.line.line.board.input = [])
    (hradio : h'.line.line.board.radio = h.line.line.board.radio) (hprinted : more = new ++ left)
    (hsilent : ∀ t ∈ more, Silent t) :
    Answered S h' (heard ++ new) left before answer (after ++ more) := by
  have hheard : heard = before ++ answer ++ after := by simpa using ha.lines
  refine ⟨hinput, by simp [hheard, hprinted], hradio ▸ ha.said, ha.silent_before,
    List.forall_mem_append.mpr ⟨ha.silent_after, hsilent⟩, ?_⟩
  intro _
  rw [hheard, List.append_assoc (before ++ answer)]
  exact List.prefix_append _ _

/-- Clock, journal and inbox do not bear on where an exchange stands. -/
theorem of_eq (he : Exchange texts S h heard left)
    (hboard : h'.line.line.board = h.line.line.board)
    (hports : h'.line.line.ports = h.line.line.ports) (hreads : h'.line.reads = h.line.reads)
    (hheld : h'.held = h.held) (hpending : h'.pending = h.pending) :
    Exchange texts S h' heard left := by
  obtain ⟨hready, hholds⟩ := WiredLine.ready_and_holds_of_eq hboard hports he.ready he.holds
  refine ⟨hheld.trans he.held, hready, hpending.trans he.pending, hboard ▸ he.plain, hholds, ?_⟩
  rcases he.phase with hw | ⟨before, answer, after, ha⟩
  · exact .inl ⟨hboard ▸ hw.input, hw.silent, hreads ▸ hw.busy⟩
  · exact .inr ⟨before, answer, after, hboard ▸ ha.input, ha.lines, hboard ▸ ha.said, ha.silent_before,
      ha.silent_after, hreads ▸ ha.drained⟩

/-! ## One read -/

variable [TimeScale τ]

theorem isOpen (he : Exchange texts S h heard left) : h.isOpen = true :=
  isOpen_of_held he.held he.ready.1

theorem readLine_of_lines (he : Exchange texts S h heard left) (new : List Text)
    (hnew : new.length ≤ 1) (line : WiredLine τ)
    (hread : h.line.line.readLine = (.ok (Utf8.encodeLines new), line)) :
    ∃ text, readLine h = .ok text
        { h with
          line := ⟨line, h.line.reads ++ [.ok (Utf8.encodeLines new)]⟩
          pending := [] } ∧
      text.toList.filter (· ≠ []) = shown new :=
  readLine_of_wired h he.isOpen he.pending new hnew line hread

/-- A line at hand is read, and nothing else happens. -/
theorem readLine_of_left {t : Text} (he : Exchange texts S h heard (t :: left)) :
    ∃ text h', Channel.readLine h = .ok text h' ∧ text.toList.filter (· ≠ []) = shown [t] ∧
      Exchange texts S h' (heard ++ [t]) left := by
  obtain ⟨line, hread, hready, hholds, hboard⟩ := h.line.line.readLine_of_held he.ready t left he.holds
  rw [← Utf8.encodeLines_singleton] at hread
  obtain ⟨text, hrun, htext⟩ := he.readLine_of_lines [t] (by simp) line hread
  have hplain : line.board.Plain := by
    rw [hboard]
    exact ⟨he.plain.radio, he.plain.dialer⟩
  have hinput : line.board.input = h.line.line.board.input := by rw [hboard]
  have hradio : line.board.radio = h.line.line.board.radio := by rw [hboard]
  refine ⟨text, _, hrun, htext, he.held, hready, rfl, hplain, hholds, ?_⟩
  rcases he.phase with hw | ⟨before, answer, after, ha⟩
  · exact .inl (Waiting.hear hw (List.cons_ne_nil t []) hinput rfl)
  · exact .inr ⟨before, answer, after, Answered.hear ha (List.cons_ne_nil t []) hinput hradio rfl⟩

/-- Without a line at hand the board has its turn, and at most one line printed in it is read. -/
theorem readLine_of_turn (he : Exchange texts S h heard []) (board : Board) (printed : List Text)
    (hturn : h.line.line.board.turn = (board, none)) (hplain : board.Plain)
    (houtput : board.output = h.line.line.board.output ++ Utf8.encodeLines printed)
    (hfree : ∀ t ∈ printed, '\n' ∉ t)
    (hphase : ∀ new left (h' : Host (Recorded (WiredLine τ))), printed = new ++ left →
      (new = [] → left = []) → h'.line.line.board.input = board.input →
      h'.line.line.board.radio = board.radio →
      h'.line.reads = h.line.reads ++ [.ok (Utf8.encodeLines new)] →
      ∃ before answer after, Answered S h' (heard ++ new) left before answer after) :
    ∃ text new left h', Channel.readLine h = .ok text h' ∧
      text.toList.filter (· ≠ []) = shown new ∧ Exchange texts S h' (heard ++ new) left := by
  have hempty : h.line.line.board.output = [] := (List.append_eq_nil_iff.mp he.holds.1).2
  rw [hempty, List.nil_append] at houtput
  obtain ⟨new, left, line, hread, hprinted, hnew, hdrained, hready, hholds, hboard⟩ :=
    h.line.line.readLine_of_drained he.ready he.holds board printed hturn houtput hfree
  obtain ⟨text, hrun, htext⟩ := he.readLine_of_lines new hnew line hread
  have hplain' : line.board.Plain := by
    rw [hboard]
    exact ⟨hplain.radio, hplain.dialer⟩
  have hinput : line.board.input = board.input := by rw [hboard]
  have hradio : line.board.radio = board.radio := by rw [hboard]
  exact ⟨text, new, left, _, hrun, htext, he.held, hready, rfl, hplain', hholds,
    .inr (hphase new left _ hprinted hdrained hinput hradio rfl)⟩

theorem readLine (he : Exchange texts S h heard left) (hsendable : ∀ t ∈ texts, Sendable t)
    (hcarries : Carries texts S) :
    ∃ text new left' h', Channel.readLine h = .ok text h' ∧
      text.toList.filter (· ≠ []) = shown new ∧ Exchange texts S h' (heard ++ new) left' := by
  cases left with
  | cons t left =>
    obtain ⟨text, h', hread⟩ := he.readLine_of_left
    exact ⟨text, [t], left, h', hread⟩
  | nil =>
    rcases he.phase with hw | ⟨before, answer, after, ha⟩
    · obtain ⟨board, answer, more, hturn, hplain, hinput, houtput, hfree, hsilent, hsaid⟩ :=
        turn_carries hsendable hcarries _ he.plain hw.input
      refine he.readLine_of_turn board (answer ++ more) hturn hplain houtput hfree ?_
      intro new left h' hprinted hdrained hinput' hradio hreads
      exact ⟨heard, answer, more,
        hw.turn (hinput'.trans hinput) (hradio ▸ hsaid) hprinted hsilent hdrained hreads⟩
    · obtain ⟨board, more, hturn, hplain, hinput, houtput, hfree, hsilent, hradio⟩ :=
        turn_idle _ he.plain ha.input
      refine he.readLine_of_turn board more hturn hplain houtput hfree ?_
      intro new left h' hprinted _ hinput' hradio' _
      exact ⟨before, answer, after ++ more,
        ha.turn (hinput'.trans hinput) (hradio'.trans hradio) hprinted hsilent⟩

/-! ## A window -/

/-- A window returns what has been heard, unless it is given up; the exchange stands in either case. -/
theorem collect (he : Exchange texts S h heard left) (hsendable : ∀ t ∈ texts, Sendable t)
    (hcarries : Carries texts S) (deadline : τ) (patience : Nat) :
    ∃ heard' left' h', Exchange texts S h' heard' left' ∧
      (Channel.collect deadline patience (shown heard) h = .ok (shown heard') h' ∨
        Channel.collect deadline patience (shown heard) h = .error .outOfPatience h') := by
  have hends := collect_ends (σ := Recorded (WiredLine τ))
    (I := fun lines h' => ∃ heard left, lines = shown heard ∧ Exchange texts S h' heard left)
    (E := fun f h' => f = .outOfPatience ∧ ∃ heard left, Exchange texts S h' heard left)
    ?_ ?_ ?_ ?_ deadline patience (shown heard) h ⟨heard, left, rfl, he⟩
  · generalize Channel.collect deadline patience (shown heard) h = run at hends
    rcases run with ⟨all, h'⟩ | ⟨f, h'⟩
    · obtain ⟨heard', left', rfl, he'⟩ := hends
      exact ⟨heard', left', h', he', .inl rfl⟩
    · obtain ⟨rfl, heard', left', he'⟩ := hends
      exact ⟨heard', left', h', he', .inr rfl⟩
  · rintro _ h₁ ⟨heard₁, left₁, rfl, he₁⟩
    exact ⟨heard₁, left₁, rfl, he₁.of_eq rfl rfl rfl rfl rfl⟩
  · rintro _ _ h₁ ⟨heard₁, left₁, rfl, he₁⟩
    exact ⟨heard₁, left₁, rfl, he₁.of_eq rfl rfl rfl rfl rfl⟩
  · rintro _ h₁ ⟨heard₁, left₁, rfl, he₁⟩
    obtain ⟨text, new, left', h', hread, htext, hnext⟩ := he₁.readLine hsendable hcarries
    rw [hread]
    refine ⟨heard₁ ++ new, left', ?_, hnext⟩
    rw [shown_append, htext]
  · rintro _ h₁ ⟨heard₁, left₁, rfl, he₁⟩
    exact ⟨rfl, heard₁, left₁, he₁⟩

theorem readLines (he : Exchange texts S h [] left) (hsendable : ∀ t ∈ texts, Sendable t)
    (hcarries : Carries texts S) (k : Link τ) (duration : τ) :
    ∃ heard' left' h', Exchange texts S h' heard' left' ∧
      (Client.readLines k duration h = .ok (shown heard') h' ∨
        Client.readLines k duration h = .error .outOfPatience h') := by
  have hnow : Exchange texts S (afterNow h) [] left := he.of_eq rfl rfl rfl rfl rfl
  have hopen := readLines_of_open k duration h he.isOpen
  obtain ⟨heard', left', h', hnext, hrun⟩ :=
    hnow.collect hsendable hcarries (TimeScale.add (SerialLine.clock h.line).now duration) k.patience
  change (Channel.collect _ k.patience [] (afterNow h) = _ ∨
    Channel.collect _ k.patience [] (afterNow h) = _) at hrun
  rw [← hopen] at hrun
  rcases hrun with hrun | hrun
  · refine ⟨heard', left', { h' with inbox := h'.inbox ++ payloads (shown heard') },
      hnext.of_eq rfl rfl rfl rfl rfl, .inl ?_⟩
    exact Call.bind_of_ok hrun
  · refine ⟨heard', left', h', hnext, .inr ?_⟩
    exact Call.bind_of_error hrun

end Exchange

end StationLink.Host
