import StationLink.Proofs.Board.Carrying
import StationLink.Proofs.Host.Resting

/-!
# What a window hears

A window opens on lines at hand and texts that wait at the board. It hears the lines at hand, then what
the texts come to, then what is forwarded, in this order and without a gap; how far it gets depends on
the clock. A crash ends it. Nothing is supposed of the board.
-/

namespace StationLink.Host

open Serial Text Protocol Board Channel

variable {τ : Type}

/-- A read that finds no line, or fails. -/
def bringsNoLine : Except Fault Bytes → Bool
  | .ok bytes => lineFeed ∉ bytes
  | .error _ => true

def Spent (reads : List (Except Fault Bytes)) : Prop :=
  ∃ read ∈ reads, bringsNoLine read = true

instance : DecidablePred Spent := fun reads =>
  inferInstanceAs (Decidable (∃ read ∈ reads, bringsNoLine read = true))

theorem not_spent_nil : ¬ Spent [] := by
  rintro ⟨read, hread, _⟩
  cases hread

theorem spent_snoc (reads : List (Except Fault Bytes)) (read : Except Fault Bytes) :
    Spent (reads ++ [read]) ↔ Spent reads ∨ bringsNoLine read = true := by
  constructor
  · rintro ⟨found, hmem, hfound⟩
    rcases List.mem_append.mp hmem with hmem | hmem
    · exact .inl ⟨found, hmem, hfound⟩
    · obtain rfl := List.mem_singleton.mp hmem
      exact .inr hfound
  · rintro (⟨found, hmem, hfound⟩ | hread)
    · exact ⟨found, List.mem_append_left _ hmem, hfound⟩
    · exact ⟨read, by simp, hread⟩

theorem bringsNoLine_encodeLines (lines : List Text) :
    bringsNoLine (.ok (Utf8.encodeLines lines)) = true ↔ lines = [] := by
  rw [bringsNoLine, decide_eq_true_eq]
  exact lineFeed_mem_encodeLines lines

/-- Between two calls: an open port, texts that wait whole at the board, and lines at hand. -/
structure Links (texts left : List Text) (h : Host (WiredLine τ)) : Prop where
  held : h.held = true
  ready : h.line.Ready
  pending : h.pending = []
  input : h.line.board.input = Utf8.encodeLines texts
  sendable : ∀ t ∈ texts, Sendable t
  holds : h.line.Holds left

/-- A host as a window opens, with the lines that the waiting texts will come to. -/
structure Course (τ : Type) where
  host : Host (Recorded (WiredLine τ))
  texts : List Text
  start : List Text
  answer : List Text
  links : Links texts start host.unrecorded
  reads : host.line.reads = []
  printed : (carried texts host.line.line.board).1.output = Utf8.encodeLines answer
  free : ∀ t ∈ answer, '\n' ∉ t

namespace Course

def after (c : Course τ) : Board :=
  (carried c.texts c.host.line.line.board).1

def crash (c : Course τ) : Option Crash :=
  (carried c.texts c.host.line.line.board).2

end Course

/-- What all reads keep; the lines are those that are left to be read. -/
structure Kept (h₀ h : Host (Recorded (WiredLine τ))) (left : List Text) : Prop where
  held : h.held = true
  ready : h.line.line.Ready
  pending : h.pending = []
  holds : h.line.line.Holds left
  written : h.line.line.written = h₀.line.line.written
  rejoined : h.rejoined = h₀.rejoined

/-- Only lines at hand have been heard, and no read has been without one. -/
structure Waiting (c : Course τ) (h : Host (Recorded (WiredLine τ))) (heard left : List Text) :
    Prop where
  input : h.line.line.board.input = c.host.line.line.board.input
  bare : h.line.line.board.bare = c.host.line.line.board.bare
  lines : heard ++ left = c.start
  busy : ¬ Spent h.line.reads

/-- The texts have been carried out, and the board is idle. -/
structure Answered (c : Course τ) (h : Host (Recorded (WiredLine τ))) (heard left : List Text) :
    Prop where
  whole : c.crash = none
  input : h.line.line.board.input = []
  idled : Idled c.after h.line.line.board
  lines : ∃ more, heard ++ left = c.start ++ c.answer ++ more ∧ Unasked c.after more
  drained : Spent h.line.reads → c.start ++ c.answer <+: heard

/-- Where a window stands: the lines heard since it was opened, and those that are left. -/
structure Hearing (c : Course τ) (h : Host (Recorded (WiredLine τ))) (heard left : List Text) : Prop
    extends Kept c.host h left where
  phase : Waiting c h heard left ∨ Answered c h heard left

/-- The texts have come to a crash, and all that was printed up to it is left. -/
structure Stopped (c : Course τ) (crash : Crash) (h : Host (Recorded (WiredLine τ))) : Prop
    extends Kept c.host h c.answer where
  crash : c.crash = some crash
  input : h.line.line.board.input = []
  idled : Idled c.after h.line.line.board

/-! ## What one read does to the phases -/

variable {c : Course τ} {h h' : Host (Recorded (WiredLine τ))} {heard left : List Text}

theorem Waiting.hear {t : Text} (hw : Waiting c h heard (t :: left))
    (hinput : h'.line.line.board.input = h.line.line.board.input)
    (hbare : h'.line.line.board.bare = h.line.line.board.bare)
    (hreads : h'.line.reads = h.line.reads ++ [.ok (Utf8.encodeLines [t])]) :
    Waiting c h' (heard ++ [t]) left := by
  refine ⟨hinput.trans hw.input, hbare.trans hw.bare, by simpa using hw.lines, ?_⟩
  rw [hreads, spent_snoc, bringsNoLine_encodeLines]
  rintro (hspent | hnil)
  · exact hw.busy hspent
  · cases hnil

theorem Answered.hear {t : Text} (ha : Answered c h heard (t :: left))
    (hinput : h'.line.line.board.input = h.line.line.board.input)
    (hidled : Idled h.line.line.board h'.line.line.board)
    (hreads : h'.line.reads = h.line.reads ++ [.ok (Utf8.encodeLines [t])]) :
    Answered c h' (heard ++ [t]) left := by
  refine ⟨ha.whole, hinput.trans ha.input, ha.idled.trans hidled, by simpa using ha.lines, ?_⟩
  rw [hreads, spent_snoc, bringsNoLine_encodeLines]
  rintro (hspent | hnil)
  · exact (ha.drained hspent).trans (List.prefix_append heard [t])
  · cases hnil

theorem Waiting.turn {printed more : List Text} (hw : Waiting c h heard []) (hwhole : c.crash = none)
    (hinput : h'.line.line.board.input = []) (hidled : Idled c.after h'.line.line.board)
    (hprinted : printed = c.answer ++ more) (hmore : Unasked c.after more)
    (hreads : h'.line.reads = h.line.reads ++ [.ok (Utf8.encodeLines (printed.take 1))]) :
    Answered c h' (heard ++ printed.take 1) printed.tail := by
  have hheard : heard = c.start := by simpa using hw.lines
  have hsplit : printed.take 1 ++ printed.tail = printed := by cases printed <;> rfl
  refine ⟨hwhole, hinput, hidled, ⟨more, ?_, hmore⟩, ?_⟩
  · rw [List.append_assoc, hsplit, hprinted, hheard, List.append_assoc]
  · rw [hreads, spent_snoc, bringsNoLine_encodeLines]
    rintro (hspent | hnil)
    · exact absurd hspent hw.busy
    · have hempty : printed = [] := by
        cases printed with
        | nil => rfl
        | cons t printed => cases hnil
      obtain ⟨hanswer, _⟩ := List.append_eq_nil_iff.mp (hprinted.symm.trans hempty)
      rw [hanswer, List.append_nil, hheard]
      exact List.prefix_append _ _

theorem Answered.turn {printed : List Text} (ha : Answered c h heard [])
    (hinput : h'.line.line.board.input = []) (hidled : Idled h.line.line.board h'.line.line.board)
    (hprinted : Unasked h.line.line.board printed) :
    Answered c h' (heard ++ printed.take 1) printed.tail := by
  obtain ⟨more, hheard, hmore⟩ := ha.lines
  rw [List.append_nil] at hheard
  have hsplit : printed.take 1 ++ printed.tail = printed := by cases printed <;> rfl
  refine ⟨ha.whole, hinput, ha.idled.trans hidled, ⟨more ++ printed, ?_, hmore.append ha.idled hprinted⟩,
    fun _ => ?_⟩
  · rw [List.append_assoc, hsplit, hheard, List.append_assoc]
  · rw [hheard, List.append_assoc (c.start ++ c.answer)]
    exact List.prefix_append _ _

theorem Waiting.turn_cases (hw : Waiting c h heard left) (hout : h.line.line.board.output = []) :
    (c.crash = none ∧ ∃ rests,
      h.line.line.board.turn = ({ c.after.forward with rests }, none)) ∨
    (∃ crash, c.crash = some crash ∧ ∃ rests,
      h.line.line.board.turn = ({ c.after with rests }, some crash)) := by
  have hinput : h.line.line.board.input = Utf8.encodeLines c.texts := hw.input.trans c.links.input
  have hcarried : carried c.texts h.line.line.board = (c.after, c.crash) :=
    carried_of_bare hw.bare c.texts
  cases hcrash : c.crash with
  | none =>
    rw [hcrash] at hcarried
    exact .inl ⟨rfl, turn_of_carried c.texts c.links.sendable _ hinput hout hcarried⟩
  | some crash =>
    rw [hcrash] at hcarried
    exact .inr ⟨crash, rfl, turn_of_crash c.texts c.links.sendable _ hinput hout hcarried⟩

/-! ## What has been heard -/

/-- All that the texts came to has been heard. -/
structure Through (c : Course τ) (h : Host (Recorded (WiredLine τ))) (heard left : List Text) : Prop where
  whole : c.crash = none
  input : h.line.line.board.input = []
  idled : Idled c.after h.line.line.board
  lines : ∃ more, heard = c.start ++ c.answer ++ more ∧ Unasked c.after (more ++ left)

namespace Hearing

theorem through_of_spent (hh : Hearing c h heard left) (hspent : Spent h.line.reads) :
    Through c h heard left := by
  rcases hh.phase with hw | ha
  · exact absurd hspent hw.busy
  · obtain ⟨more, rfl⟩ := ha.drained hspent
    obtain ⟨all, hlines, hunasked⟩ := ha.lines
    rw [List.append_assoc (c.start ++ c.answer)] at hlines
    obtain rfl : more ++ left = all := List.append_cancel_left hlines
    exact ⟨ha.whole, ha.input, ha.idled, more, rfl, hunasked⟩

theorem through_of_drained (hh : Hearing c h heard [])
    (hinput : h.line.line.board.input = []) : Through c h heard [] := by
  rcases hh.phase with hw | ha
  · have htexts : c.texts = [] := by
      have hempty : Utf8.encodeLines c.texts = [] := by
        rw [← c.links.input]
        exact hw.input.symm.trans hinput
      cases htexts : c.texts with
      | nil => rfl
      | cons t texts => simp [htexts, Utf8.encodeLines, Utf8.encodeLine] at hempty
    have hafter : carried c.texts c.host.line.line.board = (c.host.line.line.board.bare, none) := by
      rw [htexts]
      rfl
    have hanswer : c.answer = [] := by
      refine Utf8.encodeLines_inj c.answer [] c.free (by simp) ?_
      rw [← c.printed, hafter]
      rfl
    refine ⟨congrArg Prod.snd hafter, hinput, ?_, [], ?_, fun _ => rfl, by simp⟩
    · rw [Course.after, hafter, ← hw.bare]
      exact .of_eq rfl rfl rfl rfl
    · simpa [hanswer] using hw.lines
  · obtain ⟨more, hlines, hunasked⟩ := ha.lines
    rw [List.append_nil] at hlines
    exact ⟨ha.whole, ha.input, ha.idled, more, hlines, (List.append_nil more).symm ▸ hunasked⟩

end Hearing

inductive Window (c : Course τ) : EStateM.Result Failure (Host (Recorded (WiredLine τ))) (List Text) → Prop
  | closed (heard left : List Text) (h : Host (Recorded (WiredLine τ))) (hh : Hearing c h heard left) :
      Window c (.ok (shown heard) h)
  | givenUp (heard left : List Text) (h : Host (Recorded (WiredLine τ))) (hh : Hearing c h heard left) :
      Window c (.error .outOfPatience h)
  | crashed (crash : Crash) (h : Host (Recorded (WiredLine τ))) (hs : Stopped c crash h) :
      Window c (.error (.invalid (.ofCrash crash)) h)

/-- A window that has heard all there is, or has come to a crash. -/
def Whole (c : Course τ) (run : EStateM.Result Failure (Host (Recorded (WiredLine τ))) (List Text)) : Prop :=
  (∃ heard left h, run = .ok (shown heard) h ∧ Hearing c h heard left ∧ Through c h heard left) ∨
    ∃ crash h, c.crash = some crash ∧ run = .error (.invalid (.ofCrash crash)) h ∧ Stopped c crash h

/-- A window that stays open until a read brings no line has heard all there is, unless it crashes. -/
theorem Window.whole {run : EStateM.Result Failure (Host (Recorded (WiredLine τ))) (List Text)}
    (hw : Window c run) (hspent : Spent (Call.left run).line.reads)
    (hpatience : ∀ h, run ≠ .error .outOfPatience h) : Whole c run := by
  cases hw with
  | closed heard left h hh => exact .inl ⟨heard, left, h, rfl, hh, hh.through_of_spent hspent⟩
  | givenUp heard left h hh => exact absurd rfl (hpatience h)
  | crashed crash h hs => exact .inr ⟨crash, h, hs.crash, rfl, hs⟩

/-! ## One read -/

theorem Kept.of_eq {h₀ : Host (Recorded (WiredLine τ))} (hk : Kept h₀ h left)
    (hboard : h'.line.line.board = h.line.line.board)
    (hports : h'.line.line.ports = h.line.line.ports) (hheld : h'.held = h.held)
    (hpending : h'.pending = h.pending) (hrejoined : h'.rejoined = h.rejoined) : Kept h₀ h' left := by
  obtain ⟨hready, hholds⟩ := WiredLine.ready_and_holds_of_eq hboard hports hk.ready hk.holds
  refine ⟨hheld.trans hk.held, hready, hpending.trans hk.pending, hholds, ?_,
    hrejoined.trans hk.rejoined⟩
  rw [← hk.written, WiredLine.written, WiredLine.written, hports]

namespace Hearing

/-- Clock, journal and inbox do not bear on where a window stands. -/
theorem of_eq (hh : Hearing c h heard left) (hboard : h'.line.line.board = h.line.line.board)
    (hports : h'.line.line.ports = h.line.line.ports) (hreads : h'.line.reads = h.line.reads)
    (hheld : h'.held = h.held) (hpending : h'.pending = h.pending)
    (hrejoined : h'.rejoined = h.rejoined) : Hearing c h' heard left := by
  refine ⟨hh.toKept.of_eq hboard hports hheld hpending hrejoined, ?_⟩
  rcases hh.phase with hw | ha
  · exact .inl ⟨hboard ▸ hw.input, hboard ▸ hw.bare, hw.lines, hreads ▸ hw.busy⟩
  · exact .inr ⟨ha.whole, hboard ▸ ha.input, hboard ▸ ha.idled, ha.lines, hreads ▸ ha.drained⟩

theorem isOpen [TimeScale τ] (hh : Hearing c h heard left) : h.isOpen = true :=
  isOpen_of_held hh.held hh.ready.1

theorem kept_put (hh : Hearing c h heard left) (clock : Clock τ) (board : Board) (left' : List Text)
    (reads : List (Except Fault Bytes)) (hout : board.output = []) (hleft : ∀ t ∈ left', '\n' ∉ t) :
    Kept c.host
      { h with line := ⟨h.line.line.put clock board (Utf8.encodeLines left'), reads⟩, pending := [] }
      left' where
  held := hh.held
  ready := hh.ready.put _ _ _
  pending := rfl
  holds := .put _ _ hh.ready.1 left' hout hleft
  written := (WiredLine.written_put _ _ _ _).trans hh.written
  rejoined := hh.rejoined

variable [TimeScale τ]

theorem readLine_at_hand {t : Text} (hh : Hearing c h heard (t :: left)) (line : WiredLine τ)
    (hline : line = h.line.line.put h.line.line.clock { h.line.line.board with output := [] }
      (Utf8.encodeLines left))
    (hread : h.line.line.readLine = (.ok (Utf8.encodeLine t), line)) :
    ∃ text h', Channel.readLine h = .ok text h' ∧ text.toList.filter (· ≠ []) = shown [t] ∧
      Hearing c h' (heard ++ [t]) left := by
  subst hline
  rw [← Utf8.encodeLines_singleton] at hread
  obtain ⟨text, hrun, htext⟩ := readLine_of_wired h hh.isOpen hh.pending [t] (by simp) _ hread
  refine ⟨text, _, hrun, htext, hh.kept_put _ _ left _ rfl fun u hu =>
    hh.holds.2 u (List.mem_cons_of_mem t hu), ?_⟩
  rcases hh.phase with hw | ha
  · exact .inl (hw.hear rfl rfl rfl)
  · exact .inr (ha.hear rfl (.of_eq rfl rfl rfl rfl) rfl)

/-- Without a line at hand the board has its turn, and the first line printed in it is read. -/
theorem readLine_after_turn (hh : Hearing c h heard []) (board : Board) (printed : List Text)
    (clock : Clock τ) (hturn : h.line.line.board.turn = (board, none))
    (houtput : board.output = Utf8.encodeLines printed) (hprinted : ∀ t ∈ printed, '\n' ∉ t)
    (hread : h.line.line.readLine = (.ok (Utf8.encodeLines (printed.take 1)),
      h.line.line.put clock { board with output := [], rests := [] } (Utf8.encodeLines printed.tail))) :
    ∃ text h', Channel.readLine h = .ok text h' ∧
      text.toList.filter (· ≠ []) = shown (printed.take 1) ∧
      Hearing c h' (heard ++ printed.take 1) printed.tail := by
  obtain ⟨text, hrun, htext⟩ := readLine_of_wired h hh.isOpen hh.pending (printed.take 1)
    (List.length_take_le 1 _) _ hread
  obtain ⟨_, _, hdrained⟩ := h.line.line.collect_of_drained hh.ready.1 hh.holds
  refine ⟨text, _, hrun, htext, hh.kept_put _ _ printed.tail _ rfl fun t ht =>
    hprinted t (List.mem_of_mem_tail ht), .inr ?_⟩
  rcases hh.phase with hw | ha
  · rcases hw.turn_cases hdrained with ⟨hcrash, rests, hwhole⟩ | ⟨crash, _, rests, hcrashed⟩
    · obtain rfl : _ = board := congrArg Prod.fst (hwhole.symm.trans hturn)
      obtain ⟨more, hmore, hfree, hunasked⟩ := output_forward c.after
      have hanswer : c.after.output = Utf8.encodeLines c.answer := c.printed
      have hall : Utf8.encodeLines printed = Utf8.encodeLines (c.answer ++ more) := by
        rw [← houtput, Utf8.encodeLines_append, ← hanswer, ← hmore]
      have hsplit := Utf8.encodeLines_inj printed _ hprinted
        (List.forall_mem_append.mpr ⟨c.free, hfree⟩) hall
      refine hw.turn hcrash ?_ ?_ hsplit hunasked rfl
      · exact (input_forward c.after).trans (input_carried _ _)
      · exact (Idled.forward c.after).trans (.of_eq rfl rfl rfl rfl)
    · cases hturn.symm.trans hcrashed
  · obtain ⟨rests, hidle⟩ := turn_of_idle h.line.line.board ha.input hdrained
    obtain rfl : _ = board := congrArg Prod.fst (hidle.symm.trans hturn)
    obtain ⟨more, hmore, hfree, hunasked⟩ := output_forward h.line.line.board.bare
    have hall : Utf8.encodeLines printed = Utf8.encodeLines more := houtput.symm.trans hmore
    obtain rfl := Utf8.encodeLines_inj printed more hprinted hfree hall
    refine ha.turn ?_ ?_ ⟨hunasked.alone, hunasked.data⟩
    · exact input_forward h.line.line.board.bare
    · have hbare : Idled h.line.line.board h.line.line.board.bare := .of_eq rfl rfl rfl rfl
      exact (hbare.trans (.forward _)).trans (.of_eq rfl rfl rfl rfl)

theorem readLine_at_crash (hh : Hearing c h heard []) (board : Board) (crash : Crash)
    (printed : List Text) (clock : Clock τ) (hturn : h.line.line.board.turn = (board, some crash))
    (houtput : board.output = Utf8.encodeLines printed) (hprinted : ∀ t ∈ printed, '\n' ∉ t)
    (hread : h.line.line.readLine =
      (.error (.ofCrash crash), h.line.line.put clock { board with rests := [] } [])) :
    ∃ h', Channel.readLine h = .error (.invalid (.ofCrash crash)) h' ∧ Stopped c crash h' := by
  obtain ⟨_, _, hdrained⟩ := h.line.line.collect_of_drained hh.ready.1 hh.holds
  have hr : SerialLine.readLine h.line = (.error (.ofCrash crash),
      ⟨h.line.line.put clock { board with rests := [] } [], h.line.reads ++ [.error (.ofCrash crash)]⟩) := by
    change Recorded.readLine h.line = _
    have hline : SerialLine.readLine h.line.line = _ := hread
    rw [Recorded.readLine, hline]
  have hrun := readLine_of_fault h hh.isOpen _ _ hr
  rw [Fault.isIo_ofCrash] at hrun
  have hkept (hprints : printed = c.answer) : Kept c.host
      { h with line := ⟨h.line.line.put clock { board with rests := [] } [],
                        h.line.reads ++ [.error (.ofCrash crash)]⟩ } c.answer := by
    refine ⟨hh.held, hh.ready.put _ _ _, hh.pending, ⟨?_, c.free⟩,
      (WiredLine.written_put _ _ _ _).trans hh.written, hh.rejoined⟩
    rw [WiredLine.received_put _ _ _ _ hh.ready.1, WiredLine.board_put, ← hprints]
    exact houtput
  rcases hh.phase with hw | ha
  · rcases hw.turn_cases hdrained with ⟨_, rests, hwhole⟩ | ⟨crash', hcrash, rests, hcrashed⟩
    · cases hturn.symm.trans hwhole
    · obtain ⟨hboard, hsame⟩ := Prod.mk.inj (hcrashed.symm.trans hturn)
      obtain rfl := Option.some.inj hsame
      subst hboard
      have hprints : printed = c.answer :=
        Utf8.encodeLines_inj printed c.answer hprinted c.free (houtput.symm.trans c.printed)
      exact ⟨_, hrun, hkept hprints, hcrash, input_carried _ _, .of_eq rfl rfl rfl rfl⟩
  · obtain ⟨rests, hidle⟩ := turn_of_idle h.line.line.board ha.input hdrained
    cases hturn.symm.trans hidle

theorem readLine (hh : Hearing c h heard left) :
    Call.Ends
      (fun text h' => ∃ new left', text.toList.filter (· ≠ []) = shown new ∧
        Hearing c h' (heard ++ new) left')
      (fun f h' => ∃ crash, f = .invalid (.ofCrash crash) ∧ Stopped c crash h')
      (Channel.readLine h) := by
  have hreads := h.line.line.reads_readLine hh.ready.1 left hh.holds
  generalize hread : h.line.line.readLine = read at hreads
  cases hreads with
  | atHand t left =>
    obtain ⟨text, h', hrun, htext, hnext⟩ := hh.readLine_at_hand _ rfl hread
    rw [hrun]
    exact ⟨[t], left, htext, hnext⟩
  | afterTurn board printed clock hturn houtput hprinted =>
    obtain ⟨text, h', hrun, htext, hnext⟩ :=
      hh.readLine_after_turn board printed clock hturn houtput hprinted hread
    rw [hrun]
    exact ⟨printed.take 1, printed.tail, htext, hnext⟩
  | atCrash board crash printed clock hturn houtput hprinted =>
    obtain ⟨h', hrun, hstop⟩ :=
      hh.readLine_at_crash board crash printed clock hturn houtput hprinted hread
    rw [hrun]
    exact ⟨crash, rfl, hstop⟩

end Hearing

/-! ## A window -/

theorem Course.hearing (c : Course τ) : Hearing c c.host [] c.start := by
  refine ⟨⟨c.links.held, c.links.ready, c.links.pending, c.links.holds, rfl, rfl⟩, .inl ⟨rfl, rfl, rfl, ?_⟩⟩
  rw [c.reads]
  exact not_spent_nil

variable [TimeScale τ]

theorem Hearing.collect (hh : Hearing c h heard left) (deadline : τ) (patience : Nat) :
    Window c (Channel.collect deadline patience (shown heard) h) := by
  have hends := collect_ends (σ := Recorded (WiredLine τ))
    (I := fun lines h' => ∃ heard left, lines = shown heard ∧ Hearing c h' heard left)
    (E := fun f h' => Window c (.error f h'))
    ?_ ?_ ?_ ?_ deadline patience (shown heard) h ⟨heard, left, rfl, hh⟩
  · generalize Channel.collect deadline patience (shown heard) h = run at hends
    rcases run with ⟨all, h'⟩ | ⟨f, h'⟩
    · obtain ⟨heard', left', rfl, hh'⟩ := hends
      exact .closed heard' left' h' hh'
    · exact hends
  · rintro _ h₁ ⟨heard₁, left₁, rfl, hh₁⟩
    exact ⟨heard₁, left₁, rfl, hh₁.of_eq rfl rfl rfl rfl rfl rfl⟩
  · rintro _ _ h₁ ⟨heard₁, left₁, rfl, hh₁⟩
    exact ⟨heard₁, left₁, rfl, hh₁.of_eq rfl rfl rfl rfl rfl rfl⟩
  · rintro _ h₁ ⟨heard₁, left₁, rfl, hh₁⟩
    have hread := hh₁.readLine
    generalize Channel.readLine h₁ = read at hread
    rcases read with ⟨text, h'⟩ | ⟨f, h'⟩
    · obtain ⟨new, left', htext, hnext⟩ := hread
      exact ⟨heard₁ ++ new, left', by rw [shown_append, htext], hnext⟩
    · obtain ⟨crash, rfl, hstop⟩ := hread
      exact .crashed crash h' hstop
  · rintro _ h₁ ⟨heard₁, left₁, rfl, hh₁⟩
    exact .givenUp heard₁ left₁ h₁ hh₁

theorem Course.window (c : Course τ) (k : Link τ) (duration : τ) :
    Window c (Client.readLines k duration c.host) := by
  have hnow : Hearing c (afterNow c.host) [] c.start := c.hearing.of_eq rfl rfl rfl rfl rfl rfl
  have hwindow := hnow.collect (TimeScale.add (SerialLine.clock c.host.line).now duration) k.patience
  have hopen := readLines_of_open k duration c.host c.hearing.isOpen
  change Window c (Channel.collect _ k.patience [] (afterNow c.host)) at hwindow
  rw [← hopen] at hwindow
  generalize hrun : Channel.readLines k duration c.host = run at hwindow
  cases hwindow with
  | closed heard left h hh =>
    have hkept : Client.readLines k duration c.host =
        .ok (shown heard) { h with inbox := h.inbox ++ payloads (shown heard) } := Call.bind_of_ok hrun
    rw [hkept]
    exact .closed heard left _ (hh.of_eq rfl rfl rfl rfl rfl rfl)
  | givenUp heard left h hh =>
    have hkept : Client.readLines k duration c.host = .error .outOfPatience h := Call.bind_of_error hrun
    rw [hkept]
    exact .givenUp heard left h hh
  | crashed crash h hs =>
    have hkept : Client.readLines k duration c.host = .error (.invalid (.ofCrash crash)) h :=
      Call.bind_of_error hrun
    rw [hkept]
    exact .crashed crash h hs

end StationLink.Host
