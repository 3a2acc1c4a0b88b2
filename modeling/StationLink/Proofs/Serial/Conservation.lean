import StationLink.Proofs.Board.Printing
import StationLink.Proofs.Board.WholeLines
import StationLink.Proofs.Serial.Wired
import StationLink.Proofs.Time.Millis

/-!
# What the board prints reaches the reader

A port is followed through any calls and any changes around it. Beside it a twin of the board is kept
that does what the board does and from which nothing is ever collected: its output is all that has been
printed. Main statement: what has been read, what waits in the port and what waits in the board make up
this output, and every read is one whole line of it.
-/

namespace StationLink.Serial

open Text Board

variable {τ : Type}

inductive PortEvent where
  | write (bytes : Bytes)
  | read
  | close
  /-- The port is unplugged or plugged in again. -/
  | unplug (fails : Bool)
  /-- The board is polled from elsewhere. -/
  | poll
  | surround (radio : Radio → Radio) (dialer : Dialer → Dialer)

/-- A line, what has been read from its newest port, and the twin of its board. -/
structure Following (τ : Type) where
  line : WiredLine τ
  delivered : List Bytes := []
  twin : Board

namespace WiredLine

/-- What has been printed and not been read. -/
def undelivered (l : WiredLine τ) : Bytes :=
  l.received ++ l.board.output

theorem Holds.eq_nil {l : WiredLine τ} {left : List Text} (h : l.Holds left) (hempty : l.undelivered = []) :
    left = [] :=
  Utf8.encodeLines_inj left [] h.2 (by simp) (h.1.symm.trans hempty)

end WiredLine

def surroundings (radio : Radio → Radio) (dialer : Dialer → Dialer) (b : Board) : Board :=
  { b with radio := radio b.radio, dialer := dialer b.dialer }

namespace PortEvent

variable [TimeScale τ]

/-- The twin is fed what is written, and has a turn where a read finds no line at hand. -/
def act : PortEvent → Following τ → Following τ
  | .write bytes, f =>
    { f with
      line := (f.line.write bytes).2
      twin := match (f.line.write bytes).1 with
        | .ok _ => f.twin.feed bytes
        | .error _ => f.twin }
  | .read, f =>
    { line := f.line.readLine.2
      delivered := f.delivered ++ f.line.readLine.1.toOption.toList
      twin := if f.line.isOpen && (firstLine? f.line.undelivered).isNone then f.twin.turn.1 else f.twin }
  | .close, f => { f with line := f.line.close.2 }
  | .unplug fails, f => { f with line := f.line.modify ({ · with failsWrite := fails }) }
  | .poll, f => { f with line := { f.line with board := f.line.board.turn.1 }, twin := f.twin.turn.1 }
  | .surround radio dialer, f =>
    { f with
      line := { f.line with board := surroundings radio dialer f.line.board }
      twin := surroundings radio dialer f.twin }

end PortEvent

/-- The twin is the board, with all that has left it still before its output; what is yet to be delivered
are whole lines, and so was each delivery. -/
structure Followed (f : Following τ) : Prop where
  twin : ∃ rests, f.twin =
    f.line.board.around f.line.board.input (f.delivered.flatten ++ f.line.received) rests
  undelivered : ∃ left, f.line.Holds left
  delivered : ∀ bytes ∈ f.delivered, bytes ≠ [] → ∃ t, '\n' ∉ t ∧ bytes = Utf8.encodeLine t
  begun : Utf8.encodeLines banner <+: f.twin.output

theorem received_modify_of_eq (l : WiredLine τ) (change : WiredPort τ → WiredPort τ)
    (h : ∀ p, (change p).received = p.received) : (l.modify change).received = l.received := by
  obtain ⟨_, _, _, _, _ | ⟨p, ps⟩⟩ := l
  · rfl
  · exact h p

namespace Followed

variable {f : Following τ}

theorem output (h : Followed f) : f.delivered.flatten ++ f.line.undelivered = f.twin.output := by
  obtain ⟨rests, htwin⟩ := h.twin
  rw [htwin, WiredLine.undelivered, ← List.append_assoc]
  rfl

/-- Calls that move no output: they change both boards alike and leave what the port has received. -/
theorem of_change (h : Followed f) (line : WiredLine τ) (change : Board → Board)
    (hboard : line.board = change f.line.board) (hreceived : line.received = f.line.received)
    (haround : ∀ b output rests, change (b.around b.input output rests) =
      (change b).around (change b).input output rests)
    (houtput : ∀ b, (change b).output = b.output) :
    Followed { f with line, twin := change f.twin } := by
  obtain ⟨rests, htwin⟩ := h.twin
  obtain ⟨left, hleft, hfree⟩ := h.undelivered
  refine ⟨⟨rests, ?_⟩, ⟨left, ?_, hfree⟩, h.delivered, ?_⟩
  · change change f.twin = _
    rw [htwin, haround, hboard, hreceived]
  · rw [hboard, hreceived, houtput, hleft]
  · change _ <+: (change f.twin).output
    rw [houtput]
    exact h.begun

theorem write (h : Followed f) (line : WiredLine τ) (bytes : Bytes)
    (hline : line = f.line.sent bytes) : Followed { f with line, twin := f.twin.feed bytes } := by
  subst hline
  refine h.of_change _ (Board.feed bytes) rfl ?_ (fun _ _ _ => rfl) fun _ => rfl
  exact received_modify_of_eq { f.line with board := f.line.board.feed bytes } _ fun _ => rfl

theorem modify (h : Followed f) (change : WiredPort τ → WiredPort τ)
    (hchange : ∀ p, (change p).received = p.received) :
    Followed { f with line := f.line.modify change } :=
  h.of_change _ id rfl (received_modify_of_eq f.line change hchange) (fun _ _ _ => rfl) fun _ => rfl

theorem surround (h : Followed f) (radio : Radio → Radio) (dialer : Dialer → Dialer) :
    Followed { f with
      line := { f.line with board := surroundings radio dialer f.line.board }
      twin := surroundings radio dialer f.twin } :=
  h.of_change _ (surroundings radio dialer) rfl rfl (fun _ _ _ => rfl) fun _ => rfl

theorem begun_turn (h : Followed f) : Utf8.encodeLines banner <+: f.twin.turn.1.output := by
  obtain ⟨texts, houtput⟩ := adds_turn f.twin
  rw [houtput]
  exact h.begun.trans (List.prefix_append _ _)

theorem twin_turn (h : Followed f) :
    ∃ rests, f.twin.turn.1 = f.line.board.turn.1.around f.line.board.turn.1.input
      (f.delivered.flatten ++ f.line.received) rests := by
  obtain ⟨rests, htwin⟩ := h.twin
  refine ⟨rests, ?_⟩
  rw [htwin, turn_around]

theorem poll (h : Followed f) :
    Followed { f with
      line := { f.line with board := f.line.board.turn.1 }
      twin := f.twin.turn.1 } := by
  obtain ⟨left, hleft, hfree⟩ := h.undelivered
  obtain ⟨lines, houtput, hlines⟩ := (adds_turn f.line.board).lines
  refine ⟨h.twin_turn, ⟨left ++ lines, ?_, List.forall_mem_append.mpr ⟨hfree, hlines⟩⟩, h.delivered,
    h.begun_turn⟩
  change f.line.received ++ f.line.board.turn.1.output = _
  rw [houtput, ← List.append_assoc, hleft, Utf8.encodeLines_append]

/-! ## A read -/

theorem delivered_snoc (h : Followed f) (lines : List Text) (hlines : ∀ t ∈ lines, '\n' ∉ t) :
    ∀ bytes ∈ f.delivered ++ [Utf8.encodeLines (lines.take 1)], bytes ≠ [] →
      ∃ u, '\n' ∉ u ∧ bytes = Utf8.encodeLine u := by
  intro bytes hmem hne
  rcases List.mem_append.mp hmem with hmem | hmem
  · exact h.delivered bytes hmem hne
  · obtain rfl := List.mem_singleton.mp hmem
    cases lines with
    | nil => exact absurd rfl hne
    | cons t lines => exact ⟨t, hlines t List.mem_cons_self, Utf8.encodeLines_singleton t⟩

theorem flatten_snoc (pieces : List Bytes) (lines : List Text) :
    (pieces ++ [Utf8.encodeLines (lines.take 1)]).flatten ++ Utf8.encodeLines lines.tail =
      pieces.flatten ++ Utf8.encodeLines lines := by
  rw [List.flatten_append, List.flatten_singleton, List.append_assoc, ← Utf8.encodeLines_append]
  cases lines <;> rfl

variable [TimeScale τ]

/-- Where a line is at hand neither board has a turn, and otherwise both have. -/
theorem read_of_open (h : Followed f) (ho : f.line.isOpen = true) :
    Followed (PortEvent.act .read f) := by
  obtain ⟨left, hleft⟩ := h.undelivered
  have hreads := f.line.reads_readLine ho left hleft
  have hact : PortEvent.act .read f =
      { line := f.line.readLine.2
        delivered := f.delivered ++ f.line.readLine.1.toOption.toList
        twin := if (firstLine? (Utf8.encodeLines left)).isNone then f.twin.turn.1 else f.twin } := by
    rw [← hleft.1, PortEvent.act, ho, Bool.true_and]
    rfl
  rw [hact]
  generalize f.line.readLine = read at hreads
  cases hreads with
  | atHand t left =>
    obtain ⟨rests, htwin⟩ := h.twin
    have hall := flatten_snoc f.delivered (t :: left)
    rw [List.tail_cons, ← hleft.1, ← List.append_assoc] at hall
    rw [WiredLine.firstLine?_encodeLines t left (hleft.2 t List.mem_cons_self), ← Utf8.encodeLines_singleton]
    refine ⟨⟨rests, ?_⟩, ⟨left, .put _ _ ho left rfl fun u hu => hleft.2 u (List.mem_cons_of_mem t hu)⟩,
      h.delivered_snoc (t :: left) hleft.2, h.begun⟩
    change f.twin = around _ (List.flatten (f.delivered ++ [Utf8.encodeLines [t]]) ++ _) _ _
    rw [htwin, WiredLine.received_put _ _ _ _ ho, WiredLine.board_put]
    simp only [around, ← hall, List.append_nil, List.take_succ_cons, List.take_zero]
  | afterTurn board printed clock hturn houtput hprinted =>
    obtain ⟨rests, htwin⟩ := h.twin_turn
    rw [hturn, (f.line.collect_of_drained ho hleft).2.1, List.append_nil] at htwin
    refine ⟨⟨rests ++ board.rests, ?_⟩, ⟨printed.tail, .put _ _ ho _ rfl ?_⟩,
      h.delivered_snoc printed hprinted, h.begun_turn⟩
    · change f.twin.turn.1 = _
      rw [htwin, WiredLine.received_put _ _ _ _ ho, WiredLine.board_put]
      change _ = around _ (List.flatten (f.delivered ++ [Utf8.encodeLines (printed.take 1)]) ++ _) _ _
      rw [flatten_snoc, ← houtput]
      simp only [around, List.append_nil]
    · exact fun t ht => hprinted t (List.mem_of_mem_tail ht)
  | atCrash board crash printed clock hturn houtput hprinted =>
    obtain ⟨rests, htwin⟩ := h.twin_turn
    rw [hturn, (f.line.collect_of_drained ho hleft).2.1] at htwin
    refine ⟨⟨rests ++ board.rests, ?_⟩, ⟨printed, ?_, hprinted⟩, ?_, h.begun_turn⟩
    · change f.twin.turn.1 = _
      rw [htwin, WiredLine.received_put _ _ _ _ ho, WiredLine.board_put]
      simp [around, Except.toOption]
    · rw [WiredLine.received_put _ _ _ _ ho, WiredLine.board_put]
      exact houtput
    · simpa [Except.toOption] using h.delivered

theorem read (h : Followed f) : Followed (PortEvent.act .read f) := by
  cases ho : f.line.isOpen with
  | true => exact h.read_of_open ho
  | false =>
    have hread : f.line.readLine = (.error .notOpen, f.line) := by
      rw [WiredLine.readLine, ho]
      rfl
    have hact : PortEvent.act .read f = f := by
      rw [PortEvent.act, hread, ho]
      simp [Except.toOption]
    rw [hact]
    exact h

theorem act (h : Followed f) (e : PortEvent) : Followed (e.act f) := by
  cases e with
  | write bytes =>
    simp only [PortEvent.act, WiredLine.write]
    split
    · exact h
    split
    · exact h
    · exact h.write _ bytes rfl
  | read => exact h.read
  | close => exact h.modify _ fun _ => rfl
  | unplug fails => exact h.modify _ fun _ => rfl
  | poll => exact h.poll
  | surround radio dialer => exact h.surround radio dialer

theorem run (h : Followed f) (events : List PortEvent) :
    Followed (events.foldl (fun f e => e.act f) f) := by
  induction events generalizing f with
  | nil => exact h
  | cons e events ih => exact ih (h.act e)

theorem drained_of_empty (h : Followed f) (line : WiredLine τ) (hread : f.line.readLine = (.ok [], line)) :
    line.undelivered = [] := by
  have hne (t : Text) : Utf8.encodeLine t ≠ [] := by simp [Utf8.encodeLine]
  cases ho : f.line.isOpen with
  | false =>
    rw [WiredLine.readLine, ho] at hread
    cases hread
  | true =>
    obtain ⟨left, hleft⟩ := h.undelivered
    have hreads := f.line.reads_readLine ho left hleft
    generalize hrun : f.line.readLine = run at hreads
    rw [hrun] at hread
    cases hreads with
    | atHand t left => exact absurd (Except.ok.inj (congrArg Prod.fst hread)) (hne t)
    | afterTurn board printed clock hturn houtput hprinted =>
      have hbytes : Utf8.encodeLines (printed.take 1) = [] := Except.ok.inj (congrArg Prod.fst hread)
      obtain rfl : _ = line := congrArg Prod.snd hread
      cases printed with
      | nil =>
        rw [WiredLine.undelivered, WiredLine.received_put _ _ _ _ ho, WiredLine.board_put]
        rfl
      | cons t printed =>
        rw [List.take_succ_cons, List.take_zero, Utf8.encodeLines_singleton] at hbytes
        exact absurd hbytes (hne t)
    | atCrash board crash printed clock hturn houtput hprinted => cases congrArg Prod.fst hread

end Followed

/-! ## A port from its opening on -/

variable [TimeScale τ]

/-- The newest port of a line, followed through events from now on. -/
def follow (events : List PortEvent) (l : WiredLine τ) : Following τ :=
  events.foldl (fun f e => e.act f) { line := l, twin := l.board }

theorem followed_of_openPort (l₀ l : WiredLine τ) (settings : PortSettings τ)
    (hopen : l₀.openPort settings = (.ok (), l)) : Followed { line := l, twin := l.board } := by
  cases hfault : l₀.openings.fault? with
  | some f =>
    rw [l₀.openPort_of_fault settings f hfault] at hopen
    cases hopen
  | none =>
    rw [l₀.openPort_of_none settings hfault] at hopen
    obtain rfl : _ = l := congrArg Prod.snd hopen
    have hbanner : l₀.board.reset.output = Utf8.encodeLines banner := output_reset l₀.board
    refine ⟨⟨[], (around_self _).symm⟩, ⟨banner, hbanner, fun t ht => (silent_banner t ht).1⟩, by simp, ?_⟩
    exact hbanner ▸ List.prefix_refl _

/-- From the opening of a port on, through any writes, reads, closes and changes around it: what has been
read, what the port has received and what is left in the output of the board are together what the board
has printed, with the banner first; each read that returns anything returns one line with its line feed;
and a read that returns nothing leaves nothing undelivered. -/
theorem printed_is_delivered (l₀ l : WiredLine τ) (settings : PortSettings τ)
    (hopen : l₀.openPort settings = (.ok (), l)) (events : List PortEvent) :
    (follow events l).delivered.flatten ++
        ((follow events l).line.received ++ (follow events l).line.board.output) =
      (follow events l).twin.output ∧
    (∃ rests, (follow events l).twin =
      { (follow events l).line.board with output := (follow events l).twin.output, rests }) ∧
    Utf8.encodeLines banner <+: (follow events l).twin.output ∧
    (∀ bytes ∈ (follow events l).delivered, bytes ≠ [] →
      ∃ t, '\n' ∉ t ∧ bytes = Utf8.encode t ++ [0x0A]) ∧
    ∀ line, (follow events l).line.readLine = (.ok [], line) →
      line.received = [] ∧ line.board.output = [] := by
  have hf : Followed (follow events l) := (followed_of_openPort l₀ l settings hopen).run events
  refine ⟨hf.output, ?_, hf.begun, hf.delivered, ?_⟩
  · obtain ⟨rests, htwin⟩ := hf.twin
    refine ⟨rests ++ (follow events l).line.board.rests, ?_⟩
    rw [htwin]
    rfl
  · intro line hread
    exact List.append_eq_nil_iff.mp (hf.drained_of_empty line hread)

/-! ## An eventful port -/

/-- A station whose peer sends a line feed and bytes that are not UTF-8, and whose second call faults. -/
def beacon : WiredLine Millis where
  clock := .start ⟨0⟩
  board := boot [{ ssid := "café".toList, rssi := -61, ip := "10.0.0\n.2".toList }]
    [.answer { inbox := [.data 0x61 [0x0A, 0xFF], .reset] }, .fault]
  paced := true

/-- Two lines of which the second is cut, a call that faults half way, and a port that is closed while
output waits. -/
def eventful : List PortEvent :=
  .write "TCPCONNECT:h:1\nCONNECT:café:\nIP\nTCPSE".toUTF8.toList :: List.replicate 16 .read ++
    [.unplug true, .write [0x0A], .unplug false, .poll, .surround Radio.leave id, .write [0xFF, 0x0A], .read,
      .write "TCPCONNECT:h:2\n".toUTF8.toList, .read, .poll, .read, .write "STATUS\n".toUTF8.toList, .poll,
      .close, .read]

def slowPort : PortSettings Millis :=
  { baudrate := some 9600, timeout := none, writeTimeout := ⟨0⟩ }

theorem printed_is_delivered_of_eventful :
    ∃ l, beacon.openPort slowPort = (.ok (), l) ∧
      (follow eventful l).delivered.flatten ++
          ((follow eventful l).line.received ++ (follow eventful l).line.board.output) =
        (follow eventful l).twin.output ∧
      Utf8.encodeLines banner <+: (follow eventful l).twin.output ∧
      ∀ bytes ∈ (follow eventful l).delivered, bytes ≠ [] →
        ∃ t, '\n' ∉ t ∧ bytes = Utf8.encode t ++ [0x0A] := by
  have hopen : beacon.openPort slowPort = (.ok (), (beacon.openPort slowPort).2) := Prod.ext rfl rfl
  obtain ⟨hall, _, hbanner, hlines, _⟩ := printed_is_delivered beacon _ slowPort hopen eventful
  exact ⟨_, hopen, hall, hbanner, hlines⟩

end StationLink.Serial
