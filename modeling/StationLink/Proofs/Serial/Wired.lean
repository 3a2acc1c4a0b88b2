import StationLink.Proofs.Board.WholeLines
import StationLink.Serial.Wired

/-!
# What a wired port does

A port that is open and plugged in takes every write to the board. What the board has printed is read
line by line; a read that has no line at hand gives the board a turn first.
-/

namespace StationLink.Serial

open Text

theorem firstLine?_encodeLine (t : Text) (rest : Bytes) (h : '\n' ∉ t) :
    firstLine? (Utf8.encodeLine t ++ rest) = some (Utf8.encodeLine t, rest) := by
  have hbytes : (0x0A : UInt8) ∉ Utf8.encode t := Utf8.not_mem_encode t 0x0A (by decide) h
  rw [Utf8.encodeLine]
  generalize Utf8.encode t = bs at hbytes
  induction bs with
  | nil => rfl
  | cons b bs ih =>
    have hb : b ≠ 0x0A := fun he => hbytes (he ▸ List.mem_cons_self)
    have hrest := ih fun hmem => hbytes (List.mem_cons_of_mem b hmem)
    rw [List.cons_append, List.cons_append, firstLine?, if_neg hb, hrest]
    rfl

namespace WiredLine

variable {τ : Type}

/-- The port is open and plugged in. -/
def Ready (l : WiredLine τ) : Prop :=
  l.isOpen = true ∧ l.failsWrite = false

def sent (bytes : Bytes) (l : WiredLine τ) : WiredLine τ :=
  { l with board := l.board.feed bytes }.modify fun p => { p with written := p.written ++ bytes }

theorem write_of_ready (l : WiredLine τ) (bytes : Bytes) (h : l.Ready) :
    l.write bytes = (.ok (), l.sent bytes) := by
  rw [write, h.1, h.2]
  rfl

theorem Ready.sent {l : WiredLine τ} (h : l.Ready) (bytes : Bytes) : (l.sent bytes).Ready := by
  obtain ⟨clock, board, paced, openings, _ | ⟨p, ps⟩⟩ := l
  · exact h
  · exact h

theorem written_sent (l : WiredLine τ) (ho : l.isOpen = true) (bytes : Bytes) :
    (l.sent bytes).written = l.written ++ bytes := by
  obtain ⟨_, _, _, _, _ | ⟨p, ps⟩⟩ := l
  · cases ho
  · simp [sent, modify, modifyNewest, written]

theorem openPort_of_fault [TimeScale τ] (l : WiredLine τ) (settings : PortSettings τ) (f : Fault)
    (h : l.openings.fault? = some f) :
    l.openPort settings = (.error f, { l with openings := l.openings.next }) := by
  rw [openPort, h]

theorem openPort_of_none [TimeScale τ] (l : WiredLine τ) (settings : PortSettings τ)
    (h : l.openings.fault? = none) :
    l.openPort settings =
      (.ok (), { l with
        openings := l.openings.next
        board := l.board.reset
        ports := { timeout := settings.timeout } :: l.ports }) := by
  rw [openPort, h]

/-! ## Reading -/

section

variable [TimeScale τ]

theorem takeLine_of_first (l : WiredLine τ) (line rest : Bytes)
    (h : firstLine? l.received = some (line, rest)) :
    l.takeLine = (line, l.modify ({ · with received := rest })) := by
  rw [takeLine, h]

theorem takeLine_of_none (l : WiredLine τ) (h : firstLine? l.received = none) :
    l.takeLine = (l.received, (l.sleep l.timeout).modify ({ · with received := [] })) := by
  rw [takeLine, h]

theorem readLine_of_first (l : WiredLine τ) (ho : l.isOpen = true) (line rest : Bytes)
    (h : firstLine? l.collect.received = some (line, rest)) :
    l.readLine = (.ok line, l.collect.modify ({ · with received := rest })) := by
  simp only [readLine, ho, h, Option.isSome_some, takeLine_of_first _ line rest h]
  rfl

theorem readLine_of_turn (l l' : WiredLine τ) (ho : l.isOpen = true)
    (h : firstLine? l.collect.received = none) (hturn : l.collect.boardTurn = (none, l')) :
    l.readLine = (.ok l'.collect.takeLine.1, l'.collect.takeLine.2) := by
  simp only [readLine, ho, h, hturn]
  rfl

theorem passRests_eq (l : WiredLine τ) :
    ∃ clock, l.passRests = { l with clock, board := { l.board with rests := [] } } := by
  have hfold (rests : List Nat) (l : WiredLine τ) : ∃ clock,
      rests.foldl (fun l millis => l.sleep (TimeScale.ofMillis millis)) l = { l with clock } := by
    induction rests generalizing l with
    | nil => exact ⟨l.clock, rfl⟩
    | cons millis rests ih => exact ih (l.sleep (TimeScale.ofMillis millis))
  rw [passRests]
  split
  · exact hfold l.board.rests { l with board := { l.board with rests := [] } }
  · exact ⟨l.clock, rfl⟩

end

/-- What has been printed and not been read yet are these lines. -/
def Holds (left : List Text) (l : WiredLine τ) : Prop :=
  l.received ++ l.board.output = Utf8.encodeLines left ∧ ∀ t ∈ left, '\n' ∉ t

theorem Holds.sent {l : WiredLine τ} {left : List Text} (h : l.Holds left) (bytes : Bytes) :
    (l.sent bytes).Holds left := by
  obtain ⟨clock, board, paced, openings, _ | ⟨p, ps⟩⟩ := l
  · exact h
  · exact h

theorem firstLine?_encodeLines (t : Text) (ts : List Text) (h : '\n' ∉ t) :
    firstLine? (Utf8.encodeLines (t :: ts)) = some (Utf8.encodeLine t, Utf8.encodeLines ts) := by
  rw [Utf8.encodeLines_cons, firstLine?_encodeLine t _ h]

theorem ready_and_holds_of_eq {l l' : WiredLine τ} {left : List Text}
    (hboard : l'.board = l.board) (hports : l'.ports = l.ports) (hready : l.Ready)
    (hholds : l.Holds left) : l'.Ready ∧ l'.Holds left := by
  obtain ⟨clock, board, paced, openings, ports⟩ := l
  cases hboard
  cases hports
  exact ⟨hready, hholds⟩

theorem Ready.modify {l : WiredLine τ} (h : l.Ready) (f : Bytes → Bytes) :
    (l.modify fun p => { p with received := f p.received }).Ready := by
  obtain ⟨clock, board, paced, openings, _ | ⟨p, ps⟩⟩ := l
  · exact h
  · exact h

theorem received_modify (l : WiredLine τ) (ho : l.isOpen = true) (received : Bytes) :
    (l.modify ({ · with received })).received = received := by
  obtain ⟨clock, board, paced, openings, _ | ⟨p, ps⟩⟩ := l
  · cases ho
  · rfl

theorem received_collect (l : WiredLine τ) (ho : l.isOpen = true) :
    l.collect.received = l.received ++ l.board.output := by
  obtain ⟨clock, board, paced, openings, _ | ⟨p, ps⟩⟩ := l
  · cases ho
  · rfl

/-- The same line with this clock and this board, and with these bytes received by the newest port. -/
def put (clock : Clock τ) (board : Board) (received : Bytes) (l : WiredLine τ) : WiredLine τ :=
  { l with clock, board }.modify ({ · with received })

section

variable (clock : Clock τ) (board : Board) (received : Bytes) (l : WiredLine τ)

@[simp]
theorem board_put : (l.put clock board received).board = board := rfl

@[simp]
theorem written_put : (l.put clock board received).written = l.written := by
  obtain ⟨_, _, _, _, _ | ⟨p, ps⟩⟩ := l
  · rfl
  · simp [put, modify, modifyNewest, written]

theorem received_put (ho : l.isOpen = true) : (l.put clock board received).received = received :=
  received_modify { l with clock, board } ho received

theorem Ready.put {l : WiredLine τ} (h : l.Ready) : (l.put clock board received).Ready :=
  Ready.modify (l := { l with clock, board }) h fun _ => received

theorem Holds.put {l : WiredLine τ} (ho : l.isOpen = true) (left : List Text) (hout : board.output = [])
    (hleft : ∀ t ∈ left, '\n' ∉ t) : (l.put clock board (Utf8.encodeLines left)).Holds left := by
  refine ⟨?_, hleft⟩
  rw [received_put clock board _ l ho, board_put, hout, List.append_nil]

end

/-- A read takes the first line at hand, and the board has no turn. -/
theorem readLine_at_hand [TimeScale τ] (l : WiredLine τ) (ho : l.isOpen = true) (t : Text)
    (left : List Text) (h : l.Holds (t :: left)) :
    l.readLine = (.ok (Utf8.encodeLine t),
      l.put l.clock { l.board with output := [] } (Utf8.encodeLines left)) := by
  have hfirst : firstLine? l.collect.received =
      some (Utf8.encodeLine t, Utf8.encodeLines left) := by
    rw [received_collect l ho, h.1, firstLine?_encodeLines t left (h.2 t List.mem_cons_self)]
  rw [readLine_of_first l ho _ _ hfirst]
  obtain ⟨_, _, _, _, _ | ⟨p, ps⟩⟩ := l
  · cases ho
  · rfl

theorem boardTurn_eq [TimeScale τ] (l : WiredLine τ) (board : Board) (crash : Option Board.Crash)
    (hturn : l.board.turn = (board, crash)) :
    ∃ clock, l.boardTurn = (crash, { l with clock, board := { board with rests := [] } }) := by
  obtain ⟨clock, hpass⟩ := passRests_eq { l with board }
  refine ⟨clock, ?_⟩
  simp only [boardTurn, hturn, hpass]

/-- Where nothing is at hand, collecting changes nothing. -/
theorem collect_of_drained (l : WiredLine τ) (ho : l.isOpen = true) (h : l.Holds []) :
    l.collect = l ∧ l.received = [] ∧ l.board.output = [] := by
  obtain ⟨hreceived, hout⟩ := List.append_eq_nil_iff.mp h.1
  refine ⟨?_, hreceived, hout⟩
  obtain ⟨clock, board, paced, openings, _ | ⟨p, ps⟩⟩ := l
  · cases ho
  · have hboard : { board with output := [] } = board := by rw [← hout]
    have hport : { p with received := p.received ++ board.output } = p := by
      rw [hout, List.append_nil]
    change WiredLine.mk clock { board with output := [] } paced openings
      ({ p with received := p.received ++ board.output } :: ps) = _
    rw [hboard, hport]

/-- Without a line at hand the board has its turn, and the read takes the first line printed in it. -/
theorem readLine_after_turn [TimeScale τ] (l : WiredLine τ) (ho : l.isOpen = true) (h : l.Holds [])
    (board : Board) (printed : List Text) (hturn : l.board.turn = (board, none))
    (houtput : board.output = Utf8.encodeLines printed) (hprinted : ∀ t ∈ printed, '\n' ∉ t) :
    ∃ clock, l.readLine = (.ok (Utf8.encodeLines (printed.take 1)),
      l.put clock { board with output := [], rests := [] } (Utf8.encodeLines printed.tail)) := by
  obtain ⟨hcollect, hreceived, _⟩ := l.collect_of_drained ho h
  obtain ⟨clock, hturned⟩ := l.boardTurn_eq board none hturn
  have hnone : firstLine? l.collect.received = none := by
    rw [hcollect, hreceived]
    rfl
  have hread := readLine_of_turn l { l with clock, board := { board with rests := [] } } ho hnone
    (hcollect.symm ▸ hturned)
  have hprints : ({ l with clock, board := { board with rests := [] } } : WiredLine τ).collect.received =
      Utf8.encodeLines printed := by
    refine (received_collect { l with clock, board := { board with rests := [] } } ho).trans ?_
    change l.received ++ board.output = _
    rw [hreceived, houtput, List.nil_append]
  cases printed with
  | nil =>
    have hfirst : firstLine? ({ l with clock, board := { board with rests := [] } } :
        WiredLine τ).collect.received = none := by
      rw [hprints]
      rfl
    refine ⟨clock.sleep l.timeout, ?_⟩
    rw [hread, takeLine_of_none _ hfirst, hprints]
    obtain ⟨_, _, _, _, _ | ⟨p, ps⟩⟩ := l
    · cases ho
    · rfl
  | cons t left =>
    have hfirst := firstLine?_encodeLines t left (hprinted t List.mem_cons_self)
    rw [← hprints] at hfirst
    refine ⟨clock, ?_⟩
    rw [hread, takeLine_of_first _ _ _ hfirst, List.take_one, List.head?_cons, Option.toList_some,
      Utf8.encodeLines_singleton]
    obtain ⟨_, _, _, _, _ | ⟨p, ps⟩⟩ := l
    · cases ho
    · rfl

/-- A crash of the board reaches the reader, and what was printed up to it stays on the board. -/
theorem readLine_at_crash [TimeScale τ] (l : WiredLine τ) (ho : l.isOpen = true) (h : l.Holds [])
    (board : Board) (crash : Board.Crash) (hturn : l.board.turn = (board, some crash)) :
    ∃ clock, l.readLine = (.error (.ofCrash crash), l.put clock { board with rests := [] } []) := by
  obtain ⟨hcollect, hreceived, _⟩ := l.collect_of_drained ho h
  obtain ⟨clock, hturned⟩ := l.boardTurn_eq board (some crash) hturn
  refine ⟨clock, ?_⟩
  simp only [readLine, ho, hcollect, hreceived, hturned]
  obtain ⟨_, _, _, _, _ | ⟨p, ps⟩⟩ := l
  · cases ho
  · change (_, _) = (_, WiredLine.mk _ _ _ _ ({ p with received := [] } :: ps))
    rw [← hreceived]
    rfl

/-- The ways a read of an open port goes, by the lines that are at hand. -/
inductive Reads (l : WiredLine τ) : List Text → Except Fault Bytes × WiredLine τ → Prop
  | atHand (t : Text) (left : List Text) :
      Reads l (t :: left)
        (.ok (Utf8.encodeLine t), l.put l.clock { l.board with output := [] } (Utf8.encodeLines left))
  | afterTurn (board : Board) (printed : List Text) (clock : Clock τ)
      (hturn : l.board.turn = (board, none)) (houtput : board.output = Utf8.encodeLines printed)
      (hprinted : ∀ t ∈ printed, '\n' ∉ t) :
      Reads l []
        (.ok (Utf8.encodeLines (printed.take 1)),
          l.put clock { board with output := [], rests := [] } (Utf8.encodeLines printed.tail))
  | atCrash (board : Board) (crash : Board.Crash) (printed : List Text) (clock : Clock τ)
      (hturn : l.board.turn = (board, some crash)) (houtput : board.output = Utf8.encodeLines printed)
      (hprinted : ∀ t ∈ printed, '\n' ∉ t) :
      Reads l [] (.error (.ofCrash crash), l.put clock { board with rests := [] } [])

theorem reads_readLine [TimeScale τ] (l : WiredLine τ) (ho : l.isOpen = true) (left : List Text)
    (h : l.Holds left) : l.Reads left l.readLine := by
  cases left with
  | cons t left =>
    rw [l.readLine_at_hand ho t left h]
    exact .atHand t left
  | nil =>
    obtain ⟨printed, houtput, hprinted⟩ := (Board.adds_turn l.board).lines
    rw [(l.collect_of_drained ho h).2.2, List.nil_append] at houtput
    rcases hturn : l.board.turn with ⟨board, _ | crash⟩
    · rw [hturn] at houtput
      obtain ⟨clock, hread⟩ := l.readLine_after_turn ho h board printed hturn houtput hprinted
      rw [hread]
      exact .afterTurn board printed clock hturn houtput hprinted
    · rw [hturn] at houtput
      obtain ⟨clock, hread⟩ := l.readLine_at_crash ho h board crash hturn
      rw [hread]
      exact .atCrash board crash printed clock hturn houtput hprinted

/-! ## Reading, as the host has it -/

theorem readLine_of_held [TimeScale τ] (l : WiredLine τ) (hready : l.Ready) (t : Text)
    (left : List Text) (h : l.Holds (t :: left)) :
    ∃ l', l.readLine = (.ok (Utf8.encodeLine t), l') ∧ l'.Ready ∧ l'.Holds left ∧
      l'.board = { l.board with output := [] } :=
  ⟨_, l.readLine_at_hand hready.1 t left h, hready.put _ _ _,
    .put _ _ hready.1 left rfl fun u hu => h.2 u (List.mem_cons_of_mem t hu), rfl⟩

/-- From the lines printed in a turn at most one is taken, and none only if there is none. -/
theorem readLine_of_drained [TimeScale τ] (l : WiredLine τ) (hready : l.Ready) (h : l.Holds [])
    (board : Board) (printed : List Text) (hturn : l.board.turn = (board, none))
    (houtput : board.output = Utf8.encodeLines printed) (hprinted : ∀ t ∈ printed, '\n' ∉ t) :
    ∃ heard left l', l.readLine = (.ok (Utf8.encodeLines heard), l') ∧ printed = heard ++ left ∧
      heard.length ≤ 1 ∧ (heard = [] → left = []) ∧ l'.Ready ∧ l'.Holds left ∧
      l'.board = { board with output := [], rests := [] } := by
  obtain ⟨clock, hread⟩ := l.readLine_after_turn hready.1 h board printed hturn houtput hprinted
  refine ⟨printed.take 1, printed.tail, _, hread, ?_, List.length_take_le 1 _, ?_, hready.put _ _ _,
    .put _ _ hready.1 _ rfl fun t ht => hprinted t (List.mem_of_mem_tail ht), rfl⟩
  · cases printed <;> rfl
  · cases printed <;> simp

end WiredLine

end StationLink.Serial
