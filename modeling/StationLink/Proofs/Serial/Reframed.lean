import StationLink.Proofs.Board.Answers
import StationLink.Proofs.Board.Pieces
import StationLink.Proofs.Serial.Paired
import StationLink.Proofs.Serial.Wired

/-!
# What waits at the board, cut into pieces

The board frames its input in its turns and never looks at it otherwise. Input that is framed alike, also
with more behind it, is the same to all who use the line. So requests that wait with line ends in their
fields may be replaced by their pieces, each as a request of its own.
-/

namespace StationLink.Board

open Text

/-- Whatever comes behind them, the bytes are framed alike. -/
def SameFrames (input input' : Bytes) : Prop :=
  ∀ more, frame (input ++ more) = frame (input' ++ more)

theorem SameFrames.refl (input : Bytes) : SameFrames input input :=
  fun _ => rfl

theorem SameFrames.append {input input' : Bytes} (h : SameFrames input input') (bytes : Bytes) :
    SameFrames (input ++ bytes) (input' ++ bytes) := by
  intro more
  rw [List.append_assoc, List.append_assoc]
  exact h (bytes ++ more)

theorem sameFrames_of_parted {input input' : Bytes} {runs runs' : List Bytes}
    (h : Parted isLineEnd input runs []) (h' : Parted isLineEnd input' runs' [])
    (hruns : runs.filter (· ≠ []) = runs'.filter (· ≠ [])) : SameFrames input input' := by
  intro more
  obtain ⟨after, tail, hmore⟩ := exists_parted isLineEnd more
  have hparted : Parted isLineEnd (input ++ more) (runs ++ after) tail := h.append hmore
  have hparted' : Parted isLineEnd (input' ++ more) (runs' ++ after) tail := h'.append hmore
  rw [frame_of_parted hparted, frame_of_parted hparted', List.filter_append, List.filter_append, hruns]

theorem sendable_of_mem_flatMap (requests : List Text) : ∀ t ∈ requests.flatMap pieces, Sendable t := by
  intro t ht
  obtain ⟨line, _, hpiece⟩ := List.mem_flatMap.mp ht
  exact sendable_of_mem_pieces hpiece

/-- Requests are framed as their pieces are. -/
theorem sameFrames_pieces (requests : List Text) :
    SameFrames (Utf8.encodeLines requests) (Utf8.encodeLines (requests.flatMap pieces)) := by
  obtain ⟨runs, hruns, htexts⟩ := exists_runs_encodeLines requests
  have hsendable := sendable_of_mem_flatMap requests
  have hframe := frame_encodeLines _ hsendable
  have hpieces := parted_encodeLines _ hsendable
  rw [frame_of_parted hpieces] at hframe
  exact sameFrames_of_parted hruns hpieces (htexts.trans (congrArg Prod.fst hframe).symm)

/-- The turn of a board leaves no trace of how its input was written. -/
theorem turn_of_sameFrames {b : Board} {input : Bytes} (h : SameFrames b.input input) :
    ({ b with input } : Board).turn = b.turn := by
  have hframe : frame b.input = frame input := by simpa using h []
  simp only [turn, hframe]

theorem reset_of_input (b : Board) (input : Bytes) : ({ b with input } : Board).reset = b.reset := by
  obtain ⟨_, _, _, _, _, session, _⟩ := b
  cases session <;> rfl

end StationLink.Board

namespace StationLink.Serial

open Board

variable {τ : Type}

/-- The same line, with input at the board that is framed alike. -/
def Reframed (l m : WiredLine τ) : Prop :=
  ∃ input, m = { l with board := { l.board with input } } ∧ SameFrames l.board.input input

namespace Reframed

theorem refl (l : WiredLine τ) : Reframed l l :=
  ⟨l.board.input, rfl, .refl _⟩

theorem openPort {l m : WiredLine τ} (h : Reframed l m) (settings : PortSettings τ) :
    (l.openPort settings).1 = (m.openPort settings).1 ∧
      Reframed (l.openPort settings).2 (m.openPort settings).2 := by
  obtain ⟨input, rfl, hsame⟩ := h
  simp only [WiredLine.openPort, reset_of_input]
  cases l.openings.fault? with
  | some f => exact ⟨rfl, input, rfl, hsame⟩
  | none => exact ⟨rfl, .refl _⟩

theorem write {l m : WiredLine τ} (h : Reframed l m) (bytes : Bytes) :
    (l.write bytes).1 = (m.write bytes).1 ∧ Reframed (l.write bytes).2 (m.write bytes).2 := by
  obtain ⟨input, rfl, hsame⟩ := h
  have hopen : ({ l with board := { l.board with input } } : WiredLine τ).isOpen = l.isOpen := rfl
  have hfails : ({ l with board := { l.board with input } } : WiredLine τ).failsWrite = l.failsWrite := rfl
  simp only [WiredLine.write, hopen, hfails]
  split
  · exact ⟨rfl, input, rfl, hsame⟩
  · split
    · exact ⟨rfl, input, rfl, hsame⟩
    · exact ⟨rfl, input ++ bytes, rfl, hsame.append bytes⟩

section

variable [TimeScale τ]

theorem takeLine {l m : WiredLine τ} (h : Reframed l m) :
    l.takeLine.1 = m.takeLine.1 ∧ Reframed l.takeLine.2 m.takeLine.2 := by
  obtain ⟨input, rfl, hsame⟩ := h
  have hreceived : ({ l with board := { l.board with input } } : WiredLine τ).received = l.received := rfl
  simp only [WiredLine.takeLine, hreceived]
  cases firstLine? l.received with
  | some parts => exact ⟨rfl, input, rfl, hsame⟩
  | none => exact ⟨rfl, input, rfl, hsame⟩

/-- A read that finds no line at hand gives the board its turn; any other leaves the input alone. -/
theorem readLine {l m : WiredLine τ} (h : Reframed l m) :
    l.readLine.1 = m.readLine.1 ∧ Reframed l.readLine.2 m.readLine.2 := by
  have hcollect : Reframed l.collect m.collect := by
    obtain ⟨input, rfl, hsame⟩ := h
    exact ⟨input, rfl, hsame⟩
  have htaken := hcollect.takeLine
  have hturn : l.collect.boardTurn = m.collect.boardTurn := by
    obtain ⟨input, hm, hsame⟩ := hcollect
    simp only [hm, WiredLine.boardTurn, turn_of_sameFrames hsame]
  have hopen : l.isOpen = m.isOpen ∧ l.collect.received = m.collect.received := by
    obtain ⟨input, rfl, _⟩ := h
    exact ⟨rfl, rfl⟩
  simp only [WiredLine.readLine, hopen.1, hopen.2, hturn]
  split
  · exact ⟨rfl, h⟩
  · split
    · exact ⟨congrArg Except.ok htaken.1, htaken.2⟩
    · exact ⟨rfl, .refl _⟩

end

end Reframed

theorem indistinct_reframed [TimeScale τ] : Indistinct (Reframed (τ := τ)) where
  clock := by
    rintro l _ ⟨input, rfl, _⟩
    rfl
  setClock := by
    rintro l _ clock ⟨input, rfl, h⟩
    exact ⟨input, rfl, h⟩
  openPort settings h := h.openPort settings
  isOpen := by
    rintro l _ ⟨input, rfl, _⟩
    rfl
  write bytes h := h.write bytes
  flush h := ⟨rfl, h⟩
  readLine h := h.readLine
  close := by
    rintro l _ ⟨input, rfl, h⟩
    exact ⟨rfl, input, rfl, h⟩

end StationLink.Serial
