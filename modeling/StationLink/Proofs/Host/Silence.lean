import Mathlib.Data.Prod.Lex
import StationLink.Proofs.Board.Conserving
import StationLink.Proofs.Host.Ending
import StationLink.Proofs.Serial.Wired

/-!
# Windows on wired ports

A wired port never dies by itself. What its board can still print without being asked is bounded by the
input that waits and the data that has come in; once both are used up, every read sleeps for its timeout.
-/

namespace StationLink.Board

open Text

def unforwarded (b : Board) : Nat :=
  (b.session.map fun s => (b.waiting s.socket).length).getD 0

theorem forward_prints (b : Board) :
    b.forward.output = b.output ∨ b.forward.unforwarded < b.unforwarded := by
  cases hs : b.session with
  | none =>
    left
    simp only [forward, hs]
  | some s =>
    have houtput := output_forward_eq hs
    rw [drain_eq] at houtput
    by_cases hdata : leadingData (b.inbox s) = []
    · left
      simp [houtput, hdata, dataLine, Utf8.encodeLines]
    · right
      have hplaced : s.socket < b.dialer.sockets.length := by
        by_contra hfar
        have hnone : b.dialer.sockets[s.socket]? = none := List.getElem?_eq_none (Nat.le_of_not_lt hfar)
        exact hdata (by simp [inbox, hnone, leadingData, inboxBytes])
      have hwaiting := congrArg List.length (waiting_forward hs hplaced)
      have hpositive := List.length_pos_iff.mpr hdata
      rw [List.length_append] at hwaiting
      rw [unforwarded, unforwarded, hs, session_forward_eq hs]
      split
      · change 0 < (b.waiting s.socket).length
        omega
      · change (b.forward.waiting s.socket).length < (b.waiting s.socket).length
        omega

theorem turn_prints (b : Board) :
    b.turn.1.output = b.output ∨ b.turn.1.input.length < b.input.length ∨
      b.turn.1.input.length = b.input.length ∧ b.turn.1.unforwarded < b.unforwarded := by
  obtain ⟨runs, tail, hparted⟩ := exists_parted isLineEnd b.input
  have hframe := frame_of_parted hparted
  rw [input_turn, hframe]
  rcases hparted.eq_or_lt with ⟨rfl, rfl⟩ | hlt
  · have hturn : b.turn = (b.forward.rest idleRest, none) := by
      simp only [turn, hframe]
      rfl
    rw [hturn]
    exact (forward_prints b).imp id fun hless => .inr ⟨rfl, hless⟩
  · exact .inr (.inl hlt)

end StationLink.Board

namespace StationLink.Serial.WiredLine

open Text Board

variable {τ : Type} [TimeScale τ]

/-- The newest port is open and has this positive timeout, and the clock is moved by nothing but sleeping. -/
structure Restful (μ : τ → ℚ) (rest : ℚ) (l : WiredLine τ) : Prop where
  positive : 0 < rest
  isOpen : l.isOpen = true
  timeout : μ l.timeout = rest
  still : μ l.clock.tick = 0

/-- What the line can still bring: by the input that waits, the data to forward, and the lines at hand. -/
def store (l : WiredLine τ) : ℕ ×ₗ ℕ ×ₗ ℕ :=
  toLex (l.board.input.length, toLex (l.board.unforwarded, (l.received ++ l.board.output).count 0x0A))

theorem count_of_firstLine? {bs line rest : Bytes} (h : firstLine? bs = some (line, rest)) :
    rest.count 0x0A < bs.count 0x0A := by
  induction bs generalizing line with
  | nil => cases h
  | cons b bs ih =>
    simp only [firstLine?] at h
    split at h
    · rename_i hb
      obtain ⟨_, rfl⟩ := Prod.mk.inj (Option.some.inj h)
      simp [hb]
    · rename_i hb
      obtain ⟨⟨line', rest'⟩, hfirst, heq⟩ := Option.map_eq_some_iff.mp h
      obtain ⟨_, rfl⟩ := Prod.mk.inj heq
      rw [List.count_cons_of_ne hb]
      exact ih hfirst

theorem Restful.of_eq {μ : τ → ℚ} {rest : ℚ} {l l' : WiredLine τ} (h : l.Restful μ rest)
    (hopen : l'.isOpen = l.isOpen) (htimeout : l'.timeout = l.timeout)
    (htick : l'.clock.tick = l.clock.tick) : l'.Restful μ rest :=
  ⟨h.positive, hopen.trans h.isOpen, htimeout ▸ h.timeout, htick ▸ h.still⟩

theorem boardTurn_onward {μ : τ → ℚ} (hμ : TimeScale.Exact μ) (l : WiredLine τ) :
    ∃ clock, l.boardTurn = (l.board.turn.2, { l with clock, board := { l.board.turn.1 with rests := [] } }) ∧
      clock.tick = l.clock.tick ∧ μ l.clock.now ≤ μ clock.now := by
  have hfold (rests : List Nat) (l : WiredLine τ) : ∃ clock : Clock τ,
      rests.foldl (fun l millis => l.sleep (TimeScale.ofMillis millis)) l = { l with clock } ∧
        clock.tick = l.clock.tick ∧ μ l.clock.now ≤ μ clock.now := by
    induction rests generalizing l with
    | nil => exact ⟨l.clock, rfl, rfl, le_rfl⟩
    | cons millis rests ih =>
      obtain ⟨clock, hrest, htick, hclock⟩ := ih (l.sleep (TimeScale.ofMillis millis))
      refine ⟨clock, hrest, htick, le_trans ?_ hclock⟩
      change _ ≤ μ (TimeScale.add _ _)
      rw [hμ.add, hμ.ofMillis]
      exact le_add_of_nonneg_right (Nat.cast_nonneg millis)
  simp only [boardTurn, passRests]
  split
  · obtain ⟨clock, hrests, htick, hclock⟩ :=
      hfold l.board.turn.1.rests { l with board := { l.board.turn.1 with rests := [] } }
    exact ⟨clock, by rw [hrests], htick, hclock⟩
  · exact ⟨l.clock, rfl, rfl, le_rfl⟩

theorem Restful.takeLine {μ : τ → ℚ} (hμ : TimeScale.Exact μ) {rest : ℚ} {l : WiredLine τ}
    (h : l.Restful μ rest) :
    l.takeLine.2.Restful μ rest ∧ l.takeLine.2.board = l.board ∧
      ((firstLine? l.received).isSome = true ∧ l.takeLine.2.clock = l.clock ∧
          l.takeLine.2.received.count 0x0A < l.received.count 0x0A ∨
        firstLine? l.received = none ∧ μ l.takeLine.2.clock.now = μ l.clock.now + rest) := by
  obtain ⟨clock, board, paced, openings, _ | ⟨p, ps⟩⟩ := l
  · cases h.isOpen
  · cases hfirst : firstLine? (⟨clock, board, paced, openings, p :: ps⟩ : WiredLine τ).received with
    | some parts =>
      rw [takeLine_of_first _ _ _ hfirst]
      exact ⟨h.of_eq rfl rfl rfl, rfl, .inl ⟨rfl, rfl, count_of_firstLine? hfirst⟩⟩
    | none =>
      rw [takeLine_of_none _ hfirst]
      refine ⟨h.of_eq rfl rfl rfl, rfl, .inr ⟨rfl, ?_⟩⟩
      change μ (TimeScale.add _ _) = _
      rw [hμ.add, h.timeout]

theorem Restful.collect {μ : τ → ℚ} {rest : ℚ} {l : WiredLine τ} (h : l.Restful μ rest) :
    l.collect.Restful μ rest := by
  obtain ⟨clock, board, paced, openings, _ | ⟨p, ps⟩⟩ := l
  · cases h.isOpen
  · exact h.of_eq rfl rfl rfl

theorem Restful.readLine {μ : τ → ℚ} (hμ : TimeScale.Exact μ) {rest : ℚ} {l : WiredLine τ}
    (h : l.Restful μ rest) :
    l.readLine.2.Restful μ rest ∧ μ l.clock.now ≤ μ l.readLine.2.clock.now ∧
      ∀ bytes, l.readLine.1 = .ok bytes →
        l.readLine.2.store < l.store ∨ μ l.clock.now + rest ≤ μ l.readLine.2.clock.now := by
  have hcollect := h.collect
  have hreceived := l.received_collect h.isOpen
  cases hfirst : firstLine? l.collect.received with
  | some parts =>
    have hread : l.readLine = (.ok l.collect.takeLine.1, l.collect.takeLine.2) := by
      simp only [WiredLine.readLine, h.isOpen, hfirst, Option.isSome_some]
      rfl
    obtain ⟨htaken, hboard, hlines⟩ := hcollect.takeLine hμ
    rcases hlines with ⟨_, hclock, hcount⟩ | ⟨hnone, _⟩
    · rw [hread, hclock]
      refine ⟨htaken, le_rfl, fun _ _ => .inl ?_⟩
      rw [store, hboard]
      refine Prod.Lex.toLex_lt_toLex.mpr (.inr ⟨rfl, Prod.Lex.toLex_lt_toLex.mpr (.inr ⟨rfl, ?_⟩)⟩)
      rw [hreceived] at hcount
      change List.count _ (_ ++ []) < _
      rwa [List.append_nil]
    · cases hfirst.symm.trans hnone
  | none =>
    obtain ⟨clock, hturn, htick, honward⟩ := l.collect.boardTurn_onward hμ
    generalize hturned : ({ l.collect with
      clock, board := { l.collect.board.turn.1 with rests := [] } } : WiredLine τ) = l₁ at hturn
    have hl₁ : l₁.Restful μ rest := by
      rw [← hturned]
      exact hcollect.of_eq rfl rfl htick
    cases hcrash : l.collect.board.turn.2 with
    | some crash =>
      have hread : l.readLine = (.error (.ofCrash crash), l₁) := by
        simp only [WiredLine.readLine, h.isOpen, hfirst, hturn, hcrash]
        rfl
      rw [hread]
      refine ⟨hl₁, ?_, ?_⟩
      · rw [← hturned]
        exact honward
      · rintro _ ⟨⟩
    | none =>
      have hread : l.readLine = (.ok l₁.collect.takeLine.1, l₁.collect.takeLine.2) := by
        simp only [WiredLine.readLine, h.isOpen, hfirst, hturn, hcrash]
        rfl
      obtain ⟨htaken, hboard, hlines⟩ := hl₁.collect.takeLine hμ
      have hclock₁ : μ l.clock.now ≤ μ l₁.collect.clock.now := by
        rw [← hturned]
        exact honward
      rw [hread]
      rcases hlines with ⟨hsome, hclock, hcount⟩ | ⟨_, hclock⟩
      · rw [hclock]
        refine ⟨htaken, hclock₁, fun _ _ => .inl ?_⟩
        rw [store, hboard, ← hturned]
        rcases turn_prints l.collect.board with hsilent | hinput | ⟨hinput, hdata⟩
        · -- Without output of the turn there is no line at hand after it either.
          have hsame : l₁.collect.received = l.collect.received := by
            rw [l₁.received_collect hl₁.isOpen, ← hturned]
            change l.collect.received ++ l.collect.board.turn.1.output = _
            rw [hsilent]
            exact List.append_nil _
          rw [hsame, hfirst] at hsome
          cases hsome
        · exact Prod.Lex.toLex_lt_toLex.mpr (.inl hinput)
        · exact Prod.Lex.toLex_lt_toLex.mpr (.inr ⟨hinput, Prod.Lex.toLex_lt_toLex.mpr (.inl hdata)⟩)
      · rw [hclock]
        exact ⟨htaken, hclock₁.trans (le_add_of_nonneg_right h.positive.le),
          fun _ _ => .inr (by linarith)⟩

end StationLink.Serial.WiredLine

namespace StationLink.Host

open Serial Text Channel

variable {τ : Type} [TimeScale τ]

theorem supplied_wired {μ : τ → ℚ} (hμ : TimeScale.Exact μ) (rest : ℚ) :
    Supplied μ rest WiredLine.store (WiredLine.Restful μ rest) where
  clock_setClock _ _ := rfl
  isOpen_setClock _ _ := rfl
  supply_setClock _ _ := rfl
  setClock h _ htick := h.of_eq rfl rfl htick
  still h := h.still
  readLine h _ := (h.readLine hμ).1
  onward h _ := (h.readLine hμ).2.1
  slept h _ hread := (h.readLine hμ).2.2 _ hread

/-- On a port that is wired to the board, with a positive timeout and a clock that is moved by nothing but
sleeping, every window ends, if only by a crash of the board. -/
theorem wired_window_ends {μ : τ → ℚ} (hμ : TimeScale.Exact μ) {rest : ℚ} (s : Settings τ) (duration : τ)
    (h : Host (WiredLine τ)) (hheld : h.held = true) (hline : h.line.Restful μ rest) :
    ∃ patience, (Channel.readLines ⟨s, patience⟩ duration).outcome h ≠ .error .outOfPatience := by
  have hs := supplied_wired hμ rest
  have hline' := (hs.afterNow hμ hline).1
  rcases hs.ends_or_sticks hμ hline.positive (TimeScale.add h.line.clock.now duration) _ hline' with
    ⟨patience, hends⟩ | ⟨h', hturns, hstuck⟩
  · refine ⟨patience, ?_⟩
    rw [Call.outcome, readLines_of_open _ duration h (isOpen_of_held hheld hline.isOpen)]
    exact hends []
  · exact absurd hstuck (hturns.not_stuck (fun _ hl htick => hs.setClock hl _ htick)
      (fun hl => (hl.readLine hμ).1) (fun hl => hl.isOpen) hheld hline')

end StationLink.Host
