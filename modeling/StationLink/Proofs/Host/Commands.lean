import StationLink.Proofs.Board.Pieces
import StationLink.Proofs.Host.Truth

/-!
# A call writes one line

A call writes the line of its request and nothing else, whatever its window brings. The board makes of
this line as many orders as it has pieces: one if no argument has a line end, and else one for each piece
that an argument adds.
-/

namespace StationLink.Serial.WiredLine

variable {τ : Type}

theorem written_modify (l : WiredLine τ) (f : WiredPort τ → WiredPort τ)
    (h : ∀ p, (f p).written = p.written) : (l.modify f).written = l.written := by
  obtain ⟨_, _, _, _, _ | ⟨p, ps⟩⟩ := l
  · rfl
  · simp [modify, modifyNewest, written, h]

theorem written_collect (l : WiredLine τ) : l.collect.written = l.written :=
  written_modify { l with board := { l.board with output := [] } } _ fun _ => rfl

variable [TimeScale τ]

theorem written_takeLine (l : WiredLine τ) : l.takeLine.2.written = l.written := by
  rw [takeLine]
  split
  · exact written_modify l _ fun _ => rfl
  · exact written_modify (l.sleep l.timeout) _ fun _ => rfl

theorem written_boardTurn (l : WiredLine τ) : l.boardTurn.2.written = l.written := by
  obtain ⟨clock, hturn⟩ := l.boardTurn_eq l.board.turn.1 l.board.turn.2 rfl
  rw [hturn]
  rfl

theorem written_readLine (l : WiredLine τ) : l.readLine.2.written = l.written := by
  rw [readLine]
  split
  · rfl
  · dsimp only
    split
    · exact (written_takeLine _).trans (written_collect l)
    · have hturn := (written_boardTurn l.collect).trans (written_collect l)
      generalize l.collect.boardTurn = turned at hturn
      rcases turned with ⟨_ | crash, l'⟩
      · exact (written_takeLine _).trans ((written_collect l').trans hturn)
      · exact hturn

end StationLink.Serial.WiredLine

namespace StationLink.Host

open Serial Text Protocol Board

variable {τ : Type} [TimeScale τ]

/-! ## What is written -/

theorem written_after_readLine (h : Host (WiredLine τ)) (w : Bytes) (hw : h.line.written = w) :
    Call.Ends (fun _ h' => h'.line.written = w) (fun _ h' => h'.line.written = w)
      (Channel.readLine h) := by
  cases ho : h.isOpen with
  | false =>
    rw [Channel.readLine_of_closed h ho]
    exact hw
  | true =>
    have hread := (h.line.written_readLine).trans hw
    rcases hrun : h.line.readLine with ⟨f | bytes, line⟩
    · rw [hrun] at hread
      rw [Channel.readLine_of_fault h ho f line hrun]
      split
      · exact hread
      · exact hread
    · rw [hrun] at hread
      rw [Channel.readLine_of_bytes h ho bytes line hrun, Channel.takeLine_apply]
      split
      · exact hread
      · exact hread

theorem written_after_readLines (k : Link τ) (duration : τ) (h : Host (WiredLine τ)) :
    ((Client.readLines (σ := WiredLine τ) k duration).after h).line.written = h.line.written := by
  have hwindow : Call.Ends (fun _ h' => h'.line.written = h.line.written)
      (fun _ h' => h'.line.written = h.line.written) (Channel.readLines k duration h) := by
    cases ho : h.isOpen with
    | false =>
      rw [Channel.readLines_of_closed k duration h ho]
      exact rfl
    | true =>
      rw [Channel.readLines_of_open k duration h ho]
      apply Channel.collect_ends (I := fun _ (h' : Host (WiredLine τ)) => h'.line.written = h.line.written)
      · exact fun _ _ hI => hI
      · exact fun _ _ _ hI => hI
      · exact fun _ h' hI => written_after_readLine h' _ hI
      · exact fun _ _ hI => hI
      · exact rfl
  rw [Client.readLines, Call.after_bind]
  rcases hrun : Channel.readLines k duration h with ⟨lines, h'⟩ | ⟨f, h'⟩
  · rw [hrun] at hwindow
    exact hwindow
  · rw [hrun] at hwindow
    exact hwindow

theorem written_after_writeLine (k : Link τ) (text : Text) (h : Host (WiredLine τ))
    (ho : h.isOpen = true) (hready : h.line.Ready) :
    ∃ h', Channel.writeLine k text h = .ok () h' ∧
      h'.line.written = h.line.written ++ Utf8.encodeLine text := by
  have hw : SerialLine.write (Utf8.encode text ++ [Channel.lineFeed]) h.line =
      (.ok (), h.line.sent (Utf8.encodeLine text)) :=
    h.line.write_of_ready _ hready
  exact ⟨_, Channel.writeLine_of_ok k text h ho _ _ hw rfl, h.line.written_sent hready.1 _⟩

theorem written_after_call (k : Link τ) (r : Request) (line : Text) (hline : r.line? = some line)
    (h : Host (WiredLine τ)) (ho : h.isOpen = true) (hready : h.line.Ready) :
    ((Client.call (σ := WiredLine τ) k r).after h).line.written =
      h.line.written ++ Utf8.encodeLine line := by
  obtain ⟨h', hwrite, hwritten⟩ := written_after_writeLine k line h ho hready
  rw [(Client.alike_call k r h).line, ← hwritten, Client.query, hline]
  dsimp only
  rw [Call.after_bind, Client.sendLine, hwrite]
  cases r.verb.window? with
  | none => rfl
  | some millis => exact written_after_readLines k _ h'

/-! ## What is carried out -/

/-- A request without a line is not sent. Otherwise its call writes its line, and fed with this line the
board carries out the pieces of it, of which the first has the verb of the call, by the account of its
turns. If no argument has a line end, then the line is its own only piece, and is carried out also where
the board crashes on it. -/
theorem call_is_carried_out_in_pieces (r : Request) :
    (r.line? = none → ∀ (k : Link τ) (h : Host (WiredLine τ)),
      Client.call k r h = .error .invalidNumber h) ∧
    ∀ line, r.line? = some line →
      (∀ (k : Link τ) (h : Host (WiredLine τ)), h.isOpen = true → h.line.Ready →
        ((Client.call (σ := WiredLine τ) k r).after h).line.written =
          h.line.written ++ Utf8.encodeLine line) ∧
      ∃ first more, pieces line = first :: more ∧ (Order.ofText first).verb? = some r.verb ∧
        (r.FreeOfLineEnds → first = line ∧ more = []) ∧
        ∀ (b : Board) (stimuli : List Stimulus), b.input = [] → fed stimuli = Utf8.encodeLine line →
          Accounts (stimuli ++ [.poll]) b (play (stimuli ++ [.poll]) b) ∧
          ((play (stimuli ++ [.poll]) b).crashes = [] →
            (play (stimuli ++ [.poll]) b).texts = first :: more) ∧
          (r.FreeOfLineEnds → (play (stimuli ++ [.poll]) b).texts = [line]) := by
  constructor
  · intro hnone k h
    exact Client.call_of_no_line k r h hnone
  · intro line hline
    obtain ⟨first, more, hpieces, hverb⟩ := pieces_line r line hline
    refine ⟨fun k h ho hready => written_after_call k r line hline h ho hready,
      first, more, hpieces, hverb, ?_, ?_⟩
    · intro hends
      have hwhole := pieces_of_sendable line (r.sendable_line line hline hends)
      obtain ⟨hfirst, hmore⟩ := List.cons.inj (hpieces.symm.trans hwhole)
      exact ⟨hfirst, hmore⟩
    · intro b stimuli hinput hfed
      have hbytes : b.input ++ fed stimuli = Utf8.encodeLine line := by
        rw [hinput, hfed, List.nil_append]
      refine ⟨accounts_play _ b, ?_, ?_⟩
      · intro hcrash
        rw [← hpieces]
        exact play_encodeLine line b stimuli hbytes hcrash
      · intro hends
        have hsendable := r.sendable_line line hline hends
        rw [play_line stimuli b _ 0x0A hsendable.isLineEnd_of_mem_encode hsendable.encode_ne_nil
          (by decide) hbytes, Utf8.decode_encode]

/-- Data with a line feed, behind which an order stands. -/
def smuggled : Text :=
  "TCPSEND:x\nDISCONNECT".toList

theorem call_is_carried_out_in_pieces_of_smuggled :
    ((Client.call steadyLink (.tcpSend "x\nDISCONNECT".toList)).after started).line.written =
        started.line.written ++ Utf8.encodeLine smuggled ∧
      (play ([.feed (Utf8.encodeLine smuggled)] ++ [.poll]) (boot [] [])).texts =
        ["TCPSEND:x".toList, "DISCONNECT".toList] ∧
      (play ([.feed (Utf8.encodeLine "CONNECT:a:b".toList)] ++ [.poll]) (boot [cafe] [])).texts =
        ["CONNECT:a:b".toList] := by
  obtain ⟨hwritten, first, more, hpieces, _, _, hplay⟩ :=
    (call_is_carried_out_in_pieces (τ := Millis) (.tcpSend "x\nDISCONNECT".toList)).2 smuggled rfl
  obtain ⟨_, _, _, _, _, _, hclean⟩ :=
    (call_is_carried_out_in_pieces (τ := Millis) (.connect "a".toList "b".toList)).2
      "CONNECT:a:b".toList rfl
  refine ⟨hwritten steadyLink started rfl ⟨rfl, rfl⟩, ?_, ?_⟩
  · have hpair : pieces smuggled = ["TCPSEND:x".toList, "DISCONNECT".toList] := by decide
    rw [← hpair, hpieces]
    exact (hplay _ _ rfl rfl).2.1 (by decide +kernel)
  · exact (hclean _ _ rfl rfl).2.2 (by unfold Request.FreeOfLineEnds; decide)

end StationLink.Host
