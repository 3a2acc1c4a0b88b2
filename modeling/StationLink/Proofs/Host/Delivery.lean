import StationLink.Proofs.Board.Codec
import StationLink.Proofs.Host.Channel
import StationLink.Proofs.Serial.Wired
import StationLink.Proofs.Time.Millis

/-!
# A request reaches the board as its order

From the fields of a request to the order that the board carries out: the line that is written, the
bytes that arrive, and the one order that they become, however they are cut on their way.
-/

namespace StationLink.Host

open Serial Protocol Text Board

variable {τ : Type} [TimeScale τ]

theorem Channel.writeLine_wired (k : Link τ) (text : Text) (h : Host (WiredLine τ))
    (ho : h.isOpen = true) (hline : h.line.Ready) :
    ∃ h', Channel.writeLine k text h = .ok () h' ∧
      h'.line.board = h.line.board.feed (Utf8.encodeLine text) := by
  have hw : SerialLine.write (Utf8.encode text ++ [lineFeed]) h.line =
      (.ok (), h.line.sent (Utf8.encodeLine text)) :=
    h.line.write_of_ready _ hline
  exact ⟨_, writeLine_of_ok k text h ho _ _ hw rfl, rfl⟩

/-- A request without line ends in its fields, and without overlong numbers, has a line. The board is
fed this line and a line feed, and carries it out as one order, wherever it is cut and polled, by the
account of its turns. If the fields can be told apart, this order has them, the last text without the
blanks at its end. -/
theorem request_carried_out_once (r : Request) (hends : r.FreeOfLineEnds)
    (hshort : r.ShortNumbers) :
    ∃ line, r.line? = some line ∧
      (∀ (k : Link τ) (h : Host (WiredLine τ)), h.isOpen = true → h.line.Ready →
        ∃ h', Channel.writeLine k line h = .ok () h' ∧
          h'.line.board = h.line.board.feed (Utf8.encodeLine line)) ∧
      ∀ (b : Board) (stimuli : List Stimulus), b.input = [] →
        fed stimuli = Utf8.encodeLine line →
        Accounts (stimuli ++ [.poll]) b (play (stimuli ++ [.poll]) b) ∧
        (play (stimuli ++ [.poll]) b).texts = [line] ∧
        (r.Separable →
          (play (stimuli ++ [.poll]) b).texts.map Order.ofText = [r.order]) := by
  obtain ⟨line, hline⟩ := r.exists_line hshort
  have hsendable := r.sendable_line line hline hends
  refine ⟨line, hline, fun k h ho hready => Channel.writeLine_wired k line h ho hready, ?_⟩
  intro b stimuli hinput hfed
  have hbytes : b.input ++ fed stimuli = Utf8.encode line ++ [0x0A] := by
    rw [hinput, hfed, List.nil_append]
    rfl
  have htexts : (play (stimuli ++ [.poll]) b).texts = [line] := by
    rw [play_line stimuli b _ 0x0A hsendable.isLineEnd_of_mem_encode hsendable.encode_ne_nil (by decide)
      hbytes, Utf8.decode_encode]
  refine ⟨accounts_play _ b, htexts, ?_⟩
  intro hsep
  rw [htexts]
  exact congrArg ([·]) (r.ofText_line line hline hsep)

/-- A join whose name is cut inside a character, with a poll between the two parts. -/
def cutJoin : List Stimulus :=
  [.feed [0x43, 0x4F, 0x4E, 0x4E, 0x45, 0x43, 0x54, 0x3A, 0xC3], .poll,
    .feed [0xA9, 0x3A, 0x61, 0x3A, 0x62, 0x20, 0x0A]]

theorem request_carried_out_once_as_cutJoin :
    (play (cutJoin ++ [.poll]) (boot [] [])).texts.map Order.ofText =
      [.connect "é".toList "a:b".toList] := by
  obtain ⟨line, hline, _, hplay⟩ := request_carried_out_once (τ := Millis)
    (.connect "é".toList "a:b ".toList) (by unfold Request.FreeOfLineEnds; decide) trivial
  obtain rfl := Option.some.inj hline
  have horder : (Request.connect "é".toList "a:b ".toList).order =
      .connect "é".toList "a:b".toList := by decide
  rw [← horder]
  exact (hplay (boot [] []) cutJoin rfl (by decide +kernel)).2.2 (by unfold Request.Separable; decide)

end StationLink.Host
