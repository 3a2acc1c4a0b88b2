import StationLink.Proofs.Board.Dispatch

/-!
# Framing does not depend on how bytes arrive

The texts that a board carries out are fixed by the bytes it is fed: the runs between line ends that
are not empty, each decoded as a whole. Cuts and polls only decide when a text is carried out.
-/

namespace StationLink.Board

open Text

/-- Every byte string has one list of runs and one tail, and every way of feeding it, with polls
wherever they fall and one at the end, carries out the texts of these runs and leaves this tail. The
texts are those of an account of the turns of the board. -/
theorem texts_independent_of_cuts (bytes : Bytes) :
    ∃ runs tail, Parted isLineEnd bytes runs tail ∧
      ∀ (b : Board) (stimuli : List Stimulus), b.input ++ fed stimuli = bytes →
        Accounts (stimuli ++ [.poll]) b (play (stimuli ++ [.poll]) b) ∧
        ((play (stimuli ++ [.poll]) b).crashes = [] →
          (play (stimuli ++ [.poll]) b).texts = (runs.filter (· ≠ [])).map Utf8.decode ∧
          (play (stimuli ++ [.poll]) b).board.input = tail) := by
  obtain ⟨runs, tail, hbytes⟩ := exists_parted isLineEnd bytes
  refine ⟨runs, tail, hbytes, ?_⟩
  intro b stimuli hfed
  exact ⟨accounts_play _ b, play_of_parted hbytes b stimuli hfed⟩

/-- Polls fall into a character and between the two line ends, and one line is not UTF-8. -/
def cutStimuli : List Stimulus :=
  [.feed [0x53, 0xC3], .poll, .feed [0xA9, 0x0D], .poll, .feed [], .feed [0x0A, 0x0A, 0xFF], .poll,
    .feed [0x0A, 0x49]]

theorem texts_independent_of_cuts_at_cutStimuli :
    ∃ runs tail, Parted isLineEnd [0x53, 0xC3, 0xA9, 0x0D, 0x0A, 0x0A, 0xFF, 0x0A, 0x49] runs tail ∧
      (play (cutStimuli ++ [.poll]) (boot [] [])).texts =
        (runs.filter (· ≠ [])).map Utf8.decode ∧
      (play (cutStimuli ++ [.poll]) (boot [] [])).board.input = tail := by
  obtain ⟨runs, tail, hparted, hall⟩ :=
    texts_independent_of_cuts [0x53, 0xC3, 0xA9, 0x0D, 0x0A, 0x0A, 0xFF, 0x0A, 0x49]
  exact ⟨runs, tail, hparted, (hall (boot [] []) cutStimuli (by decide)).2 (by decide +kernel)⟩

end StationLink.Board
