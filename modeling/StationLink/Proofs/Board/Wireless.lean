import StationLink.Proofs.Board.Answers
import StationLink.Proofs.Board.Outcomes

/-!
# Orders about WiFi see nothing of the wire

An order about WiFi neither reads nor changes dialer and session. So it does the same on boards that
differ in these alone, and of a board whose radio is plain it needs to know nothing else.
-/

namespace StationLink.Board

open Text Protocol

/-- The same board with another dialer and another session. -/
def wired (dialer : Dialer) (session : Option Session) (b : Board) : Board :=
  { b with dialer, session }

/-- Orders that are no orders about TCP. -/
def Order.Wireless : Order → Prop
  | .tcpConnect _ _ | .tcpSend _ | .tcpClose => False
  | _ => True

section

variable (dialer : Dialer) (session : Option Session) (b : Board)

theorem connect_wired (ssid password : Text) :
    (b.wired dialer session).connect ssid password =
      (b.connect ssid password).wired dialer session := by
  rw [connect_eq, connect_eq]
  rfl

theorem noticeLoss_wired :
    (b.wired dialer session).noticeLoss = (b.noticeLoss.1, b.noticeLoss.2.wired dialer session) := by
  refine Prod.ext rfl ?_
  dsimp only
  rw [noticeLoss_snd, noticeLoss_snd]
  rfl

theorem printLine_wired (text : Text) :
    (b.wired dialer session).printLine text = (b.printLine text).wired dialer session := rfl

theorem reportAddress_wired :
    (b.wired dialer session).reportAddress = b.reportAddress.wired dialer session := by
  simp only [reportAddress, noticeLoss_wired]
  split
  · rfl
  · rfl

theorem reportStatus_wired :
    (b.wired dialer session).reportStatus =
      (b.reportStatus.1.wired dialer session, b.reportStatus.2) := by
  have hradio (b : Board) : (b.wired dialer session).radio = b.radio := rfl
  simp only [reportStatus, noticeLoss_wired, printLine_wired, hradio]
  split
  · split
    · rfl
    · rfl
  · rfl

theorem printSurvey_wired (networks : List Network) :
    printSurvey networks (b.wired dialer session) =
      ((printSurvey networks b).1.wired dialer session, (printSurvey networks b).2) := by
  induction networks generalizing b with
  | nil => rfl
  | cons n networks ih =>
    simp only [printSurvey, printLine_wired]
    split
    · exact ih _
    · rfl

theorem reportSurvey_wired :
    (b.wired dialer session).reportSurvey =
      (b.reportSurvey.1.wired dialer session, b.reportSurvey.2) := by
  have hradio (b : Board) : (b.wired dialer session).radio = b.radio := rfl
  simp only [reportSurvey, printLine_wired, hradio]
  split
  · rfl
  · exact printSurvey_wired dialer session _ _

theorem execute_wired (o : Order) (ho : o.Wireless) :
    (b.wired dialer session).execute o = ((b.execute o).1.wired dialer session, (b.execute o).2) := by
  cases o with
  | connect ssid password => exact congrArg (·, none) (connect_wired dialer session b ssid password)
  | connectWithoutPassword => rfl
  | status => exact reportStatus_wired dialer session b
  | scan => exact reportSurvey_wired dialer session b
  | disconnect => rfl
  | tcpConnectWithoutHost => rfl
  | address => exact congrArg (·, none) (reportAddress_wired dialer session b)
  | unknown line => rfl
  | _ => exact absurd ho id

theorem wire_execute (o : Order) (ho : o.Wireless) :
    (b.execute o).1.dialer = b.dialer ∧ (b.execute o).1.session = b.session := by
  have hself := execute_wired b.dialer b.session b o ho
  have hsame : b.wired b.dialer b.session = b := rfl
  rw [hsame] at hself
  rw [hself]
  exact ⟨rfl, rfl⟩

end

/-- A board with this radio and nothing else. -/
theorem plain_of_radio {b : Board} (h : b.radio.Plain) : (b.wired { plans := [] } none).Plain :=
  ⟨h, by simp [wired], by simp [wired]⟩

theorem execute_of_wireless (o : Order) (ho : o.Wireless) (hplain : o.Plain) (b : Board)
    (h : b.radio.Plain) :
    ∃ b' lines, b.execute o = (b', none) ∧ b'.radio.Plain ∧ b'.dialer = b.dialer ∧
      b'.session = b.session ∧ b'.output = b.output ++ Utf8.encodeLines lines ∧
      ∀ t ∈ lines, '\n' ∉ t ∧ Mute t := by
  obtain ⟨hcrash, hprints⟩ := completes_execute o _ (plain_of_radio h) hplain
  obtain ⟨lines, houtput, hlines⟩ := hprints.output
  have hrun := execute_wired b.dialer b.session (b.wired { plans := [] } none) o ho
  rw [hcrash] at hrun
  exact ⟨_, lines, hrun, hprints.plain.radio, rfl, rfl, houtput, hlines⟩

end StationLink.Board
