import StationLink.Board.Run
import StationLink.Proofs.Board.Aloof

/-!
# What an order leaves alone

An order neither reads nor changes the input of the board, and it only adds to the output and to the
rests. So it does the same whatever input is at hand and whatever has been printed before.
-/

namespace StationLink.Board

open Text Protocol

/-- The same board with this input, and with output and rests that come before its own. -/
def around (input output : Bytes) (rests : List Nat) (b : Board) : Board :=
  { b with input := input, output := output ++ b.output, rests := rests ++ b.rests }

section

variable (input output : Bytes) (rests : List Nat) (b : Board)

@[simp]
theorem radio_around : (b.around input output rests).radio = b.radio := rfl

@[simp]
theorem dialer_around : (b.around input output rests).dialer = b.dialer := rfl

@[simp]
theorem wifi_around : (b.around input output rests).wifi = b.wifi := rfl

@[simp]
theorem session_around : (b.around input output rests).session = b.session := rfl

@[simp]
theorem print_around (text : Text) :
    (b.around input output rests).print text = (b.print text).around input output rests := by
  simp [print, around]

@[simp]
theorem printLine_around (text : Text) :
    (b.around input output rests).printLine text = (b.printLine text).around input output rests :=
  print_around input output rests b _

@[simp]
theorem rest_around (millis : Nat) :
    (b.around input output rests).rest millis = (b.rest millis).around input output rests := by
  simp [rest, around]

/-! ## Orders about WiFi -/

@[simp]
theorem pollRadio_around :
    (b.around input output rests).pollRadio =
      (b.pollRadio.1, b.pollRadio.2.around input output rests) := rfl

@[simp]
theorem awaitJoin_around (attempts : Nat) :
    awaitJoin attempts (b.around input output rests) =
      (awaitJoin attempts b).around input output rests := by
  induction attempts generalizing b with
  | zero => rfl
  | succ attempts ih =>
    simp only [awaitJoin, pollRadio_around, rest_around, print_around, ih]
    cases b.pollRadio.1 <;> rfl

theorem connect_around (ssid password : Text) :
    (b.around input output rests).connect ssid password =
      (b.connect ssid password).around input output rests := by
  have hset (b : Board) (wifi : Wifi) (radio : Radio) :
      { b.around input output rests with wifi, radio } =
        { b with wifi, radio }.around input output rests := rfl
  simp only [connect, printLine_around, hset, awaitJoin_around, pollRadio_around, radio_around]
  split <;> rfl

theorem disconnect_around :
    (b.around input output rests).disconnect = b.disconnect.around input output rests :=
  printLine_around input output rests { b with radio := b.radio.leave, wifi := .idle } _

@[simp]
theorem noticeLoss_around :
    (b.around input output rests).noticeLoss =
      (b.noticeLoss.1, b.noticeLoss.2.around input output rests) := by
  refine Prod.ext rfl ?_
  dsimp only
  rw [noticeLoss_snd, noticeLoss_snd]
  rfl

theorem reportAddress_around :
    (b.around input output rests).reportAddress = b.reportAddress.around input output rests := by
  simp only [reportAddress, noticeLoss_around, radio_around]
  split <;> rw [printLine_around]

theorem reportStatus_around :
    (b.around input output rests).reportStatus =
      (b.reportStatus.1.around input output rests, b.reportStatus.2) := by
  simp only [reportStatus, noticeLoss_around, printLine_around, radio_around]
  split
  · split <;> rfl
  · rfl

theorem printSurvey_around (networks : List Network) :
    printSurvey networks (b.around input output rests) =
      ((printSurvey networks b).1.around input output rests, (printSurvey networks b).2) := by
  induction networks generalizing b with
  | nil => rfl
  | cons n networks ih =>
    simp only [printSurvey, printLine_around]
    split
    · exact ih _
    · rfl

theorem reportSurvey_around :
    (b.around input output rests).reportSurvey =
      (b.reportSurvey.1.around input output rests, b.reportSurvey.2) := by
  simp only [reportSurvey, printLine_around, radio_around]
  split
  · rfl
  · exact printSurvey_around input output rests _ _

/-! ## Orders about TCP -/

theorem aloof_around : Aloof (around input output rests) where
  dialer _ := rfl
  session _ := rfl
  place _ _ _ := rfl
  line b text := printLine_around input output rests b text

@[simp]
theorem closeSession_around :
    (b.around input output rests).closeSession = b.closeSession.around input output rests :=
  (aloof_around input output rests).closeSession b

theorem forward_around :
    (b.around input output rests).forward = b.forward.around input output rests :=
  (aloof_around input output rests).forward b

/-! ## All orders -/

theorem execute_around (order : Order) :
    (b.around input output rests).execute order =
      ((b.execute order).1.around input output rests, (b.execute order).2) := by
  cases order with
  | connect ssid password => simp only [execute, connect_around]
  | connectWithoutPassword => simp only [execute, printLine_around]
  | status => exact reportStatus_around input output rests b
  | scan => exact reportSurvey_around input output rests b
  | disconnect => simp only [execute, disconnect_around]
  | tcpConnect host port => exact (aloof_around input output rests).tcpConnect b host port
  | tcpConnectWithoutHost => simp only [execute, printLine_around]
  | tcpSend data => exact congrArg (·, none) ((aloof_around input output rests).tcpSend b data)
  | tcpClose => exact congrArg (·, none) ((aloof_around input output rests).tcpClose b)
  | address => simp only [execute, reportAddress_around]
  | unknown line => simp only [execute, printLine_around]

theorem executeAll_around (orders : List Order) :
    executeAll orders (b.around input output rests) =
      ((executeAll orders b).1.around input output rests, (executeAll orders b).2) := by
  induction orders generalizing b with
  | nil => rfl
  | cons order orders ih =>
    simp only [executeAll, execute_around]
    rcases b.execute order with ⟨b, _ | crash⟩
    · exact ih b
    · rfl

end

theorem around_self (b : Board) : b.around b.input [] [] = b := by
  simp [around]

theorem input_execute (o : Order) (b : Board) : (b.execute o).1.input = b.input := by
  have h := execute_around b.input [] [] b o
  rw [around_self] at h
  rw [h]
  rfl

@[simp]
theorem input_executeAll (orders : List Order) (b : Board) :
    (executeAll orders b).1.input = b.input := by
  have h := executeAll_around b.input [] [] b orders
  rw [around_self] at h
  rw [h]
  rfl

@[simp]
theorem input_forward (b : Board) : b.forward.input = b.input := by
  have h := forward_around b.input [] [] b
  rw [around_self] at h
  rw [h]
  rfl

/-- A turn leaves the open rest of its input. -/
theorem input_turn (b : Board) : b.turn.1.input = (frame b.input).2 := by
  have h := input_executeAll ((frame b.input).1.map Order.ofBytes) { b with input := (frame b.input).2 }
  simp only [turn]
  generalize hrun : executeAll _ _ = run at h ⊢
  rcases run with ⟨b, _ | crash⟩
  · exact (input_forward b).trans h
  · exact h

/-- A turn is the same whatever has been printed and rested before. -/
theorem turn_around (output : Bytes) (rests : List Nat) (b : Board) :
    (b.around b.input output rests).turn =
      (b.turn.1.around b.turn.1.input output rests, b.turn.2) := by
  have hinput := input_turn b
  have hrun := executeAll_around (frame b.input).2 output rests { b with input := (frame b.input).2 }
    ((frame b.input).1.map Order.ofBytes)
  have hstart : ({ b with input := (frame b.input).2 } : Board).around (frame b.input).2 output rests =
      { b.around b.input output rests with input := (frame b.input).2 } := rfl
  rw [hstart] at hrun
  rw [hinput]
  simp only [turn]
  have hsame : (b.around b.input output rests).input = b.input := rfl
  rw [hsame, hrun]
  rcases executeAll ((frame b.input).1.map Order.ofBytes) { b with input := (frame b.input).2 } with
    ⟨b', _ | crash⟩
  · simp only [forward_around, rest_around]
  · rfl

end StationLink.Board
