import StationLink.Proofs.Board.Around
import StationLink.Proofs.Board.Placing

/-!
# A board that has been used before

A dialer that has made calls and sockets before goes on behind them. No order looks at a socket but the
session's, so a board does the same on such a dialer, with the places of its sockets moved up. Starting
afresh leaves of all that has been only those earlier calls and sockets, and the rests.
-/

namespace StationLink.Board

open Text Protocol

/-- The dialer with calls and sockets of an older one before its own. -/
def Dialer.behind (older d : Dialer) : Dialer :=
  { d with calls := older.calls ++ d.calls, sockets := older.sockets ++ d.sockets }

def Session.behind (older : Dialer) (s : Session) : Session :=
  { s with socket := older.sockets.length + s.socket }

/-- The board on a dialer that has been used before. -/
def behind (older : Dialer) (b : Board) : Board :=
  b.wired (older.behind b.dialer) (b.session.map (Session.behind older))

theorem Dialer.modify_behind (older d : Dialer) (i : Nat) (f : Socket → Socket) :
    (older.behind d).modify (older.sockets.length + i) f = older.behind (d.modify i f) := by
  have hsockets : (older.sockets ++ d.sockets).modify (older.sockets.length + i) f =
      older.sockets ++ d.sockets.modify i f := by
    apply List.ext_getElem?
    intro j
    rw [List.getElem?_modify]
    by_cases hj : j < older.sockets.length
    · have hne : older.sockets.length + i ≠ j := by omega
      simp [List.getElem?_append_left hj, hne]
    · obtain ⟨k, rfl⟩ := Nat.exists_eq_add_of_le (Nat.le_of_not_lt hj)
      simp [List.getElem?_append_right, List.getElem?_modify]
  rw [modify, behind, behind, modify, hsockets]

theorem Dialer.getElem?_behind (older d : Dialer) (i : Nat) :
    (older.behind d).sockets[older.sockets.length + i]? = d.sockets[i]? := by
  simp [behind, List.getElem?_append_right]

theorem Dialer.dial_behind (older d : Dialer) (host : Text) (port : Int) :
    (older.behind d).dial host port = ((d.dial host port).1, older.behind (d.dial host port).2) := by
  have hnext : (older.behind d).nextPlan = d.nextPlan := rfl
  simp only [dial, hnext]
  cases d.nextPlan with
  | refuse => simp [behind]
  | fault => simp [behind]
  | answer socket => simp [behind]

section

variable (older : Dialer) (b : Board)

@[simp]
theorem session_behind : (b.behind older).session = b.session.map (Session.behind older) := rfl

@[simp]
theorem dialer_behind : (b.behind older).dialer = older.behind b.dialer := rfl

@[simp]
theorem inbox_behind (s : Session) : (b.behind older).inbox (s.behind older) = b.inbox s := by
  simp only [inbox, dialer_behind, Session.behind, Dialer.getElem?_behind]

@[simp]
theorem printLine_behind (text : Text) :
    (b.behind older).printLine text = (b.printLine text).behind older := rfl

theorem modify_behind (i : Nat) (f : Socket → Socket) :
    { b.behind older with dialer := (b.behind older).dialer.modify (older.sockets.length + i) f } =
      { b with dialer := b.dialer.modify i f }.behind older := by
  rw [dialer_behind, Dialer.modify_behind]
  rfl

@[simp]
theorem setInbox_behind (s : Session) (inbox : List PeerEvent) :
    (b.behind older).setInbox (s.behind older) inbox = (b.setInbox s inbox).behind older :=
  modify_behind older b s.socket _

@[simp]
theorem closeSession_behind : (b.behind older).closeSession = b.closeSession.behind older := by
  cases hs : b.session with
  | none => simp [closeSession, hs]
  | some s =>
    simp only [closeSession, session_behind, hs, Option.map_some]
    exact congrArg (fun b' : Board => { b' with session := none })
      (modify_behind older b s.socket Socket.close)

/-! ## Orders -/

theorem dial_behind (host : Text) (port : Int) :
    (b.behind older).dial host port = ((b.dial host port).1.behind older, (b.dial host port).2) := by
  have hplace : (older.behind b.dialer).sockets.length =
      older.sockets.length + b.dialer.sockets.length := List.length_append
  simp only [dial, dialer_behind, Dialer.dial_behind, hplace, Dialer.modify_behind]
  generalize b.dialer.dial host port = called
  rcases called with ⟨_ | _ | socket, dialer⟩
  · rfl
  · rfl
  · dsimp only
    split
    · rfl
    · rfl

theorem tcpConnect_behind (host : Text) (port : Int) :
    (b.behind older).tcpConnect host port =
      ((b.tcpConnect host port).1.behind older, (b.tcpConnect host port).2) := by
  simp only [tcpConnect]
  split
  · rfl
  · rw [printLine_behind, closeSession_behind, dial_behind]

@[simp]
theorem aliveSession_behind :
    (b.behind older).aliveSession =
      (b.aliveSession.1.map (Session.behind older), b.aliveSession.2.behind older) := by
  cases hs : b.session with
  | none => simp [aliveSession, hs]
  | some s =>
    simp only [aliveSession, session_behind, hs, Option.map_some, inbox_behind, setInbox_behind,
      closeSession_behind]
    split <;> rfl

theorem tcpSend_behind (data : Text) :
    (b.behind older).tcpSend data = (b.tcpSend data).behind older := by
  simp only [tcpSend, aliveSession_behind]
  rcases b.aliveSession with ⟨_ | s, b⟩
  · rfl
  · have hsocket : (b.behind older).dialer.sockets[(s.behind older).socket]? = b.dialer.sockets[s.socket]? :=
      Dialer.getElem?_behind older b.dialer s.socket
    have hsent := modify_behind older b s.socket (Socket.send (Utf8.encode data))
    simp only [Option.map_some, hsocket]
    split
    · rw [← printLine_behind, ← closeSession_behind]
      exact congrArg (fun b => b.closeSession.printLine "ERROR:Not connected".toList) hsent
    · exact congrArg (printLine "OK:Data sent".toList) hsent

theorem tcpClose_behind : (b.behind older).tcpClose = b.tcpClose.behind older := by
  simp only [tcpClose, aliveSession_behind]
  rcases b.aliveSession with ⟨_ | s, b⟩
  · rfl
  · simp only [Option.map_some, closeSession_behind, printLine_behind]

theorem forward_behind : (b.behind older).forward = b.forward.behind older := by
  cases hs : b.session with
  | none => simp [forward, hs]
  | some s =>
    simp only [forward, session_behind, hs, Option.map_some, inbox_behind, setInbox_behind,
      printLine_behind]
    split <;> split <;> simp only [closeSession_behind]

/-- Orders about WiFi do not look at the dialer at all. -/
theorem wireless_behind (o : Order) (ho : o.Wireless) :
    (b.behind older).execute o = ((b.execute o).1.behind older, (b.execute o).2) := by
  have hrun := execute_wired (older.behind b.dialer) (b.session.map (Session.behind older)) b o ho
  rw [behind, hrun, behind, (wire_execute b o ho).1, (wire_execute b o ho).2]

theorem execute_behind (o : Order) :
    (b.behind older).execute o = ((b.execute o).1.behind older, (b.execute o).2) := by
  cases o with
  | tcpConnect host port => exact tcpConnect_behind older b host port
  | tcpSend data => exact congrArg (·, none) (tcpSend_behind older b data)
  | tcpClose => exact congrArg (·, none) (tcpClose_behind older b)
  | _ => exact wireless_behind older b _ trivial

theorem executeAll_behind (orders : List Order) :
    executeAll orders (b.behind older) =
      ((executeAll orders b).1.behind older, (executeAll orders b).2) := by
  induction orders generalizing b with
  | nil => rfl
  | cons o orders ih =>
    simp only [executeAll, execute_behind]
    rcases b.execute o with ⟨b, _ | crash⟩
    · exact ih b
    · rfl

theorem turn_behind : (b.behind older).turn = (b.turn.1.behind older, b.turn.2) := by
  have hrun := executeAll_behind older { b with input := (frame b.input).2 }
    ((frame b.input).1.map Order.ofBytes)
  have hstart : { b.behind older with input := (frame b.input).2 } =
      { b with input := (frame b.input).2 }.behind older := rfl
  have hinput : (b.behind older).input = b.input := rfl
  simp only [turn, hinput, hstart, hrun]
  generalize executeAll _ _ = run
  rcases run with ⟨b', _ | crash⟩
  · dsimp only
    rw [forward_behind]
    rfl
  · rfl

theorem reset_behind : (b.behind older).reset = b.reset.behind older := by
  simp only [reset, closeSession_behind]
  rfl

end

/-- The same occurrence to a board whose sockets have places from this one on. -/
def Occurrence.later (first : Nat) : Occurrence → Occurrence
  | .deliver i events => .deliver (first + i) events
  | .failSends i fails => .failSends (first + i) fails
  | o => o

theorem befall_behind (older : Dialer) (b : Board) (o : Occurrence) :
    (o.later older.sockets.length).befall (b.behind older) = (o.befall b).behind older := by
  cases o with
  | feed bytes => rfl
  | poll => exact congrArg Prod.fst (turn_behind older b)
  | order text => exact congrArg Prod.fst (execute_behind older b (.ofText text))
  | read => rfl
  | reset => exact reset_behind older b
  | deliver i events => exact modify_behind older b i _
  | failSends i fails => exact modify_behind older b i _
  | dropRadio => rfl

/-! ## Starting afresh -/

theorem reset_eq (b : Board) :
    b.reset =
      { radio := b.radio.leave, dialer := b.closeSession.dialer, output := Utf8.encodeLines banner,
        rests := b.rests } := by
  obtain ⟨dialer, hclose, _⟩ := closeSession_eq b
  have hbanner : b.reset = printLines banner
      { b.closeSession with radio := b.closeSession.radio.leave, wifi := .idle, input := [], output := [] } :=
    rfl
  rw [hbanner, printLines_eq, hclose, List.nil_append]

/-- What a board that starts afresh keeps are its calls and sockets, and how long it has rested. -/
theorem reset_eq_behind (b : Board) :
    b.reset =
      ((boot b.radio.networks b.dialer.plans).behind b.closeSession.dialer).around [] [] b.rests := by
  obtain ⟨_, hclose, _, hplans, _⟩ := closeSession_eq b
  have hplans : b.closeSession.dialer.plans = b.dialer.plans := by rw [hclose, hplans]
  have hdialer : b.closeSession.dialer.behind { plans := b.dialer.plans } = b.closeSession.dialer := by
    simp [Dialer.behind, ← hplans]
  have hboot : boot b.radio.networks b.dialer.plans =
      { radio := b.radio.leave, dialer := { plans := b.dialer.plans }, output := Utf8.encodeLines banner } :=
    reset_eq _
  rw [reset_eq, hboot, behind, wired, around, hdialer]
  simp

theorem sockets_closeSession {b : Board} {s : Session} (hs : b.session = some s) (i : Nat) :
    b.closeSession.dialer.sockets[i]? =
      if i = s.socket then b.dialer.sockets[i]?.map Socket.close else b.dialer.sockets[i]? := by
  simp only [closeSession, hs, Dialer.modify, List.getElem?_modify]
  by_cases hi : s.socket = i
  · simp [hi]
  · simp [hi, Ne.symm hi]

/-- How long the board has rested before makes no difference. -/
theorem befall_around (rests : List Nat) (b : Board) (o : Occurrence) :
    o.befall (b.around b.input [] rests) = (o.befall b).around (o.befall b).input [] rests := by
  cases o with
  | poll => exact congrArg Prod.fst (turn_around [] rests b)
  | order text =>
    have hrun := congrArg Prod.fst (execute_around b.input [] rests b (.ofText text))
    rw [← input_execute (.ofText text) b] at hrun
    rw [← input_execute (.ofText text) b]
    exact hrun
  | reset =>
    change (b.around b.input [] rests).reset = b.reset.around b.reset.input [] rests
    rw [reset_eq, reset_eq, closeSession_around]
    rfl
  | _ => rfl

/-! ## The networks stay -/

theorem networks_execute (o : Order) (b : Board) :
    (b.execute o).1.radio.networks = b.radio.networks :=
  (onto_execute (P := fun _ => True) (fun _ _ => trivial) o b ⟨rfl, fun _ _ => trivial⟩).networks

theorem networks_turn (b : Board) : b.turn.1.radio.networks = b.radio.networks := by
  have hrun : (executeAll ((frame b.input).1.map Order.ofBytes)
      { b with input := (frame b.input).2 }).1.radio.networks = b.radio.networks :=
    executeAll_keeps (I := fun b' => b'.radio.networks = b.radio.networks) _ _ rfl
      fun o _ b' hb' => (networks_execute o b').trans hb'
  simp only [turn]
  generalize executeAll _ _ = run at hrun
  rcases run with ⟨b', _ | crash⟩
  · change b'.forward.radio.networks = _
    rw [radio_forward]
    exact hrun
  · exact hrun

theorem networks_befall (o : Occurrence) (b : Board) :
    (o.befall b).radio.networks = b.radio.networks := by
  cases o with
  | poll => exact networks_turn b
  | order text => exact networks_execute _ b
  | reset =>
    change b.reset.radio.networks = _
    rw [reset_eq]
    rfl
  | _ => rfl

end StationLink.Board
