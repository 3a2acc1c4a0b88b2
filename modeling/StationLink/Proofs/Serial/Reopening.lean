import StationLink.Proofs.Board.Rebooting
import StationLink.Proofs.Serial.Wired
import StationLink.Proofs.Time.Millis

/-!
# Reopening is a clean restart

A port that is opened on a board in use finds what it would find on a new board over the same networks
whose dialer goes on with the remaining plans. What the old board leaves behind are its sockets and
calls, and no call, no delivery to a new socket and no loss of the radio tells the two apart.
-/

namespace StationLink.Serial

open Text Board

variable {τ : Type}

/-- What can happen to a line, and to the board at its far end. -/
inductive Incident where
  | write (bytes : Bytes)
  | read
  | close
  | unplug (fails : Bool)
  | around (o : Occurrence)
deriving DecidableEq, Repr

inductive Usage (τ : Type) where
  | opening (settings : PortSettings τ)
  | incident (i : Incident)

/-- What shows of a board: its state, and what has become of its calls since those of an older
dialer. -/
structure Sight where
  wifi : Wifi
  session : Option (Text × Int)
  calls : List (Text × Int)
  sockets : List Socket
deriving DecidableEq, Repr

def sight (older : Dialer) (b : Board) : Sight where
  wifi := b.wifi
  session := b.session.map fun s => (s.host, s.port)
  calls := b.dialer.calls.drop older.calls.length
  sockets := b.dialer.sockets.drop older.sockets.length

section

variable [TimeScale τ]

/-- Sockets are counted from those that come behind the first ones; what the call gives comes with the
line. -/
def Incident.act (first : Nat) : Incident → WiredLine τ → Except Fault Bytes × WiredLine τ
  | .write bytes, l => ((l.write bytes).1.map fun _ => [], (l.write bytes).2)
  | .read, l => l.readLine
  | .close, l => (l.close.1.map fun _ => [], l.close.2)
  | .unplug fails, l => (.ok [], l.modify ({ · with failsWrite := fails }))
  | .around o, l => (.ok [], { l with board := (o.later first).befall l.board })

def Usage.act : Usage τ → WiredLine τ → WiredLine τ
  | .opening settings, l => (l.openPort settings).2
  | .incident i, l => (i.act 0 l).2

namespace WiredLine

def used (past : List (Usage τ)) (l : WiredLine τ) : WiredLine τ :=
  past.foldl (fun l u => u.act l) l

def after (older : Dialer) (incidents : List Incident) (l : WiredLine τ) : WiredLine τ :=
  incidents.foldl (fun l i => (i.act older.sockets.length l).2) l

def observe (older : Dialer) : List Incident → WiredLine τ → List (Except Fault Bytes × Sight)
  | [], _ => []
  | i :: incidents, l =>
    ((i.act older.sockets.length l).1, sight older (i.act older.sockets.length l).2.board) ::
      observe older incidents (i.act older.sockets.length l).2

end WiredLine

end

/-! ## Two lines that cannot be told apart -/

/-- The boards are the same but for an older dialer and the rests, and so are the newest ports. -/
structure Mirrors (older : Dialer) (new used : WiredLine τ) : Prop where
  board : ∃ rests, used.board = (new.board.behind older).around new.board.input [] rests
  port : used.ports.head? = new.ports.head?

namespace Mirrors

variable {older : Dialer} {new used : WiredLine τ}

theorem isOpen (h : Mirrors older new used) : used.isOpen = new.isOpen := by
  rw [WiredLine.isOpen, h.port, WiredLine.isOpen]

theorem failsWrite (h : Mirrors older new used) : used.failsWrite = new.failsWrite := by
  rw [WiredLine.failsWrite, h.port, WiredLine.failsWrite]

theorem received (h : Mirrors older new used) : used.received = new.received := by
  rw [WiredLine.received, h.port, WiredLine.received]

theorem output (h : Mirrors older new used) : used.board.output = new.board.output := by
  obtain ⟨rests, hboard⟩ := h.board
  rw [hboard]
  rfl

theorem modify (h : Mirrors older new used) (f : WiredPort τ → WiredPort τ) :
    Mirrors older (new.modify f) (used.modify f) := by
  refine ⟨h.board, ?_⟩
  change (modifyNewest f used.ports).head? = (modifyNewest f new.ports).head?
  rw [head?_modifyNewest, head?_modifyNewest, h.port]

/-- The clocks are not compared. -/
theorem of_eq (h : Mirrors older new used) {new' used' : WiredLine τ}
    (hnew : new'.board = new.board ∧ new'.ports = new.ports)
    (hused : used'.board = used.board ∧ used'.ports = used.ports) : Mirrors older new' used' := by
  obtain ⟨rests, hboard⟩ := h.board
  refine ⟨⟨rests, ?_⟩, ?_⟩
  · rw [hused.1, hnew.1, hboard]
  · rw [hused.2, hnew.2, h.port]

theorem sight (h : Mirrors older new used) :
    sight older used.board = sight { plans := [] } new.board := by
  obtain ⟨rests, hboard⟩ := h.board
  rw [hboard]
  simp only [Serial.sight, wifi_around, session_around, dialer_around, session_behind, dialer_behind,
    Option.map_map, Dialer.behind, List.drop_left, List.length_nil, List.drop_zero]
  rfl

/-! ### What each call does -/

theorem write (h : Mirrors older new used) (bytes : Bytes) :
    (used.write bytes).1 = (new.write bytes).1 ∧ Mirrors older (new.write bytes).2 (used.write bytes).2 := by
  simp only [WiredLine.write, h.isOpen, h.failsWrite]
  split
  · exact ⟨rfl, h⟩
  split
  · exact ⟨rfl, h⟩
  · obtain ⟨rests, hboard⟩ := h.board
    have hfed : Mirrors older { new with board := new.board.feed bytes }
        { used with board := used.board.feed bytes } := by
      refine ⟨⟨rests, ?_⟩, h.port⟩
      rw [hboard]
      rfl
    exact ⟨rfl, hfed.modify _⟩

theorem collect (h : Mirrors older new used) : Mirrors older new.collect used.collect := by
  obtain ⟨rests, hboard⟩ := h.board
  have hdrained : Mirrors older { new with board := { new.board with output := [] } }
      { used with board := { used.board with output := [] } } := by
    refine ⟨⟨rests, ?_⟩, h.port⟩
    rw [hboard]
    rfl
  rw [WiredLine.collect, WiredLine.collect, h.output]
  exact hdrained.modify _

variable [TimeScale τ]

theorem boardTurn (h : Mirrors older new used) :
    used.boardTurn.1 = new.boardTurn.1 ∧ Mirrors older new.boardTurn.2 used.boardTurn.2 := by
  obtain ⟨rests, hboard⟩ := h.board
  have hturn : used.board.turn =
      ((new.board.turn.1.behind older).around new.board.turn.1.input [] rests, new.board.turn.2) := by
    have hinput : new.board.input = (new.board.behind older).input := rfl
    rw [hboard, hinput, turn_around, turn_behind]
    rfl
  obtain ⟨_, hused⟩ := used.boardTurn_eq _ _ hturn
  obtain ⟨_, hnew⟩ := new.boardTurn_eq _ _ rfl
  rw [hused, hnew]
  exact ⟨rfl, ⟨[], rfl⟩, h.port⟩

theorem takeLine (h : Mirrors older new used) :
    used.takeLine.1 = new.takeLine.1 ∧ Mirrors older new.takeLine.2 used.takeLine.2 := by
  simp only [WiredLine.takeLine, h.received]
  split
  · exact ⟨rfl, h.modify _⟩
  · have hslept : Mirrors older (new.sleep new.timeout) (used.sleep used.timeout) :=
      h.of_eq ⟨rfl, rfl⟩ ⟨rfl, rfl⟩
    exact ⟨rfl, hslept.modify _⟩

theorem readLine (h : Mirrors older new used) :
    used.readLine.1 = new.readLine.1 ∧ Mirrors older new.readLine.2 used.readLine.2 := by
  have hcollect := h.collect
  obtain ⟨hbytes, htaken⟩ := hcollect.takeLine
  obtain ⟨hcrash, hturned⟩ := hcollect.boardTurn
  simp only [WiredLine.readLine, h.isOpen, hcollect.received]
  split
  · exact ⟨rfl, h⟩
  split
  · exact ⟨congrArg Except.ok hbytes, htaken⟩
  · generalize used.collect.boardTurn = usedTurn at hcrash hturned
    generalize new.collect.boardTurn = newTurn at hcrash hturned
    obtain ⟨crash, used'⟩ := usedTurn
    obtain ⟨_, new'⟩ := newTurn
    obtain rfl : crash = _ := hcrash
    cases crash with
    | some crash => exact ⟨rfl, hturned⟩
    | none =>
      obtain ⟨hbytes, htaken⟩ := hturned.collect.takeLine
      exact ⟨congrArg Except.ok hbytes, htaken⟩

theorem act (h : Mirrors older new used) (i : Incident) :
    (i.act older.sockets.length used).1 = (i.act 0 new).1 ∧
      Mirrors older (i.act 0 new).2 (i.act older.sockets.length used).2 := by
  cases i with
  | write bytes =>
    obtain ⟨hanswer, hmirrors⟩ := h.write bytes
    exact ⟨congrArg (Except.map fun _ => []) hanswer, hmirrors⟩
  | read => exact h.readLine
  | close => exact ⟨rfl, h.modify _⟩
  | unplug fails => exact ⟨rfl, h.modify _⟩
  | around o =>
    obtain ⟨rests, hboard⟩ := h.board
    have hbefall : (o.later older.sockets.length).befall used.board =
        ((o.befall new.board).behind older).around (o.befall new.board).input [] rests := by
      have hinput : new.board.input = (new.board.behind older).input := rfl
      rw [hboard, hinput, befall_around, befall_behind]
      rfl
    have hlater : o.later 0 = o := by cases o <;> simp [Occurrence.later]
    refine ⟨rfl, ⟨rests, ?_⟩, h.port⟩
    rw [Incident.act, Incident.act, hlater]
    exact hbefall

theorem observe (h : Mirrors older new used) (incidents : List Incident) :
    used.observe older incidents = new.observe { plans := [] } incidents := by
  induction incidents generalizing new used with
  | nil => rfl
  | cons i incidents ih =>
    obtain ⟨hanswer, hmirrors⟩ := h.act i
    have hrest := ih hmirrors
    simp only [WiredLine.observe]
    rw [hanswer, hmirrors.sight]
    exact congrArg _ hrest

theorem after (h : Mirrors older new used) (incidents : List Incident) :
    Mirrors older (new.after { plans := [] } incidents) (used.after older incidents) := by
  induction incidents generalizing new used with
  | nil => exact h
  | cons i incidents ih => exact ih (h.act i).2

end Mirrors

/-! ## What every use of a line keeps -/

section

variable [TimeScale τ]

theorem board_takeLine (l : WiredLine τ) : l.takeLine.2.board = l.board := by
  rw [WiredLine.takeLine]
  split
  · rfl
  · rfl

variable {I : Board → Prop} (hbefall : ∀ (b : Board) (o : Occurrence), I b → I (o.befall b))
  (hrests : ∀ (b : Board) (rests : List Nat), I b → I { b with rests })

include hbefall hrests

theorem keeps_readLine (l : WiredLine τ) (h : I l.board) : I l.readLine.2.board := by
  have hcollect (l : WiredLine τ) (h : I l.board) : I l.collect.board := hbefall l.board .read h
  have hturn : I l.collect.boardTurn.2.board := by
    obtain ⟨_, hturn⟩ := l.collect.boardTurn_eq _ _ rfl
    rw [hturn]
    exact hrests _ [] (hbefall _ .poll (hcollect l h))
  simp only [WiredLine.readLine]
  split
  · exact h
  split
  · rw [board_takeLine]
    exact hcollect l h
  · generalize l.collect.boardTurn = turned at hturn
    rcases turned with ⟨_ | crash, l'⟩
    · dsimp only
      rw [board_takeLine]
      exact hcollect l' hturn
    · exact hturn

theorem keeps_act (i : Incident) (first : Nat) (l : WiredLine τ) (h : I l.board) :
    I (i.act first l).2.board := by
  cases i with
  | write bytes =>
    simp only [Incident.act, WiredLine.write]
    split
    · exact h
    split
    · exact h
    · exact hbefall l.board (.feed bytes) h
  | read => exact keeps_readLine hbefall hrests l h
  | close => exact h
  | unplug fails => exact h
  | around o => exact hbefall l.board _ h

theorem keeps_used (past : List (Usage τ)) (l : WiredLine τ) (h : I l.board) : I (l.used past).board := by
  induction past generalizing l with
  | nil => exact h
  | cons u past ih =>
    apply ih
    cases u with
    | opening settings =>
      simp only [Usage.act, WiredLine.openPort]
      split
      · exact h
      · exact hbefall l.board .reset h
    | incident i => exact keeps_act hbefall hrests i 0 l h

end

/-! ## Reopening -/

variable [TimeScale τ]

theorem opened {l₀ l : WiredLine τ} {settings : PortSettings τ} (hopen : l₀.openPort settings = (.ok (), l)) :
    l.board = l₀.board.reset ∧ l.ports.head? = some { timeout := settings.timeout } := by
  cases hfault : l₀.openings.fault? with
  | some f =>
    rw [l₀.openPort_of_fault settings f hfault] at hopen
    cases hopen
  | none =>
    rw [l₀.openPort_of_none settings hfault] at hopen
    obtain rfl : _ = l := congrArg Prod.snd hopen
    exact ⟨rfl, rfl⟩

theorem mirrors_of_openPort {l₀ l new₀ new : WiredLine τ} {settings : PortSettings τ}
    (hopen : l₀.openPort settings = (.ok (), l)) (hnew : new₀.openPort settings = (.ok (), new))
    (hboard : new₀.board = boot l₀.board.radio.networks l₀.board.dialer.plans) :
    Mirrors l.board.dialer new l := by
  obtain ⟨hused, hport⟩ := opened hopen
  obtain ⟨hfresh, hport'⟩ := opened hnew
  have hboot : new.board = boot l₀.board.radio.networks l₀.board.dialer.plans := by
    rw [hfresh, hboard, boot, reset_eq (reset _)]
    rfl
  have hdialer : l.board.dialer = l₀.board.closeSession.dialer := by rw [hused, reset_eq]
  refine ⟨⟨l₀.board.rests, ?_⟩, hport.trans hport'.symm⟩
  rw [hdialer, hboot, hused, reset_eq_behind]
  rfl

/-- Whatever a line and its board have been used for: the port that is opened now closes the socket of
the session, and from then on no call and no surroundings tell it from a port on a new board. Older
sockets are left as they are. -/
theorem reopened_port_is_as_new (networks : List Network) (plans : List Plan) (start new₀ : WiredLine τ)
    (hstart : start.board = boot networks plans) (past : List (Usage τ)) (settings : PortSettings τ)
    (l new : WiredLine τ) (hopen : (start.used past).openPort settings = (.ok (), l))
    (hfresh : new₀.board = boot networks (start.used past).board.dialer.plans)
    (hnew : new₀.openPort settings = (.ok (), new)) (incidents : List Incident) :
    (l.board.session = none ∧ ∀ s, (start.used past).board.session = some s →
      ∃ socket, (start.used past).board.dialer.sockets[s.socket]? = some socket ∧
        l.board.dialer.sockets[s.socket]? = some socket.close) ∧
    sight l.board.dialer l.board = sight { plans := [] } new.board ∧
    l.observe l.board.dialer incidents = new.observe { plans := [] } incidents ∧
    l.board.dialer.sockets <+: (l.after l.board.dialer incidents).board.dialer.sockets := by
  have hkept : (start.used past).board.Placed ∧ (start.used past).board.radio.networks = networks := by
    apply keeps_used (I := fun b => b.Placed ∧ b.radio.networks = networks)
    · intro b o h
      exact ⟨Placed.enduring.befall h.1 o, (networks_befall o b).trans h.2⟩
    · intro b rests h
      exact ⟨h.1.of_eq rfl rfl, h.2⟩
    · rw [hstart]
      exact ⟨.of_none rfl, rfl⟩
  obtain ⟨hplaced, hnetworks⟩ := hkept
  have hmirrors : Mirrors l.board.dialer new l := by
    apply mirrors_of_openPort hopen hnew
    rw [hfresh, hnetworks]
  refine ⟨⟨?_, ?_⟩, hmirrors.sight, hmirrors.observe incidents, ?_⟩
  · rw [(opened hopen).1, reset_eq]
  · intro s hs
    have hsocket := List.getElem?_eq_getElem (hplaced s hs)
    refine ⟨_, hsocket, ?_⟩
    rw [(opened hopen).1, reset_eq]
    change (start.used past).board.closeSession.dialer.sockets[s.socket]? = _
    rw [sockets_closeSession hs, if_pos rfl, hsocket, Option.map_some]
  · obtain ⟨_, hafter⟩ := (hmirrors.after incidents).board
    rw [hafter]
    exact List.prefix_append _ _

/-- A network that takes longer to join than the board waits for it. -/
def outpost : WiredLine Millis where
  clock := .start ⟨0⟩
  board := boot [{ ssid := "far".toList, rssi := -80, joinPolls := 30 }] [.refuse, .answer {}, .refuse, .answer {}]
  paced := false

def patient : PortSettings Millis :=
  { baudrate := some 9600, timeout := some ⟨1000⟩, writeTimeout := ⟨0⟩ }

/-- The second call is taken; the join is given up while the radio is still at it, and the last order is
cut off. -/
def litter : List (Usage Millis) :=
  [.opening patient,
    .incident (.write (Utf8.encode "TCPCONNECT:a:1\nTCPCONNECT:b:2\nCONNECT:far:\nSTA".toList)),
    .incident .read, .incident .read, .incident .read, .incident .read,
    .incident (.around (.deliver 0 [.data 0x78 []])), .incident (.around .poll)]

def aftermath : List Incident :=
  .write (Utf8.encode "TUS\nTCPCONNECT:c:3\nTCPCONNECT:d:4\n".toList) :: List.replicate 7 .read ++
    [.around (.deliver 0 [.data 0x79 [], .eof]), .around .dropRadio, .around .poll, .read, .read]

theorem reopened_port_is_as_new_of_litter :
    ∃ l new : WiredLine Millis,
      (outpost.used litter).openPort patient = (.ok (), l) ∧
      ({ outpost with board := boot outpost.board.radio.networks (outpost.used litter).board.dialer.plans } :
        WiredLine Millis).openPort patient = (.ok (), new) ∧
      (outpost.used litter).board.session = some ⟨"b".toList, 2, 0⟩ ∧
      (outpost.used litter).board.input = Utf8.encode "STA".toList ∧
      (outpost.used litter).board.output ≠ [] ∧
      (outpost.used litter).board.radio.association ≠ .idle ∧
      (l.board.session = none ∧ ∀ s, (outpost.used litter).board.session = some s →
        ∃ socket, (outpost.used litter).board.dialer.sockets[s.socket]? = some socket ∧
          l.board.dialer.sockets[s.socket]? = some socket.close) ∧
      sight l.board.dialer l.board = sight { plans := [] } new.board ∧
      l.observe l.board.dialer aftermath = new.observe { plans := [] } aftermath ∧
      l.board.dialer.sockets <+: (l.after l.board.dialer aftermath).board.dialer.sockets := by
  have hfault : (outpost.used litter).openings.fault? = none := by decide +kernel
  have hopen := (outpost.used litter).openPort_of_none patient hfault
  have hnew := WiredLine.openPort_of_none ({ outpost with
    board := boot outpost.board.radio.networks (outpost.used litter).board.dialer.plans }) patient rfl
  refine ⟨_, _, hopen, hnew, by decide +kernel, by decide +kernel, by decide +kernel, by decide +kernel, ?_⟩
  exact reopened_port_is_as_new _ _ outpost _ rfl litter patient _ _ hopen rfl hnew aftermath

end StationLink.Serial
