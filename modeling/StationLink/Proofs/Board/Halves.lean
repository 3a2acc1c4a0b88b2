import StationLink.Proofs.Board.Carrying
import StationLink.Proofs.Board.Sockets
import StationLink.Proofs.Board.Wireless

/-!
# The two halves of the board

What a board does about WiFi and what it does about TCP go on beside each other over one link. An
occurrence of one half neither reads nor changes the state of the other. So each half of a run is what it
would be if nothing of the other half happened.
-/

namespace StationLink.Board

open Text Protocol

inductive Half where
  | wifi
  | tcp
deriving DecidableEq, Repr

/-- The half an order belongs to, also if it is not well formed. -/
def Order.half? : Order → Option Half
  | .connect _ _ | .connectWithoutPassword | .status | .scan | .disconnect | .address => some .wifi
  | .tcpConnect _ _ | .tcpConnectWithoutHost | .tcpSend _ | .tcpClose => some .tcp
  | .unknown _ => none

def Occurrence.half? : Occurrence → Option Half
  | .order text => (Order.ofText text).half?
  | .deliver _ _ | .failSends _ _ => some .tcp
  | .dropRadio => some .wifi
  | .feed _ | .poll | .read | .reset => none

def wifiSide (b : Board) : Radio × Wifi :=
  (b.radio, b.wifi)

def tcpSide (b : Board) : Dialer × Option Session :=
  (b.dialer, b.session)

/-! ## Orders -/

theorem Order.wireless_of_half? {o : Order} (h : o.half? ≠ some .tcp) : o.Wireless := by
  cases o with
  | tcpConnect host port => exact absurd rfl h
  | tcpSend data => exact absurd rfl h
  | tcpClose => exact absurd rfl h
  | _ => trivial

theorem execute_of_wifiSide {b b' : Board} (h : wifiSide b' = wifiSide b) (o : Order) (ho : o.Wireless) :
    wifiSide (b'.execute o).1 = wifiSide (b.execute o).1 ∧ answer o b' = answer o b := by
  have hradio : b'.radio = b.radio := congrArg Prod.fst h
  have hwifi : b'.wifi = b.wifi := congrArg Prod.snd h
  have hbare : b'.bare = b.bare.wired b'.dialer b'.session := by
    rw [bare, bare, wired, hradio, hwifi]
  have hrun := execute_wired b'.dialer b'.session b.bare o ho
  rw [← hbare] at hrun
  constructor
  · rw [execute_bare o b', execute_bare o b, hrun]
    rfl
  · rw [answer, answer, hrun]
    rfl

/-- The same board with another radio, and another opinion of it. -/
def aired (radio : Radio) (wifi : Wifi) (b : Board) : Board :=
  { b with radio, wifi }

theorem aloof_aired (radio : Radio) (wifi : Wifi) : Aloof (aired radio wifi) where
  dialer _ := rfl
  session _ := rfl
  place _ _ _ := rfl
  line _ _ := rfl

theorem execute_aired (radio : Radio) (wifi : Wifi) (b : Board) (o : Order) (ho : o.half? ≠ some .wifi) :
    (b.aired radio wifi).execute o = ((b.execute o).1.aired radio wifi, (b.execute o).2) := by
  have haloof := aloof_aired radio wifi
  cases o with
  | tcpConnect host port => exact haloof.tcpConnect b host port
  | tcpConnectWithoutHost => rfl
  | tcpSend data => exact congrArg (·, none) (haloof.tcpSend b data)
  | tcpClose => exact congrArg (·, none) (haloof.tcpClose b)
  | unknown line => rfl
  | _ => exact absurd rfl ho

theorem wifiSide_execute (b : Board) (o : Order) (ho : o.half? ≠ some .wifi) :
    wifiSide (b.execute o).1 = wifiSide b := by
  have hself := execute_aired b.radio b.wifi b o ho
  have hsame : b.aired b.radio b.wifi = b := rfl
  rw [hsame] at hself
  rw [hself]
  rfl

section

variable {b b' : Board} (h : tcpSide b' = tcpSide b)

include h

theorem bare_of_tcpSide : b'.bare = b.bare.aired b'.radio b'.wifi := by
  have hdialer : b'.dialer = b.dialer := congrArg Prod.fst h
  have hsession : b'.session = b.session := congrArg Prod.snd h
  rw [bare, bare, aired, hdialer, hsession]

theorem execute_of_tcpSide (o : Order) (ho : o.half? ≠ some .wifi) :
    tcpSide (b'.execute o).1 = tcpSide (b.execute o).1 ∧ answer o b' = answer o b := by
  have hrun := execute_aired b'.radio b'.wifi b.bare o ho
  rw [← bare_of_tcpSide h] at hrun
  constructor
  · rw [execute_bare o b', execute_bare o b, hrun]
    rfl
  · rw [answer, answer, hrun]
    rfl

theorem forward_of_tcpSide :
    tcpSide b'.forward = tcpSide b.forward ∧ b'.bare.forward.output = b.bare.forward.output := by
  have hrun := (aloof_aired b'.radio b'.wifi).forward b.bare
  rw [← bare_of_tcpSide h] at hrun
  constructor
  · rw [forward_bare b', forward_bare b, hrun]
    rfl
  · rw [hrun]
    rfl

end

/-! ## Occurrences -/

/-- What happens to a board by itself, neither through its input nor by starting it afresh. -/
def Occurrence.direct : Occurrence → Bool
  | .feed _ | .reset => false
  | _ => true

/-- No line waits at the board. -/
def Open (b : Board) : Prop :=
  ∀ x ∈ b.input, isLineEnd x = false

theorem turn_of_open {b : Board} (h : b.Open) : b.turn = (b.forward.rest idleRest, none) := by
  have hframe : frame b.input = ([], b.input) := frame_of_parted (.tail h)
  simp only [turn, hframe]
  rfl

theorem Open.befall {b : Board} (h : b.Open) (o : Occurrence) (ho : o.direct) : (o.befall b).Open := by
  have hinput : (o.befall b).input = b.input := by
    cases o with
    | feed bytes => cases ho
    | poll =>
      change b.turn.1.input = b.input
      rw [turn_of_open h]
      exact input_forward b
    | order text => exact input_execute _ b
    | reset => cases ho
    | _ => rfl
  rw [Open, hinput]
  exact h

/-- What is printed meanwhile. -/
def Occurrence.printed (o : Occurrence) (b : Board) : Bytes :=
  (o.befall b).output.drop b.output.length

def Occurrence.crash : Occurrence → Board → Option Crash
  | .poll, b => b.turn.2
  | .order text, b => (b.execute (.ofText text)).2
  | _, _ => none

theorem printed_of_append {o : Occurrence} {b : Board} {bytes : Bytes}
    (h : (o.befall b).output = b.output ++ bytes) : o.printed b = bytes := by
  rw [Occurrence.printed, h, List.drop_left]

theorem printed_of_silent {o : Occurrence} {b : Board} (h : (o.befall b).output = b.output) :
    o.printed b = [] :=
  printed_of_append (h.trans (List.append_nil _).symm)

theorem printed_order (text : Text) (b : Board) :
    (Occurrence.order text).printed b = (answer (.ofText text) b).1 :=
  printed_of_append (execute_answer _ b).1

theorem crash_order (text : Text) (b : Board) :
    (Occurrence.order text).crash b = (answer (.ofText text) b).2 :=
  (execute_answer _ b).2

theorem printed_poll {b : Board} (h : b.Open) : Occurrence.poll.printed b = b.bare.forward.output := by
  apply printed_of_append
  change b.turn.1.output = _
  rw [turn_of_open h]
  change b.forward.output = _
  rw [forward_bare]
  rfl

theorem crash_poll {b : Board} (h : b.Open) : Occurrence.poll.crash b = none := by
  rw [Occurrence.crash, turn_of_open h]

/-! ## One half without the other -/

/-- A view of the board that an occurrence of the half left out does not change, and that tells what every
other occurrence makes of it and what a watched one prints. -/
structure Blind {σ : Type} (out : Half) (watched : Occurrence → Bool) (view : Board → σ) : Prop where
  left {o : Occurrence} : watched o → o.half? ≠ some out
  idle {o : Occurrence} {b : Board} : o.direct → b.Open → o.half? = some out → view (o.befall b) = view b
  step {o : Occurrence} {b b' : Board} : o.direct → b.Open → b'.Open → o.half? ≠ some out →
    view b' = view b → view (o.befall b') = view (o.befall b)
  shown {o : Occurrence} {b b' : Board} : o.direct → b.Open → b'.Open → watched o → view b' = view b →
    o.printed b' = o.printed b ∧ o.crash b' = o.crash b

def ofWifi (o : Occurrence) : Bool :=
  o.half? = some .wifi

def notOfWifi (o : Occurrence) : Bool :=
  o.half? ≠ some .wifi

theorem blind_wifi : Blind .tcp ofWifi wifiSide where
  left ho := by
    rw [of_decide_eq_true ho]
    simp
  idle {o b} hdirect hopen ho := by
    cases o with
    | order text =>
      have hhalf : (Order.ofText text).half? = some .tcp := ho
      exact wifiSide_execute b _ (by simp [hhalf])
    | deliver i events => rfl
    | failSends i fails => rfl
    | _ => cases ho
  step {o b b'} hdirect hopen hopen' ho h := by
    cases o with
    | feed bytes => cases hdirect
    | poll =>
      have hturn (b : Board) (hopen : b.Open) : wifiSide b.turn.1 = wifiSide b := by
        obtain ⟨hradio, hwifi, _⟩ := byWire_forward b
        rw [turn_of_open hopen]
        exact Prod.ext hradio hwifi
      exact ((hturn b' hopen').trans h).trans (hturn b hopen).symm
    | order text => exact (execute_of_wifiSide h _ (Order.wireless_of_half? ho)).1
    | read => exact h
    | reset => cases hdirect
    | dropRadio => exact congrArg (fun side => (side.1.leave, side.2)) h
    | _ => exact absurd rfl ho
  shown {o b b'} _ _ _ ho h := by
    have hhalf : o.half? = some .wifi := of_decide_eq_true ho
    cases o with
    | order text =>
      have hwifi : (Order.ofText text).half? = some .wifi := hhalf
      have hwireless := Order.wireless_of_half? (o := .ofText text) (by simp [hwifi])
      obtain ⟨_, hanswer⟩ := execute_of_wifiSide h _ hwireless
      rw [printed_order, printed_order, crash_order, crash_order, hanswer]
      exact ⟨rfl, rfl⟩
    | dropRadio =>
      rw [printed_of_silent rfl, printed_of_silent rfl]
      exact ⟨rfl, rfl⟩
    | _ => cases hhalf

theorem blind_tcp : Blind .wifi notOfWifi tcpSide where
  left ho := of_decide_eq_true ho
  idle {o b} hdirect hopen ho := by
    cases o with
    | order text =>
      have hhalf : (Order.ofText text).half? = some .wifi := ho
      obtain ⟨hdialer, hsession⟩ := wire_execute b _
        (Order.wireless_of_half? (o := .ofText text) (by simp [hhalf]))
      exact Prod.ext hdialer hsession
    | dropRadio => rfl
    | _ => cases ho
  step {o b b'} hdirect hopen hopen' ho h := by
    have hdialer : b'.dialer = b.dialer := congrArg Prod.fst h
    have hsession : b'.session = b.session := congrArg Prod.snd h
    cases o with
    | feed bytes => cases hdirect
    | poll =>
      change tcpSide b'.turn.1 = tcpSide b.turn.1
      rw [turn_of_open hopen, turn_of_open hopen']
      exact (forward_of_tcpSide h).1
    | order text => exact (execute_of_tcpSide h _ ho).1
    | read => exact h
    | reset => cases hdirect
    | deliver i events => exact congrArg (fun side => (side.1.modify i (Socket.deliver events), side.2)) h
    | failSends i fails =>
      exact congrArg (fun side => (side.1.modify i fun socket => { socket with failsSend := fails }, side.2)) h
    | dropRadio => exact absurd rfl ho
  shown {o b b'} hdirect hopen hopen' ho h := by
    cases o with
    | feed bytes => cases hdirect
    | poll =>
      rw [printed_poll hopen, printed_poll hopen', crash_poll hopen, crash_poll hopen']
      exact ⟨(forward_of_tcpSide h).2, rfl⟩
    | order text =>
      obtain ⟨_, hanswer⟩ := execute_of_tcpSide h _ (of_decide_eq_true ho)
      rw [printed_order, printed_order, crash_order, crash_order, hanswer]
      exact ⟨rfl, rfl⟩
    | read =>
      have hprinted (b : Board) : Occurrence.read.printed b = [] := List.drop_nil
      rw [hprinted, hprinted]
      exact ⟨rfl, rfl⟩
    | reset => cases hdirect
    | deliver i events =>
      rw [printed_of_silent rfl, printed_of_silent rfl]
      exact ⟨rfl, rfl⟩
    | failSends i fails =>
      rw [printed_of_silent rfl, printed_of_silent rfl]
      exact ⟨rfl, rfl⟩
    | dropRadio => exact absurd ho (by decide)

/-! ## Runs -/

/-- What is seen of an occurrence: what it prints, the crash that cuts it short, and what is in view
after it. -/
structure Entry (σ : Type) where
  occurrence : Occurrence
  printed : Bytes
  crash : Option Crash
  after : σ
deriving DecidableEq, Repr

/-- What is seen of the watched occurrences of a run. -/
def log {σ : Type} (watched : Occurrence → Bool) (view : Board → σ) (b : Board) :
    List Occurrence → List (Entry σ)
  | [] => []
  | o :: run =>
    let rest := log watched view (o.befall b) run
    if watched o then ⟨o, o.printed b, o.crash b, view (o.befall b)⟩ :: rest else rest

def without (out : Half) (run : List Occurrence) : List Occurrence :=
  run.filter fun o => o.half? ≠ some out

theorem Blind.run {σ : Type} {out : Half} {watched : Occurrence → Bool} {view : Board → σ}
    (hblind : Blind out watched view) {b b' : Board} (hopen : b.Open) (hopen' : b'.Open)
    (hview : view b' = view b) (run : List Occurrence) (hrun : ∀ o ∈ run, o.direct) :
    log watched view b' (without out run) = log watched view b run ∧
      view (b'.befallen (without out run)) = view (b.befallen run) := by
  induction run generalizing b b' with
  | nil => exact ⟨rfl, hview⟩
  | cons o run ih =>
    have hdirect : o.direct := hrun o List.mem_cons_self
    have hrest : ∀ o' ∈ run, o'.direct := fun o' ho' => hrun o' (List.mem_cons_of_mem o ho')
    by_cases hout : o.half? = some out
    -- The run without the half stays where it is.
    · have hunwatched : ¬ watched o := fun ho => hblind.left ho hout
      have hwithout : without out (o :: run) = without out run := by
        rw [without, List.filter_cons_of_neg (by simp [hout])]
        rfl
      have hidle := hview.trans (hblind.idle hdirect hopen hout).symm
      obtain ⟨hlog, hend⟩ := ih (hopen.befall o hdirect) hopen' hidle hrest
      rw [hwithout, log, if_neg hunwatched]
      exact ⟨hlog, hend⟩
    · have hwithout : without out (o :: run) = o :: without out run := by
        rw [without, List.filter_cons_of_pos (by simp [hout])]
        rfl
      have hstep := hblind.step hdirect hopen hopen' hout hview
      obtain ⟨hlog, hend⟩ := ih (hopen.befall o hdirect) (hopen'.befall o hdirect) hstep hrest
      rw [hwithout, log, log, hlog, hstep]
      refine ⟨?_, hend⟩
      by_cases ho : watched o
      · obtain ⟨hprinted, hcrash⟩ := hblind.shown hdirect hopen hopen' ho hview
        rw [hprinted, hcrash]
      · rw [if_neg ho, if_neg ho]

/-- Each half of a run is that of the run without the other half: what is printed and left at each of its
occurrences, and the state of the half at any moment. -/
structure Separate (b : Board) (run : List Occurrence) : Prop where
  wifi : log ofWifi wifiSide b (without .tcp run) = log ofWifi wifiSide b run
  tcp : log notOfWifi tcpSide b (without .wifi run) = log notOfWifi tcpSide b run
  radio : ∀ done, done <+: run →
    wifiSide (b.befallen (without .tcp done)) = wifiSide (b.befallen done)
  sockets : ∀ done, done <+: run →
    tcpSide (b.befallen (without .wifi done)) = tcpSide (b.befallen done)

theorem halves_do_not_interfere (b : Board) (hopen : b.Open) (run : List Occurrence)
    (hrun : ∀ o ∈ run, o.direct) : Separate b run := by
  have hdone (done : List Occurrence) (h : done <+: run) : ∀ o ∈ done, o.direct :=
    fun o ho => hrun o (h.subset ho)
  constructor
  · exact (blind_wifi.run hopen hopen rfl run hrun).1
  · exact (blind_tcp.run hopen hopen rfl run hrun).1
  · intro done h
    exact (blind_wifi.run hopen hopen rfl done (hdone done h)).2
  · intro done h
    exact (blind_tcp.run hopen hopen rfl done (hdone done h)).2

/-- A session that is lost when the second call faults, while a network is joined and then lost. -/
def mingled : List Occurrence :=
  [.order "CONNECT:Home:".toList, .order "TCPCONNECT:a:1".toList, .deliver 0 [.data 0x78 []],
    .order "STATUS".toList, .poll, .order "TCPCONNECT:b:2".toList, .dropRadio, .order "IP".toList,
    .order "TCPSEND:y".toList, .poll]

theorem halves_do_not_interfere_of_mingled :
    let b := boot [{ ssid := "Home".toList, rssi := -45 }] [.answer {}, .fault]
    b.Open ∧ (∀ o ∈ mingled, o.direct) ∧
      (log ofWifi wifiSide b mingled).map Entry.crash = [none, none, none, none] ∧
      (log notOfWifi tcpSide b mingled).map Entry.crash =
        [none, none, none, some .dialFault, none, none] ∧
      (log notOfWifi tcpSide b mingled)[2]?.map Entry.printed =
        some (Utf8.encode "TCPDATA:x\n".toList) ∧
      Separate b mingled := by
  intro b
  have hopen : b.Open := by
    intro x hx
    cases hx
  have hdirect : ∀ o ∈ mingled, o.direct := by decide +kernel
  refine ⟨hopen, hdirect, by decide +kernel, by decide +kernel, by decide +kernel, ?_⟩
  exact halves_do_not_interfere b hopen mingled hdirect

end StationLink.Board
