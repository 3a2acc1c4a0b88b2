import StationLink.Proofs.Host.Resting
import StationLink.Proofs.Time.Millis

/-!
# The status is the state of the radio

Whatever has been asked of a host, and whatever radio and remote peers have done around it, the status
it returns next is what its radio is after the call. Answers that no window has read, requests that
wait at the board and data from the peers do not alter it.
-/

namespace StationLink.Host

open Serial Text Protocol Board

variable {τ : Type}

/-! ## What happens around a host -/

def atBoard (f : Board → Board) (h : Host (WiredLine τ)) : Host (WiredLine τ) :=
  { h with line := { h.line with board := f h.line.board } }

def dropRadio (b : Board) : Board :=
  { b with radio := b.radio.leave }

def peer (i : Nat) (events : List PeerEvent) (b : Board) : Board :=
  { b with dialer := b.dialer.modify i (Socket.deliver events) }

namespace Resting

variable {h : Host (WiredLine τ)}

theorem atBoard (hr : Resting h) (f : Board → Board) (hplain : (f h.line.board).Plain)
    (hinput : (f h.line.board).input = h.line.board.input)
    (houtput : (f h.line.board).output = h.line.board.output) : Resting (h.atBoard f) := by
  obtain ⟨texts, htexts, hquiet⟩ := hr.input
  obtain ⟨left, hholds, hsilent⟩ := hr.holds
  refine ⟨hr.held, hr.ready, hr.pending, hplain, ⟨texts, hinput.trans htexts, hquiet⟩, left, ⟨?_, hholds.2⟩,
    hsilent⟩
  change h.line.received ++ (f h.line.board).output = _
  rw [houtput]
  exact hholds.1

theorem dropRadio (hr : Resting h) : Resting (h.atBoard Host.dropRadio) :=
  hr.atBoard _ ⟨hr.plain.radio.leave, hr.plain.dialer⟩ rfl rfl

theorem peer (hr : Resting h) (i : Nat) (events : List PeerEvent) (hevents : InboxPlain events) :
    Resting (h.atBoard (Host.peer i events)) := by
  have hdeliver (s : Socket) (hs : s.Plain) : (s.deliver events).Plain := InboxPlain.append hs hevents
  exact hr.atBoard _ ⟨hr.plain.radio, hr.plain.dialer.modify i _ hdeliver⟩ rfl rfl

end Resting

/-! ## The start -/

variable [TimeScale τ]

theorem resting_of_start (k : Link τ) (h : Host (WiredLine τ)) (hheld : h.held = false)
    (hplain : h.line.board.Plain) (hstart : (Client.start k).outcome h = .ok ()) :
    Resting ((Client.start (σ := WiredLine τ) k).after h) := by
  have hopen : h.isOpen = false := isOpen_of_not_held hheld
  cases hfault : h.line.openings.fault? with
  | some f =>
    have hport := h.line.openPort_of_fault k.settings.serial f hfault
    rw [Call.outcome, Client.start, Call.bind_of_error (Channel.open_of_fault k h hopen f _ hport)] at hstart
    cases hstart
  | none =>
    have hport := h.line.openPort_of_none k.settings.serial hfault
    rw [Call.after, Client.start, Call.bind_of_ok (Channel.open_of_port k h hopen _ hport)]
    -- The board is restarted, and its banner is on the link.
    refine ⟨rfl, ⟨rfl, rfl⟩, rfl, hplain.reset, ⟨[], h.line.board.input_reset, by simp⟩, banner,
      ⟨?_, ?_⟩, ?_⟩
    · exact h.line.board.output_reset
    · exact fun t ht => (silent_banner t ht).1
    · exact fun t ht => (silent_banner t ht).2

/-! ## Histories -/

/-- One call or one event. Fields have no line ends, peers send no line feed, and the window of a
request stays open until a read finds no line. -/
inductive Step (k : Link τ) : Host (WiredLine τ) → Host (WiredLine τ) → Prop
  | call (h : Host (WiredLine τ)) (r : Request) (hends : r.FreeOfLineEnds)
      (hlull : r.line?.isSome → r.verb.window?.isSome → Lull (Call.reads (Client.call k r) h)) :
      Step k h ((Client.call k r).after h)
  | readLines (h : Host (WiredLine τ)) (duration : τ) :
      Step k h ((Client.readLines k duration).after h)
  | takeInbound (h : Host (WiredLine τ)) (duration : τ) :
      Step k h ((Client.takeInbound k duration).after h)
  | dropRadio (h : Host (WiredLine τ)) : Step k h (h.atBoard dropRadio)
  | peer (h : Host (WiredLine τ)) (i : Nat) (events : List PeerEvent) (hevents : InboxPlain events) :
      Step k h (h.atBoard (peer i events))

/-- The hosts that come, step by step, from one that was started on a plain board. -/
inductive Reached (k : Link τ) : Host (WiredLine τ) → Prop
  | start (h : Host (WiredLine τ)) (hheld : h.held = false) (hplain : h.line.board.Plain)
      (hstart : (Client.start k).outcome h = .ok ()) : Reached k ((Client.start k).after h)
  | step (h h' : Host (WiredLine τ)) (hr : Reached k h) (hstep : Step k h h') : Reached k h'

theorem Resting.step {k : Link τ} {h h' : Host (WiredLine τ)} (hr : Resting h) (hstep : Step k h h') :
    Resting h' := by
  cases hstep with
  | call r hends hlull => exact hr.call k r hends hlull
  | readLines duration => exact hr.readLines k duration
  | takeInbound duration => exact hr.takeInbound k duration
  | dropRadio => exact hr.dropRadio
  | peer i events hevents => exact hr.peer i events hevents

theorem Reached.resting {k : Link τ} {h : Host (WiredLine τ)} (hr : Reached k h) : Resting h := by
  induction hr with
  | start h hheld hplain hstart => exact resting_of_start k h hheld hplain hstart
  | step h h' _ hstep ih => exact ih.step hstep

/-! ## The status -/

/-- On any host that is reached, a status request whose window stays open until a read finds no line
returns what the radio is after it: nothing if it is not associated, and otherwise the network it is
associated with, name and address without the blanks at their ends. -/
theorem status_is_radio (k : Link τ) (h : Host (WiredLine τ)) (hr : Reached k h)
    (hlull : Lull (Call.reads (Client.status k) h))
    (hpatience : (Client.status k).outcome h ≠ .error .outOfPatience) :
    ∃ h', Client.status k h = .ok h'.line.board.radio.status h' := by
  have hends : Request.status.FreeOfLineEnds := Request.freeOfLineEnds_of_texts_nil rfl
  obtain ⟨texts, htexts, hexchange⟩ :=
    hr.resting.query k .status Verb.status.word Verb.fast rfl hends rfl
  have hcarries := carries_status texts fun t ht => (htexts t ht).2
  obtain ⟨heard, left, h₁, he, hrun⟩ := hexchange EndsInReport hcarries
  have hrecords := Client.records_query k .status h.recorded
  rcases hrun with hrun | hrun
  · have hreads : Lull h₁.line.reads := by
      have halike := Client.alike_status k h.recorded
      rw [Call.after, hrun] at halike
      rw [Call.reads, halike.line] at hlull
      exact hlull
    rw [hrun] at hrecords
    obtain ⟨h', hstatus, halike⟩ :=
      Client.status_of_query k h h₁.unrecorded (shown heard) _ hrecords (he.status_of_lull hreads)
    refine ⟨h', ?_⟩
    rw [hstatus, halike.line]
    rfl
  · rw [hrun] at hrecords
    have hstatus := Client.status_of_query_error k h h₁.unrecorded .outOfPatience hrecords
    rw [Call.outcome, hstatus] at hpatience
    exact absurd rfl hpatience

/-! ## A busy link -/

def steadyLink : Link Millis := ⟨.default Millis, 20⟩

def cafe : Network where
  ssid := "café ".toList
  rssi := -61
  password := some "a:b".toList
  joinPolls := 2

def station : Host (WiredLine Millis) :=
  { line := { clock := .start ⟨0⟩, board := boot [cafe] [], paced := true } }

def started : Host (WiredLine Millis) :=
  (Client.start steadyLink).after station

def joined : Host (WiredLine Millis) :=
  (Client.call steadyLink (.connect "café ".toList "a:b".toList)).after started

def dialled : Host (WiredLine Millis) :=
  (Client.call steadyLink (.tcpConnect "host".toList 80)).after joined

/-- The first peer has sent a chunk. -/
def hearing (chunk : Bytes) (h : Host (WiredLine Millis)) : Host (WiredLine Millis) :=
  h.atBoard (peer 0 (PeerEvent.chunk? chunk).toList)

def answered : Host (WiredLine Millis) :=
  dialled.atBoard (peer 0 [.data 0x53 [0x54, 0x41, 0x54, 0x55, 0x53, 0x3A]])

/-- The peer has sent the mark of a status line, and a request that no one awaits is on its way. -/
def busy : Host (WiredLine Millis) :=
  (Client.call steadyLink (.tcpSend "x".toList)).after answered

theorem reached_dialled : Reached steadyLink dialled := by
  have hcafe : cafe.Plain := ⟨by decide, by decide, by decide⟩
  have hboard : (boot [cafe] []).Plain := plain_boot [cafe] [] (by simpa using hcafe) (by simp)
  have hstarted : Reached steadyLink started := .start station rfl hboard rfl
  have hjoined : Reached steadyLink joined :=
    .step _ _ hstarted (.call _ _ (by unfold Request.FreeOfLineEnds; decide) fun _ _ => by decide +kernel)
  exact .step _ _ hjoined (.call _ _ (by unfold Request.FreeOfLineEnds; decide) fun _ _ => by decide +kernel)

theorem reached_busy : Reached steadyLink busy := by
  have hanswered : Reached steadyLink answered :=
    .step _ _ reached_dialled (.peer _ _ _ (by unfold InboxPlain; decide))
  refine .step _ _ hanswered (.call _ _ (by unfold Request.FreeOfLineEnds; decide) fun _ hwindow => ?_)
  cases hwindow

theorem status_is_radio_of_busy :
    ((Client.status steadyLink).outcome busy).toOption =
      some ⟨true, "café".toList, "192.168.1.42".toList, -61⟩ ∧
    ∃ h', Client.status steadyLink busy = .ok h'.line.board.radio.status h' := by
  have hok : ((Client.status steadyLink).outcome busy).isOk = true := by decide +kernel
  refine ⟨by decide +kernel, status_is_radio steadyLink busy reached_busy (by decide +kernel) ?_⟩
  intro hpatience
  rw [hpatience] at hok
  cases hok

end StationLink.Host
