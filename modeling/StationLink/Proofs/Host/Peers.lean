import StationLink.Proofs.Board.Abreast
import StationLink.Proofs.Host.Leftovers

/-!
# What remote peers cannot feign

Two hosts of boards that differ in their remote peers alone are led through the same calls. As long as
the peers send no line feed and no window is cut short, status, survey and address come to the same on
both: what peers send is forwarded in lines that tell nothing.
-/

namespace StationLink.Host

open Serial Text Protocol Board Channel

variable {τ : Type}

/-- Hosts whose boards are abreast, with the same texts waiting, and on whose links the same is told. -/
structure Beside (h h' : Host (WiredLine τ)) : Prop where
  boards : Abreast h.line.board h'.line.board
  links : ∃ texts left left', Links texts left h ∧ Links texts left' h' ∧ answers left = answers left'

/-- What a window has come to, without the lines that tell nothing. -/
def gist (outcome : Except Failure (List Text)) : Except Failure (List Text) :=
  outcome.map (List.filter tells)

/-! ## Windows -/

section

variable {c c' : Course τ}

theorem Course.agree (htexts : c'.texts = c.texts) (hb : Abreast c.host.line.line.board c'.host.line.line.board) :
    Abreast c.after c'.after ∧ c'.crash = c.crash ∧ answers c.answer = answers c'.answer := by
  obtain ⟨hafter, hcrash, hagree⟩ := hb.carried c.texts c.links.sendable
  have hprinted' := c'.printed
  rw [htexts] at hprinted'
  rw [c.printed, hprinted'] at hagree
  rw [Course.after, Course.after, Course.crash, Course.crash, htexts]
  exact ⟨hafter, hcrash, hagree.answers_eq c.free c'.free⟩

theorem Through.answers {h : Host (Recorded (WiredLine τ))} {heard left : List Text}
    (ht : Through c h heard left) (htame : c.after.dialer.Tame) :
    answers heard = answers c.start ++ answers c.answer ∧ answers left = [] := by
  obtain ⟨more, rfl, hunasked⟩ := ht.lines
  obtain ⟨hmore, hleft⟩ := List.forall_mem_append.mp (hunasked.data htame)
  rw [answers_append, answers_append, answers_of_isData more hmore, List.append_nil]
  exact ⟨rfl, answers_of_isData left hleft⟩

/-- Whole windows on hosts beside each other: they crash alike, or hear and leave what tells the same. -/
theorem Whole.beside {call : Call (Recorded (WiredLine τ)) (List Text)} {h h' : Host (WiredLine τ)}
    (hw : Whole c (call h.recorded)) (hw' : Whole c' (call h'.recorded)) (htexts : c'.texts = c.texts)
    (hstart : answers c.start = answers c'.start)
    (hb : Abreast c.host.line.line.board c'.host.line.line.board) :
    Beside (call.after h.recorded).unrecorded (call.after h'.recorded).unrecorded ∧
      gist (call.outcome h.recorded) = gist (call.outcome h'.recorded) := by
  obtain ⟨hafter, hcrash, hanswer⟩ := Course.agree htexts hb
  rw [Call.after, Call.after, Call.outcome, Call.outcome]
  rcases hw with ⟨heard, left, h₁, hrun, hh, ht⟩ | ⟨crash, h₁, hc, hrun, hs⟩
  · rcases hw' with ⟨heard', left', h₁', hrun', hh', ht'⟩ | ⟨crash', _, hc', _⟩
    · obtain ⟨hheard, hleft⟩ := ht.answers hafter.tame
      obtain ⟨hheard', hleft'⟩ := ht'.answers hafter.tame'
      rw [hrun, hrun']
      refine ⟨⟨hafter.of_idled ht.idled ht'.idled, [], left, left', hh.links_of_through ht,
        hh'.links_of_through ht', hleft.trans hleft'.symm⟩, congrArg Except.ok ?_⟩
      change Protocol.answers heard = Protocol.answers heard'
      rw [hheard, hheard', hstart, hanswer]
    · cases (hcrash.trans ht.whole).symm.trans hc'
  · rcases hw' with ⟨_, _, _, _, _, ht'⟩ | ⟨crash', h₁', hc', hrun', hs'⟩
    · cases (hcrash.trans hc).symm.trans ht'.whole
    · obtain rfl : crash' = crash := Option.some.inj ((hc'.symm.trans hcrash).trans hc)
      rw [hrun, hrun']
      exact ⟨⟨hafter.of_idled hs.idled hs'.idled, [], c.answer, c'.answer, hs.links, hs'.links, hanswer⟩, rfl⟩

end

/-! ## Calls -/

/-- The window is not given up and stays open until a read brings no line. -/
def UncutReading [TimeScale τ] (k : Link τ) (duration : τ) (h : Host (WiredLine τ)) : Prop :=
  Spent (Call.reads (Client.readLines k duration) h) ∧
    givenUp ((Client.readLines k duration).outcome h) = false

namespace Beside

variable {h h' : Host (WiredLine τ)}

theorem of_alike {h₁ h₁' : Host (WiredLine τ)} (hb : Beside h h') (ha : Alike h h₁) (ha' : Alike h' h₁') :
    Beside h₁ h₁' := by
  obtain ⟨hboards, texts, left, left', hl, hl', hsame⟩ := hb
  rw [← ha.line, ← ha'.line] at hboards
  exact ⟨hboards, texts, left, left', hl.of_alike ha, hl'.of_alike ha', hsame⟩

theorem atBoard (hb : Beside h h') (f f' : Board → Board)
    (hboards : Abreast (f h.line.board) (f' h'.line.board))
    (hinput : ∀ b, (f b).input = b.input ∧ (f b).output = b.output)
    (hinput' : ∀ b, (f' b).input = b.input ∧ (f' b).output = b.output) :
    Beside (h.atBoard f) (h'.atBoard f') := by
  obtain ⟨_, texts, left, left', hl, hl', hsame⟩ := hb
  exact ⟨hboards, texts, left, left', hl.atBoard f (hinput _).1 (hinput _).2,
    hl'.atBoard f' (hinput' _).1 (hinput' _).2, hsame⟩

variable [TimeScale τ]

theorem query (hb : Beside h h') (k : Link τ) (r : Request) (hends : r.FreeOfLineEnds) (hu : Uncut k r h)
    (hu' : Uncut k r h') :
    Beside ((Client.query k r).after h) ((Client.query k r).after h') ∧
      gist ((Client.query k r).outcome h) = gist ((Client.query k r).outcome h') := by
  obtain ⟨hboards, texts, left, left', hl, hl', hsame⟩ := hb
  rw [(Client.records_query k r).after h, (Client.records_query k r).after h',
    (Client.records_query k r).outcome h, (Client.records_query k r).outcome h']
  cases hline : r.line? with
  | none =>
    have hquery (h : Host (Recorded (WiredLine τ))) : Client.query k r h = .error .invalidNumber h := by
      rw [Client.query, hline]
      rfl
    rw [Call.after, Call.after, Call.outcome, Call.outcome, hquery, hquery]
    exact ⟨⟨hboards, texts, left, left', hl, hl', hsame⟩, rfl⟩
  | some line =>
    cases hwindow : r.verb.window? with
    | none =>
      obtain ⟨h₁, hs, hrun⟩ := hl.query_forgotten k r line hline hwindow
      obtain ⟨h₁', hs', hrun'⟩ := hl'.query_forgotten k r line hline hwindow
      have hsendable := r.sendable_line line hline hends
      rw [Call.after, Call.after, Call.outcome, Call.outcome, hrun, hrun']
      refine ⟨⟨?_, texts ++ [line], left, left', hl.sent hs hsendable, hl'.sent hs' hsendable, hsame⟩, rfl⟩
      change Abreast h₁.line.line.board h₁'.line.line.board
      rw [hs.board, hs'.board]
      exact hboards.feed _ _
    | some millis =>
      obtain ⟨c, hs, htexts, hstart, hw⟩ := hl.query_window k r line millis hline hends hwindow
      obtain ⟨c', hs', htexts', hstart', hw'⟩ := hl'.query_window k r line millis hline hends hwindow
      apply (hu.whole hline hwindow hw).beside (hu'.whole hline hwindow hw') (htexts'.trans htexts.symm)
      · rw [hstart, hstart', hsame]
      · rw [hs.board, hs'.board]
        exact hboards.feed _ _

theorem call (hb : Beside h h') (k : Link τ) (r : Request) (hends : r.FreeOfLineEnds) (hu : Uncut k r h)
    (hu' : Uncut k r h') : Beside ((Client.call k r).after h) ((Client.call k r).after h') :=
  (hb.query k r hends hu hu').1.of_alike (Client.alike_call k r h) (Client.alike_call k r h')

theorem readLines (hb : Beside h h') (k : Link τ) (duration : τ) (hu : UncutReading k duration h)
    (hu' : UncutReading k duration h') :
    Beside ((Client.readLines k duration).after h) ((Client.readLines k duration).after h') := by
  obtain ⟨hboards, texts, left, left', hl, hl', hsame⟩ := hb
  obtain ⟨c, hhost, htexts, hstart, hw⟩ := hl.readLines_window k duration
  obtain ⟨c', hhost', htexts', hstart', hw'⟩ := hl'.readLines_window k duration
  rw [(Client.records_readLines k duration).after h, (Client.records_readLines k duration).after h']
  have hwhole := hw.whole_of_uncut (Client.records_readLines k duration) hu.1 hu.2
  have hwhole' := hw'.whole_of_uncut (Client.records_readLines k duration) hu'.1 hu'.2
  refine (hwhole.beside hwhole' (htexts'.trans htexts.symm) ?_ ?_).1
  · rw [hstart, hstart', hsame]
  · rw [hhost, hhost']
    exact hboards

theorem takeInbound (hb : Beside h h') (k : Link τ) (duration : τ)
    (hu : TimeScale.before TimeScale.zero duration = true →
      UncutReading k duration h ∧ UncutReading k duration h') :
    Beside ((Client.takeInbound k duration).after h) ((Client.takeInbound k duration).after h') := by
  obtain ⟨_, _, _, _, hl, hl', _⟩ := id hb
  have halike := Client.alike_takeInbound k duration h
  have halike' := Client.alike_takeInbound k duration h'
  rw [hl.isOpen, Bool.and_true] at halike
  rw [hl'.isOpen, Bool.and_true] at halike'
  by_cases hbefore : TimeScale.before TimeScale.zero duration = true
  · obtain ⟨hwindow, hwindow'⟩ := hu hbefore
    rw [if_pos hbefore] at halike halike'
    exact (hb.readLines k duration hwindow hwindow').of_alike halike halike'
  · rw [if_neg hbefore] at halike halike'
    exact hb.of_alike halike halike'

omit [TimeScale τ] in
theorem surround (hb : Beside h h') (f : Radio → Radio) :
    Beside (h.atBoard (surroundings f id)) (h'.atBoard (surroundings f id)) := by
  have hboards := hb.boards
  refine hb.atBoard _ _ ⟨?_, hboards.wifi, hboards.faults, hboards.tame, hboards.tame'⟩
    (fun _ => ⟨rfl, rfl⟩) fun _ => ⟨rfl, rfl⟩
  exact congrArg f hboards.radio

omit [TimeScale τ] in
theorem deliver (hb : Beside h h') (i i' : Nat) {events events' : List PeerEvent}
    (hplain : InboxPlain events) (hplain' : InboxPlain events') :
    Beside (h.atBoard (peer i events)) (h'.atBoard (peer i' events')) := by
  have hboards := hb.boards
  exact hb.atBoard _ _ ⟨hboards.radio, hboards.wifi, hboards.faults, hboards.tame.deliver i hplain,
    hboards.tame'.deliver i' hplain'⟩ (fun _ => ⟨rfl, rfl⟩) fun _ => ⟨rfl, rfl⟩

end Beside

/-! ## Two runs -/

variable [TimeScale τ]

/-- Two hosts that differ in their remote peers alone, after the same calls. Fields have no line ends, no
peer sends a line feed, and no window of either is cut short. -/
inductive Twins (k : Link τ) : Host (WiredLine τ) → Host (WiredLine τ) → Prop
  | parted (h : Host (WiredLine τ)) (texts left : List Text) (hl : Links texts left h) (d d' : Dialer)
      (ht : d.Tame) (ht' : d'.Tame) (hfaults : d'.faults = d.faults) :
      Twins k (h.atBoard (surroundings id fun _ => d)) (h.atBoard (surroundings id fun _ => d'))
  | call {h h' : Host (WiredLine τ)} (ht : Twins k h h') (r : Request) (hends : r.FreeOfLineEnds)
      (hu : Uncut k r h) (hu' : Uncut k r h') : Twins k ((Client.call k r).after h) ((Client.call k r).after h')
  | readLines {h h' : Host (WiredLine τ)} (ht : Twins k h h') (duration : τ)
      (hu : UncutReading k duration h) (hu' : UncutReading k duration h') :
      Twins k ((Client.readLines k duration).after h) ((Client.readLines k duration).after h')
  | takeInbound {h h' : Host (WiredLine τ)} (ht : Twins k h h') (duration : τ)
      (hu : TimeScale.before TimeScale.zero duration = true →
        UncutReading k duration h ∧ UncutReading k duration h') :
      Twins k ((Client.takeInbound k duration).after h) ((Client.takeInbound k duration).after h')
  | surround {h h' : Host (WiredLine τ)} (ht : Twins k h h') (f : Radio → Radio) :
      Twins k (h.atBoard (surroundings f id)) (h'.atBoard (surroundings f id))
  | deliver {h h' : Host (WiredLine τ)} (ht : Twins k h h') (i i' : Nat) (events events' : List PeerEvent)
      (hplain : InboxPlain events) (hplain' : InboxPlain events') :
      Twins k (h.atBoard (peer i events)) (h'.atBoard (peer i' events'))

theorem Twins.beside {k : Link τ} {h h' : Host (WiredLine τ)} (ht : Twins k h h') : Beside h h' := by
  induction ht with
  | parted h texts left hl d d' ht ht' hfaults =>
    exact ⟨⟨rfl, rfl, hfaults, ht, ht'⟩, texts, left, left, hl.atBoard _ rfl rfl, hl.atBoard _ rfl rfl, rfl⟩
  | call _ r hends hu hu' ih => exact ih.call k r hends hu hu'
  | readLines _ duration hu hu' ih => exact ih.readLines k duration hu hu'
  | takeInbound _ duration hu ih => exact ih.takeInbound k duration hu
  | surround _ f ih => exact ih.surround f
  | deliver _ i i' events events' hplain hplain' ih => exact ih.deliver i i' hplain hplain'

/-! ## Status, survey and address -/

theorem bind_gist {α : Type} {g : List Text → Except Failure α} (hg : ∀ lines, g (lines.filter tells) = g lines)
    (outcome : Except Failure (List Text)) : (gist outcome).bind g = outcome.bind g := by
  cases outcome with
  | error f => rfl
  | ok lines => exact hg lines

/-- A call whose answer is read from the lines that tell something. -/
theorem Beside.same_answer {α : Type} {k : Link τ} {r : Request} {h h' : Host (WiredLine τ)}
    (hb : Beside h h') (c : Call (WiredLine τ) α) (g : List Text → Except Failure α)
    (hc : ∀ h, c.outcome h = ((Client.query k r).outcome h).bind g)
    (hg : ∀ lines, g (lines.filter tells) = g lines) (hends : r.FreeOfLineEnds) (hu : Uncut k r h)
    (hu' : Uncut k r h') : c.outcome h = c.outcome h' := by
  have hgist := (hb.query k r hends hu hu').2
  rw [hc, hc, ← bind_gist hg, hgist, bind_gist hg]

/-- Whatever the remote peers of two hosts send, short of line feeds, and whenever: status, survey and
address come to the same on both if no window is cut short. -/
theorem peers_forge_no_answer (k : Link τ) (h h' : Host (WiredLine τ)) (ht : Twins k h h') :
    (Uncut k .status h → Uncut k .status h' →
      (Client.status k).outcome h = (Client.status k).outcome h') ∧
    (Uncut k .scan h → Uncut k .scan h' → (Client.survey k).outcome h = (Client.survey k).outcome h') ∧
    (Uncut k .address h → Uncut k .address h' →
      (Client.address k).outcome h = (Client.address k).outcome h') := by
  have hb := ht.beside
  refine ⟨?_, ?_, ?_⟩
  · apply hb.same_answer _ _ (outcome_status k) ?_ (Request.freeOfLineEnds_of_texts_nil rfl)
    intro lines
    rw [ofLines?_tells]
  · apply hb.same_answer _ _ (outcome_survey k) ?_ (Request.freeOfLineEnds_of_texts_nil rfl)
    intro lines
    rw [survey?_tells]
  · apply hb.same_answer _ _ (outcome_address k) ?_ (Request.freeOfLineEnds_of_texts_nil rfl)
    intro lines
    rw [address?_tells]

/-! ## A peer that tries -/

/-- The peer sends what answers look like, in three turns. -/
def posing : Dialer :=
  dialled.line.board.dialer.modify 0 (Socket.deliver
    [.data 0x49 (Utf8.encode "P:6.6.6.6".toList), .block,
      .data 0x53 (Utf8.encode "TATUS:DISCONNECTED".toList), .block,
      .data 0x4E (Utf8.encode "ETWORK:evil:-1:OPEN".toList), .eof])

theorem links_dialled : Links [] [] dialled := by
  have hresting := reached_dialled.resting
  refine ⟨hresting.held, hresting.ready, hresting.pending, ?_, by simp, ?_, by simp⟩
  · decide +kernel
  · decide +kernel

theorem peers_forge_no_answer_of_posing :
    ((Client.status steadyLink).outcome (dialled.atBoard (surroundings id fun _ => posing))).toOption =
        some ⟨true, "café".toList, "192.168.1.42".toList, -61⟩ ∧
      (Client.status steadyLink).outcome (dialled.atBoard (surroundings id fun _ => posing)) =
        (Client.status steadyLink).outcome
          (dialled.atBoard (surroundings id fun _ => dialled.line.board.dialer)) := by
  have hplain : dialled.line.board.dialer.Tame := by
    have hdialer := reached_dialled.resting.plain.dialer
    exact ⟨fun plan hp => (hdialer.plans plan hp).tame, hdialer.sockets⟩
  have hposing : posing.Tame := by
    rw [posing]
    exact hplain.deliver 0 (by unfold InboxPlain; decide)
  have hfaults : dialled.line.board.dialer.faults = posing.faults := by
    rw [posing, Dialer.faults_modify]
  have htwins : Twins steadyLink (dialled.atBoard (surroundings id fun _ => posing))
      (dialled.atBoard (surroundings id fun _ => dialled.line.board.dialer)) :=
    .parted dialled [] [] links_dialled posing dialled.line.board.dialer hposing hplain hfaults
  refine ⟨by decide +kernel, (peers_forge_no_answer steadyLink _ _ htwins).1 ?_ ?_⟩
  · exact fun _ _ => by decide +kernel
  · exact fun _ _ => by decide +kernel

def slow : Host (WiredLine Millis) :=
  { station with line := { station.line with clock := .start ⟨250⟩ } }

def slowlyDialled : Host (WiredLine Millis) :=
  (Client.call steadyLink (.tcpConnect "host".toList 80)).after
    ((Client.call steadyLink (.connect "café ".toList "a:b".toList)).after
      ((Client.start steadyLink).after slow))

/-- With a line feed a peer has a line of its own. Without one, it may still crowd out an answer if the
clock runs on at each look and so cuts the window short. -/
theorem peer_forges_answer :
    (dialled.line.board.session.isSome = true ∧
      ((Client.status steadyLink).outcome (hearing (Utf8.encode "x\nSSID:evil".toList) dialled)).toOption =
        some ⟨true, "evil".toList, "192.168.1.42".toList, -61⟩ ∧
      ((Client.status steadyLink).outcome (hearing (Utf8.encode "x".toList) dialled)).toOption =
        some ⟨true, "café".toList, "192.168.1.42".toList, -61⟩) ∧
    (slowlyDialled.line.board.session.isSome = true ∧
      ((Client.status steadyLink).outcome
        ((Client.call steadyLink .status).after
          (hearing (Utf8.encode "x".toList) slowlyDialled))).toOption = some ⟨true, [], [], -61⟩ ∧
      ((Client.status steadyLink).outcome
        ((Client.call steadyLink .status).after slowlyDialled)).toOption =
        some ⟨true, "café".toList, [], -61⟩) := by
  decide +kernel

end StationLink.Host
