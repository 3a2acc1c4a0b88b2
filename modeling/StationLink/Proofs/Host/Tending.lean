import StationLink.Proofs.Host.Channel
import StationLink.Proofs.Serial.Charted
import StationLink.Proofs.Serial.Lawful

/-!
# What a channel keeps of its ports

The port that is held is the newest one and has not been closed, and what is pending came from it. Every
port is closed at most once, and as long as no closing fails no other port is open. Each call of the
channel keeps this, however it ends.
-/

namespace StationLink.Host

open Serial Text Channel

variable {σ τ : Type} [SerialLine σ τ]

/-- The text of a line that the port has handed over. -/
def Speaks (p : Career) (text : Text) : Prop :=
  ∃ piece, piece <:+: p.read ∧ piece.getLast? = some lineFeed ∧ text = trim (Utf8.decode piece)

def Spoken (h : Host (Charted σ)) (text : Text) : Prop :=
  ∃ p, h.line.ports.head? = some p ∧ Speaks p text

theorem Speaks.hand {p : Career} {text : Text} (hs : Speaks p text) (bytes : Bytes) :
    Speaks (p.hand bytes) text := by
  obtain ⟨piece, hinfix, hlast, htext⟩ := hs
  exact ⟨piece, hinfix.trans (List.prefix_append _ _).isInfix, hlast, htext⟩

theorem isOpen_of_fades {openAt : σ → Nat → Bool} (hl : LawfulPorts openAt) {h h' : Host (Charted σ)}
    (ho : h'.isOpen = true) (hheld : h'.held = h.held) (hfades : Fades openAt h.line.line h'.line.line) :
    h.isOpen = true := by
  obtain ⟨hheld', hline⟩ := Bool.and_eq_true_iff.mp ho
  have hzero := hfades 0 ((hl.isOpen h'.line.line).symm.trans hline)
  exact isOpen_of_held (hheld.symm.trans hheld') ((hl.isOpen h.line.line).trans hzero)

structure Tended (openAt : σ → Nat → Bool) (h : Host (Charted σ)) : Prop where
  held : h.held = true →
    ∃ p, h.line.ports.head? = some p ∧ p.closings = [] ∧ h.pending <:+ p.read
  idle : h.held = false → h.pending = []
  once : ∀ p ∈ h.line.ports, p.closings.length ≤ 1
  alone : (∀ p ∈ h.line.ports, ¬ p.Balked) → ∀ i, openAt h.line.line i = true → i = 0 ∧ h.held = true

/-- The newest port has handed over some bytes, and ports may have closed by themselves. -/
structure Advances (openAt : σ → Nat → Bool) (bytes : Bytes) (h h' : Host (Charted σ)) : Prop where
  held : h'.held = h.held
  attempts : h'.line.attempts = h.line.attempts
  ports : h'.line.ports = modifyNewest (.hand bytes) h.line.ports
  fades : Fades openAt h.line.line h'.line.line
  pending : h'.pending <:+ h.pending ++ bytes
  idle : h.held = false → bytes = []

namespace Advances

variable {openAt : σ → Nat → Bool} {h h' h'' : Host (Charted σ)} {bytes more : Bytes}

theorem of_line (h : Host (Charted σ)) (line : σ) (journal : List Event)
    (hfades : Fades openAt h.line.line line) :
    Advances openAt [] h { h with line := { h.line with line }, journal } := by
  refine ⟨rfl, rfl, (modifyNewest_hand_nil _).symm, hfades, ⟨[], ?_⟩, fun _ => rfl⟩
  exact (List.append_nil h.pending).symm

theorem refl (h : Host (Charted σ)) : Advances openAt [] h h :=
  of_line h h.line.line h.journal (.refl _)

theorem trans (ha : Advances openAt bytes h h') (ha' : Advances openAt more h' h'') :
    Advances openAt (bytes ++ more) h h'' := by
  refine ⟨ha'.held.trans ha.held, ha'.attempts.trans ha.attempts, ?_, ha.fades.trans ha'.fades, ?_, ?_⟩
  · rw [ha'.ports, ha.ports, modifyNewest_hand_hand]
  · obtain ⟨front, hfront⟩ := ha.pending
    refine ha'.pending.trans ⟨front, ?_⟩
    rw [← List.append_assoc, hfront, List.append_assoc]
  · intro hheld
    rw [ha.idle hheld, ha'.idle (ha.held.trans hheld), List.append_nil]

theorem isOpen (hl : LawfulPorts openAt) (ha : Advances openAt bytes h h') (ho : h'.isOpen = true) :
    h.isOpen = true :=
  isOpen_of_fades hl ho ha.held ha.fades

theorem tended (ha : Advances openAt bytes h h') (ht : Tended openAt h) : Tended openAt h' := by
  refine ⟨?_, ?_, ?_, ?_⟩
  · intro hheld
    obtain ⟨p, hp, hclosings, front, hfront⟩ := ht.held (ha.held.symm.trans hheld)
    refine ⟨p.hand bytes, ?_, hclosings, ha.pending.trans ⟨front, ?_⟩⟩
    · rw [ha.ports, head?_modifyNewest, hp]
      rfl
    · rw [← List.append_assoc, hfront]
      rfl
  · intro hheld
    have hidle := ha.held.symm.trans hheld
    have hpending := ha.pending
    rw [ht.idle hidle, ha.idle hidle] at hpending
    exact List.suffix_nil.mp hpending
  · rw [ha.ports]
    apply forall_mem_modifyNewest
    · exact fun p hp => ht.once p (List.mem_of_mem_head? hp)
    · exact fun p hp => ht.once p (List.mem_of_mem_tail hp)
  · intro hnone i hi
    rw [ha.ports] at hnone
    rw [ha.held]
    exact ht.alone (forall_mem_of_modifyNewest hnone fun _ hp => hp) i (ha.fades i hi)

theorem spoken (ha : Advances openAt bytes h h') {text : Text} (hs : Spoken h text) : Spoken h' text := by
  obtain ⟨p, hp, hspeaks⟩ := hs
  refine ⟨p.hand bytes, ?_, hspeaks.hand bytes⟩
  rw [ha.ports, head?_modifyNewest, hp]
  rfl

end Advances

/-! ## Opening and closing -/

namespace Tended

variable {openAt : σ → Nat → Bool} {h : Host (Charted σ)} (hl : LawfulPorts openAt)

include hl

variable [TimeScale τ]

theorem «open» (ht : Tended openAt h) (k : Link τ) :
    Tended openAt ((Channel.open (σ := Charted σ) k).after h) := by
  cases ho : h.isOpen with
  | true =>
    rw [Call.after, open_of_open k h ho]
    exact ht
  | false =>
    rcases hopen : SerialLine.openPort k.settings.serial h.line.line with ⟨f | _, line⟩
    · have hfades := hl.refused k.settings.serial h.line.line f (by rw [hopen])
      rw [hopen] at hfades
      rw [Call.after, open_of_fault k h ho f _ (Charted.openPort_of_error hopen)]
      have hsame := (Advances.of_line h line (.openFailed f :: h.journal) hfades).tended ht
      exact ⟨hsame.held, hsame.idle, hsame.once, hsame.alone⟩
    · have hopened := hl.opened k.settings.serial h.line.line (by rw [hopen])
      rw [hopen] at hopened
      rw [Call.after, open_of_port k h ho _ (Charted.openPort_of_ok hopen)]
      refine ⟨fun _ => ⟨{}, rfl, rfl, List.suffix_rfl⟩, fun _ => rfl, ?_, ?_⟩
      · exact List.forall_mem_cons.mpr ⟨Nat.zero_le 1, ht.once⟩
      · intro hnone i hi
        have hi' := hl.setClock _ line i hi
        cases i with
        | zero => exact ⟨rfl, rfl⟩
        | succ i =>
          -- An older port that is open would have to be the one that was held, which was not open.
          obtain ⟨rfl, hheld⟩ := ht.alone (List.forall_mem_cons.mp hnone).2 i (hopened i hi')
          have hline := (hl.isOpen h.line.line).trans (hopened 0 hi')
          cases ho.symm.trans (isOpen_of_held hheld hline)

omit [TimeScale τ] in
theorem close (ht : Tended openAt h) (k : Link τ) :
    Tended openAt ((Channel.close (σ := Charted σ) k).after h) := by
  cases hheld : h.held with
  | false =>
    rw [Call.after, close_of_not_held k h hheld]
    exact ht
  | true =>
    cases hline : SerialLine.isOpen h.line with
    | false =>
      rw [Call.after, close_of_gone k h hheld hline]
      refine ⟨(fun hh => by cases hh), fun _ => rfl, ht.once, ?_⟩
      intro hnone i hi
      obtain ⟨rfl, _⟩ := ht.alone hnone i hi
      have hzero := (hl.isOpen h.line.line).trans hi
      cases hline.symm.trans hzero
    | true =>
      obtain ⟨journal, hclose⟩ := after_close k h (isOpen_of_held hheld hline)
      obtain ⟨p, hp, hclosings, _⟩ := ht.held hheld
      rw [hclose]
      refine ⟨(fun hh => by cases hh), fun _ => rfl, ?_, ?_⟩
      · apply forall_mem_modifyNewest
        · intro q hq
          obtain rfl := Option.some.inj (hp.symm.trans hq)
          rw [Career.closed, hclosings]
          exact Nat.le_refl 1
        · exact fun q hq => ht.once q (List.mem_of_mem_tail hq)
      · intro hnone i hi
        have hbefore := forall_mem_of_modifyNewest hnone fun q hq hbalked => hq (hbalked.closed _)
        obtain ⟨rfl, _⟩ := ht.alone hbefore i (hl.close h.line.line i hi)
        rcases hclosed : (SerialLine.close h.line.line).1 with f | _
        · refine absurd (p.balked_closed f) (hnone _ (List.mem_of_mem_head? ?_))
          change (modifyNewest (.closed (SerialLine.close h.line.line).1) h.line.ports).head? = _
          rw [head?_modifyNewest, hp, hclosed]
          rfl
        · have hzero := hl.closed h.line.line hclosed
          cases hzero.symm.trans hi

end Tended

/-! ## Writing and reading -/

/-- What has come of a channel since some host, and the lines it has read. -/
structure Follows (openAt : σ → Nat → Bool) (start : Host (Charted σ)) (lines : List Text)
    (h : Host (Charted σ)) : Prop where
  tended : Tended openAt h
  advances : ∃ bytes, Advances openAt bytes start h
  spoken : ∀ t ∈ lines, start.isOpen = true ∧ Spoken h t

namespace Follows

variable {openAt : σ → Nat → Bool} {start h h' : Host (Charted σ)} {lines fewer : List Text} {bytes : Bytes}

theorem refl (ht : Tended openAt h) : Follows openAt h [] h :=
  ⟨ht, ⟨[], .refl h⟩, by simp⟩

theorem mono (hf : Follows openAt start lines h) (hsub : fewer ⊆ lines) : Follows openAt start fewer h :=
  ⟨hf.tended, hf.advances, fun t ht => hf.spoken t (hsub ht)⟩

theorem advance (hf : Follows openAt start lines h) (ha : Advances openAt bytes h h') :
    Follows openAt start lines h' := by
  obtain ⟨before, hbefore⟩ := hf.advances
  refine ⟨ha.tended hf.tended, ⟨_, hbefore.trans ha⟩, ?_⟩
  intro t ht
  obtain ⟨ho, hs⟩ := hf.spoken t ht
  exact ⟨ho, ha.spoken hs⟩

theorem hear (hf : Follows openAt start lines h) {text : Text} (ho : start.isOpen = true)
    (hs : Spoken h text) : Follows openAt start (lines ++ [text]) h :=
  ⟨hf.tended, hf.advances,
    List.forall_mem_append.mpr ⟨hf.spoken, List.forall_mem_singleton.mpr ⟨ho, hs⟩⟩⟩

variable (hl : LawfulPorts openAt)

include hl

theorem isOpen (hf : Follows openAt start lines h) (ho : h.isOpen = true) : start.isOpen = true := by
  obtain ⟨bytes, ha⟩ := hf.advances
  exact ha.isOpen hl ho

variable [TimeScale τ]

theorem writeLine (hf : Follows openAt start lines h) (k : Link τ) (text : Text) :
    Follows openAt start lines ((Channel.writeLine (σ := Charted σ) k text).after h) := by
  -- All that sending does to the line is to let its ports close.
  have hsent := after_writeLine (σ := Charted σ)
    (P := fun c => ∃ line, Fades openAt h.line.line line ∧ c = { h.line with line })
    ?_ ?_ ?_ k text h ⟨h.line.line, .refl _, rfl⟩
  · obtain ⟨_, journal, hafter, line, hfades, rfl⟩ := hsent
    rw [hafter]
    exact hf.advance (.of_line h line journal hfades)
  · rintro clock _ ⟨line, hfades, rfl⟩
    exact ⟨_, hfades.trans (hl.setClock clock line), rfl⟩
  · rintro bytes _ ⟨line, hfades, rfl⟩
    exact ⟨_, hfades.trans (hl.write bytes line), rfl⟩
  · rintro _ ⟨line, hfades, rfl⟩
    exact ⟨_, hfades.trans (hl.flush line), rfl⟩

theorem readLine (hf : Follows openAt start lines h) :
    Call.Ends (fun line h' => Follows openAt start (lines ++ line.toList) h')
      (fun _ h' => Follows openAt start lines h') (Channel.readLine (σ := Charted σ) h) := by
  have hnone {h' : Host (Charted σ)} (hf : Follows openAt start lines h') :
      Follows openAt start (lines ++ (none : Option Text).toList) h' := by
    rw [Option.toList_none, List.append_nil]
    exact hf
  cases ho : h.isOpen with
  | false =>
    rw [readLine_of_closed h ho]
    exact hnone hf
  | true =>
    have hheld : h.held = true := (Bool.and_eq_true_iff.mp ho).1
    have hfades := hl.readLine h.line.line
    rcases hread : SerialLine.readLine h.line.line with ⟨f | bytes, line⟩
    · rw [hread] at hfades
      rw [readLine_of_fault h ho f _ (Charted.readLine_of_error hread)]
      cases hio : f.isIo with
      | false => exact hf.advance (.of_line h line h.journal hfades)
      | true =>
        have hpaused := hfades.trans
          (hl.setClock ((SerialLine.clock line).sleep (TimeScale.ofMillis backOff)) line)
        exact hnone (hf.advance (.of_line h _ (.readFailed f :: h.journal) hpaused))
    · rw [hread] at hfades
      rw [readLine_of_bytes h ho bytes _ (Charted.readLine_of_ok hread), takeLine_apply]
      have hadvances (pending : Bytes) (hpending : pending <:+ h.pending ++ bytes) : Advances openAt bytes h
          { h with line := { h.line with line }.modify (.hand bytes), pending } :=
        ⟨rfl, rfl, rfl, hfades, hpending, fun hh => by cases hheld.symm.trans hh⟩
      split
      · rename_i hlast
        refine (hf.advance (hadvances [] List.nil_suffix)).hear (hf.isOpen hl ho) ?_
        obtain ⟨p, hp, _, front, hfront⟩ := hf.tended.held hheld
        refine ⟨p.hand bytes, ?_, h.pending ++ bytes, ⟨front, [], ?_⟩, hlast, rfl⟩
        · change (modifyNewest _ _).head? = _
          rw [head?_modifyNewest, hp]
          rfl
        · rw [List.append_nil, ← List.append_assoc, hfront]
          rfl
      · exact hnone (hf.advance (hadvances _ List.suffix_rfl))

theorem window (ht : Tended openAt h) (k : Link τ) (duration : τ) :
    Call.Ends (fun lines h' => Follows openAt h lines h') (fun _ h' => Follows openAt h [] h')
      (Channel.readLines (σ := Charted σ) k duration h) := by
  cases ho : h.isOpen with
  | false =>
    rw [readLines_of_closed k duration h ho]
    exact .refl ht
  | true =>
    rw [readLines_of_open k duration h ho]
    have hnow (lines : List Text) (h' : Host (Charted σ)) (hf : Follows openAt h lines h') :
        Follows openAt h lines (afterNow h') :=
      hf.advance (.of_line h' _ h'.journal (hl.setClock _ h'.line.line))
    apply collect_ends hnow
    · intro lines line h' hf
      exact hf.advance (.of_line h' h'.line.line (.received line :: h'.journal) (.refl _))
    · intro lines h' hf
      apply (hf.readLine hl).imp
      · intro line h'' hf'
        exact hf'.mono (List.append_subset.mpr ⟨List.subset_append_left lines _,
          fun t ht => List.mem_append_right lines (List.mem_filter.mp ht).1⟩)
      · exact fun _ h'' hf' => hf'.mono (List.nil_subset lines)
    · exact fun lines h' hf => hf.mono (List.nil_subset lines)
    · exact hnow [] h (.refl ht)

end Follows

end StationLink.Host
