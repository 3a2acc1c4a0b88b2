import Mathlib.Algebra.Order.Floor.Semiring
import Mathlib.Data.Rat.Floor
import Mathlib.Tactic.Linarith
import StationLink.Proofs.Host.Channel
import StationLink.Proofs.Time.Millis

/-!
# Whether a window comes to an end

A window has no count of its reads: only the clock ends it, and only sleeping moves the clock. A read of an
open port takes from what the port can still bring, or has slept; a read of a dead port does neither. So a
window ends unless its port dies in it, and does not end if it does.
-/

namespace StationLink

variable {τ : Type}

/-- Times are numbers of milliseconds, added and compared without rounding. -/
structure TimeScale.Exact [TimeScale τ] (μ : τ → ℚ) : Prop where
  add : ∀ s t, μ (TimeScale.add s t) = μ s + μ t
  before : ∀ s t, TimeScale.before s t = true ↔ μ s < μ t
  ofMillis : ∀ n, μ (TimeScale.ofMillis n) = n

theorem Millis.exact : TimeScale.Exact fun t : Millis => (t.count : ℚ) where
  add s t := Int.cast_add s.count t.count
  before s t := by
    change decide (s.count < t.count) = true ↔ _
    rw [decide_eq_true_iff, Int.cast_lt]
  ofMillis n := Int.cast_natCast n

end StationLink

namespace StationLink.Host

open Serial Text Channel

variable {σ τ α : Type} [SerialLine σ τ] [TimeScale τ]

/-! ## Turns -/

/-- The hosts that a window comes to, read by read, before it ends. -/
inductive Turns (deadline : τ) : Host σ → Host σ → Prop
  | here (h : Host σ) : Turns deadline h h
  | next (h h₁ h₂ : Host σ) (line : Option Text)
      (hearly : TimeScale.before (SerialLine.clock h.line).now deadline = true)
      (hread : Channel.readLine (afterNow h) = .ok line h₁) (hturns : Turns deadline (noted line h₁) h₂) :
      Turns deadline h h₂

def Stuck (deadline : τ) (h : Host σ) : Prop :=
  h.isOpen = false ∧ TimeScale.before (SerialLine.clock h.line).now deadline = true

theorem goOn_ok (deadline : τ) (patience : Nat) (lines : List Text) (line : Option Text) (h : Host σ) :
    goOn deadline patience lines (.ok line h) =
      collect deadline patience (lines ++ line.toList.filter (· ≠ [])) (noted line h) := by
  cases line with
  | none => simp [goOn, noted]
  | some line =>
    simp only [goOn]
    by_cases hline : line = []
    · simp [hline, noted]
    · simp [hline, noted]

theorem collect_of_read (deadline : τ) (patience : Nat) (lines : List Text) {h h₁ : Host σ}
    {line : Option Text} (hearly : TimeScale.before (SerialLine.clock h.line).now deadline = true)
    (hread : Channel.readLine (afterNow h) = .ok line h₁) :
    collect deadline (patience + 1) lines h =
      collect deadline patience (lines ++ line.toList.filter (· ≠ [])) (noted line h₁) := by
  rw [collect_of_early deadline patience lines h hearly, hread, goOn_ok]

theorem Turns.not_stuck {P : σ → Prop}
    (hclock : ∀ {l} clock, P l → clock.tick = (SerialLine.clock l).tick → P (SerialLine.setClock clock l))
    (hread : ∀ {l}, P l → P (SerialLine.readLine l).2) (hopen : ∀ {l}, P l → SerialLine.isOpen l = true)
    {deadline : τ} {h h' : Host σ} (hturns : Turns deadline h h') (hheld : h.held = true) (hP : P h.line) :
    ¬ Stuck deadline h' := by
  induction hturns with
  | here h =>
    rintro ⟨hclosed, _⟩
    cases (isOpen_of_held hheld (hopen hP)).symm.trans hclosed
  | next h h₁ h₂ line _ hrun _ ih =>
    have hP' : P (afterNow h).line := hclock _ hP rfl
    have ho : (afterNow h).isOpen = true := isOpen_of_held hheld (hopen hP')
    have hline := hread hP'
    rcases hraw : SerialLine.readLine (afterNow h).line with ⟨f | bytes, l⟩
    · rw [hraw] at hline
      rw [readLine_of_fault _ ho f l hraw] at hrun
      split at hrun
      · obtain ⟨rfl, rfl⟩ := EStateM.Result.ok.inj hrun
        exact ih hheld (hclock _ hline rfl)
      · cases hrun
    · rw [hraw] at hline
      rw [readLine_of_bytes _ ho bytes l hraw, takeLine_apply] at hrun
      split at hrun
      · obtain ⟨rfl, rfl⟩ := EStateM.Result.ok.inj hrun
        exact ih hheld hline
      · obtain ⟨rfl, rfl⟩ := EStateM.Result.ok.inj hrun
        exact ih hheld hline

/-! ## Lines whose ports bring so much and no more -/

/-- A read of an open port takes from a supply that runs out, or has slept so long. Nothing but sleeping
moves the clock. -/
structure Supplied [LT α] (μ : τ → ℚ) (rest : ℚ) (supply : σ → α) (I : σ → Prop) : Prop where
  clock_setClock : ∀ {l}, I l → ∀ clock, SerialLine.clock (SerialLine.setClock clock l) = clock
  isOpen_setClock : ∀ {l}, I l → ∀ clock,
    SerialLine.isOpen (SerialLine.setClock clock l) = SerialLine.isOpen l
  supply_setClock : ∀ {l}, I l → ∀ clock, supply (SerialLine.setClock clock l) = supply l
  setClock : ∀ {l}, I l → ∀ clock, clock.tick = (SerialLine.clock l).tick → I (SerialLine.setClock clock l)
  still : ∀ {l}, I l → μ (SerialLine.clock l).tick = 0
  readLine : ∀ {l}, I l → SerialLine.isOpen l = true → I (SerialLine.readLine l).2
  onward : ∀ {l}, I l → SerialLine.isOpen l = true →
    μ (SerialLine.clock l).now ≤ μ (SerialLine.clock (SerialLine.readLine l).2).now
  slept : ∀ {l bytes}, I l → SerialLine.isOpen l = true → (SerialLine.readLine l).1 = .ok bytes →
    supply (SerialLine.readLine l).2 < supply l ∨
      μ (SerialLine.clock l).now + rest ≤ μ (SerialLine.clock (SerialLine.readLine l).2).now

def nap (rest : ℚ) : ℚ :=
  min rest backOff

structure Worked [LT α] (μ : τ → ℚ) (rest : ℚ) (supply : σ → α) (l l' : σ) : Prop where
  onward : μ (SerialLine.clock l).now ≤ μ (SerialLine.clock l').now
  slept : supply l' < supply l ∨ μ (SerialLine.clock l).now + nap rest ≤ μ (SerialLine.clock l').now

def stepsLeft (μ : τ → ℚ) (rest : ℚ) (deadline : τ) (l : σ) : ℕ :=
  ⌈(μ deadline - μ (SerialLine.clock l).now) / nap rest⌉₊

theorem lex_of_worked [LT α] {μ : τ → ℚ} (hμ : TimeScale.Exact μ) {rest : ℚ} (hrest : 0 < rest)
    {supply : σ → α} {deadline : τ} {l l' : σ}
    (hearly : TimeScale.before (SerialLine.clock l).now deadline = true)
    (hworked : Worked μ rest supply l l') :
    Prod.Lex (· < ·) (· < ·) (stepsLeft μ rest deadline l', supply l')
      (stepsLeft μ rest deadline l, supply l) := by
  have hnap : 0 < nap rest := lt_min hrest (by norm_num [backOff])
  have hleft := (hμ.before _ _).mp hearly
  have hsteps : stepsLeft μ rest deadline l' ≤ stepsLeft μ rest deadline l := by
    apply Nat.ceil_le_ceil
    apply div_le_div_of_nonneg_right _ hnap.le
    linarith [hworked.onward]
  rcases hworked.slept with hsupply | hslept
  · rcases hsteps.lt_or_eq with hlt | heq
    · exact .left _ _ hlt
    · rw [heq]
      exact .right _ hsupply
  · apply Prod.Lex.left
    have hpos : 0 < (μ deadline - μ (SerialLine.clock l).now) / nap rest :=
      div_pos (by linarith) hnap
    have hone : (μ deadline - μ (SerialLine.clock l').now) / nap rest + 1 ≤
        (μ deadline - μ (SerialLine.clock l).now) / nap rest := by
      rw [div_add_one hnap.ne', div_le_div_iff_of_pos_right hnap]
      linarith
    rw [stepsLeft, stepsLeft, Nat.lt_ceil]
    rcases le_total (μ deadline - μ (SerialLine.clock l').now) 0 with hover | hunder
    · rw [Nat.ceil_eq_zero.mpr (div_nonpos_of_nonpos_of_nonneg hover hnap.le), Nat.cast_zero]
      exact hpos
    · exact (Nat.ceil_lt_add_one (div_nonneg hunder hnap.le)).trans_le hone

namespace Supplied

variable [LT α] {μ : τ → ℚ} {rest : ℚ} {supply : σ → α} {I : σ → Prop} (hμ : TimeScale.Exact μ)
  (hs : Supplied μ rest supply I)

include hμ hs

theorem afterNow {h : Host σ} (hI : I h.line) :
    I (Channel.afterNow h).line ∧ (Channel.afterNow h).isOpen = h.isOpen ∧
      supply (Channel.afterNow h).line = supply h.line ∧
      μ (SerialLine.clock (Channel.afterNow h).line).now = μ (SerialLine.clock h.line).now := by
  refine ⟨hs.setClock hI _ rfl, ?_, hs.supply_setClock hI _, ?_⟩
  · rw [isOpen, isOpen, Channel.afterNow, hs.isOpen_setClock hI]
  · rw [Channel.afterNow, hs.clock_setClock hI]
    change μ (TimeScale.add _ _) = _
    rw [hμ.add, hs.still hI, add_zero]

theorem afterReadFault {h : Host σ} (hI : I h.line) (f : Fault) :
    I (Channel.afterReadFault f h).line ∧
      μ (SerialLine.clock (Channel.afterReadFault f h).line).now =
        μ (SerialLine.clock h.line).now + backOff := by
  refine ⟨hs.setClock hI _ rfl, ?_⟩
  rw [Channel.afterReadFault, hs.clock_setClock hI]
  change μ (TimeScale.add _ _) = _
  rw [hμ.add, hμ.ofMillis]

theorem ends_readLine {h : Host σ} (hI : I h.line) (ho : h.isOpen = true) :
    Call.Ends (fun _ h' => I h'.line ∧ Worked μ rest supply h.line h'.line)
      (fun f _ => ∃ fault, f = .invalid fault) (Channel.readLine h) := by
  have hopen : SerialLine.isOpen h.line = true := (Bool.and_eq_true_iff.mp ho).2
  have hline := hs.readLine hI hopen
  have honward := hs.onward hI hopen
  rcases hread : SerialLine.readLine h.line with ⟨f | bytes, line⟩
  · rw [hread] at hline honward
    rw [readLine_of_fault h ho f line hread]
    split
    · obtain ⟨hafter, hclock⟩ := hs.afterReadFault hμ (h := { h with line }) hline f
      have hdelay : (0 : ℚ) ≤ backOff := Nat.cast_nonneg backOff
      have hnap : nap rest ≤ backOff := min_le_right _ _
      exact ⟨hafter, by rw [hclock]; linarith, .inr (by rw [hclock]; linarith)⟩
    · exact ⟨f, rfl⟩
  · have hslept := hs.slept hI hopen (congrArg Prod.fst hread)
    rw [hread] at hline honward hslept
    have hworked : Worked μ rest supply h.line line := by
      refine ⟨honward, hslept.imp_right fun hrest => ?_⟩
      have hnap : nap rest ≤ rest := min_le_left _ _
      linarith
    rw [readLine_of_bytes h ho bytes line hread, takeLine_apply]
    split
    · exact ⟨hline, hworked⟩
    · exact ⟨hline, hworked⟩

theorem took_or_slept {h : Host σ} (hI : I h.line) (ho : h.isOpen = true)
    (hio : ∀ {f}, (SerialLine.readLine h.line).1 = .error f → f.isIo = true) :
    (∃ bytes line, SerialLine.readLine h.line = (.ok bytes, line) ∧ supply line < supply h.line) ∨
      μ (SerialLine.clock h.line).now + nap rest ≤
        μ (SerialLine.clock ((Channel.readLine (σ := σ)).after h).line).now := by
  have hopen : SerialLine.isOpen h.line = true := (Bool.and_eq_true_iff.mp ho).2
  have hline := hs.readLine hI hopen
  have honward := hs.onward hI hopen
  rcases hread : SerialLine.readLine h.line with ⟨f | bytes, line⟩
  · rw [hread] at hline honward
    obtain ⟨_, hclock⟩ := hs.afterReadFault hμ (h := { h with line }) hline f
    have hnap : nap rest ≤ backOff := min_le_right _ _
    rw [Call.after, readLine_of_fault h ho f line hread, if_pos (hio (by rw [hread])), Call.left, hclock]
    exact .inr (by linarith)
  · have hslept := hs.slept hI hopen (congrArg Prod.fst hread)
    rw [hread] at hslept
    refine hslept.imp (fun hsupply => ⟨bytes, line, rfl, hsupply⟩) fun hrest => ?_
    have hnap : nap rest ≤ rest := min_le_left _ _
    have hsame : ((Channel.readLine (σ := σ)).after h).line = line := by
      rw [Call.after, readLine_of_bytes h ho bytes line hread, ← Call.after, line_after_takeLine]
    rw [hsame]
    linarith

theorem turn {h h₁ : Host σ} {line : Option Text} (hI : I h.line) (ho : h.isOpen = true)
    (hread : Channel.readLine (Channel.afterNow h) = .ok line h₁) :
    I h₁.line ∧ Worked μ rest supply h.line h₁.line := by
  obtain ⟨hI', hopen, hsupply, hnow⟩ := hs.afterNow hμ hI
  have hends := hs.ends_readLine hμ hI' (hopen.trans ho)
  rw [hread] at hends
  obtain ⟨hline, honward, hslept⟩ := hends
  rw [hnow] at honward hslept
  rw [hsupply] at hslept
  exact ⟨hline, honward, hslept⟩

theorem of_turns {deadline : τ} {h h' : Host σ} (hturns : Turns deadline h h') (hI : I h.line) :
    I h'.line := by
  induction hturns with
  | here h => exact hI
  | next h h₁ h₂ line hearly hread _ ih =>
    apply ih
    change I h₁.line
    cases ho : h.isOpen with
    | true => exact (hs.turn hμ hI ho hread).1
    | false =>
      obtain ⟨hI', hopen, _⟩ := hs.afterNow hμ hI
      have hclosed := readLine_of_closed _ (hopen.trans ho)
      obtain ⟨rfl, rfl⟩ := EStateM.Result.ok.inj (hclosed.symm.trans hread)
      exact hI'

/-! ## A port that has died -/

theorem collect_of_stuck {deadline : τ} {h : Host σ} (hI : I h.line) (hstuck : Stuck deadline h)
    (patience : Nat) (lines : List Text) :
    (collect deadline patience lines).outcome h = .error .outOfPatience := by
  induction patience generalizing h with
  | zero => rfl
  | succ patience ih =>
    obtain ⟨hI', hopen, _, hnow⟩ := hs.afterNow hμ hI
    have hclosed := hopen.trans hstuck.1
    have hearly : TimeScale.before (SerialLine.clock (Channel.afterNow h).line).now deadline = true := by
      rw [hμ.before, hnow, ← hμ.before]
      exact hstuck.2
    have hsame : collect deadline (patience + 1) lines h =
        collect deadline patience lines (Channel.afterNow h) := by
      rw [collect_of_early deadline patience lines h hstuck.2, readLine_of_closed _ hclosed, goOn]
    rw [Call.outcome, hsame]
    exact ih hI' ⟨hclosed, hearly⟩

theorem runs_on {deadline : τ} {h h' : Host σ} (hturns : Turns deadline h h') (hI : I h.line)
    (hstuck : Stuck deadline h') (patience : Nat) (lines : List Text) :
    (collect deadline patience lines).outcome h = .error .outOfPatience := by
  induction hturns generalizing patience lines with
  | here h => exact hs.collect_of_stuck hμ hI hstuck patience lines
  | next h h₁ h₂ line hearly hread hturns ih =>
    cases patience with
    | zero => rfl
    | succ patience =>
      have hI₁ := hs.of_turns hμ (.next h h₁ _ line hearly hread (.here _)) hI
      rw [Call.outcome, collect_of_read deadline patience lines hearly hread]
      exact ih hI₁ hstuck patience _

/-! ## A port that lives on -/

/-- A window ends, unless its port dies in it. -/
theorem ends_or_sticks [WellFoundedLT α] (hrest : 0 < rest) (deadline : τ) (h : Host σ) (hI : I h.line) :
    (∃ patience, ∀ lines, (collect deadline patience lines).outcome h ≠ .error .outOfPatience) ∨
      ∃ h', Turns deadline h h' ∧ Stuck deadline h' := by
  have hwf : WellFounded (InvImage (Prod.Lex (· < ·) (· < ·))
      fun h : Host σ => (stepsLeft μ rest deadline h.line, supply h.line)) :=
    InvImage.wf _ (WellFounded.prod_lex wellFounded_lt wellFounded_lt)
  induction h using hwf.induction with
  | _ h ih =>
    cases hearly : TimeScale.before (SerialLine.clock h.line).now deadline with
    | false =>
      refine .inl ⟨1, fun lines => ?_⟩
      rw [Call.outcome, collect_of_late deadline 0 lines h hearly]
      rintro ⟨⟩
    | true =>
      cases ho : h.isOpen with
      | false => exact .inr ⟨h, .here h, ho, hearly⟩
      | true =>
        rcases hread : Channel.readLine (Channel.afterNow h) with ⟨line, h₁⟩ | ⟨f, h₁⟩
        · obtain ⟨hI₁, hworked⟩ := hs.turn hμ hI ho hread
          rcases ih (noted line h₁) (lex_of_worked hμ hrest hearly hworked) hI₁ with
            ⟨patience, hends⟩ | ⟨h', hturns, hstuck⟩
          · refine .inl ⟨patience + 1, fun lines => ?_⟩
            rw [Call.outcome, collect_of_read deadline patience lines hearly hread]
            exact hends _
          · exact .inr ⟨h', .next h h₁ h' line hearly hread hturns, hstuck⟩
        · obtain ⟨hI', hopen, _⟩ := hs.afterNow hμ hI
          have hends := hs.ends_readLine hμ hI' (hopen.trans ho)
          rw [hread] at hends
          obtain ⟨fault, rfl⟩ := hends
          refine .inl ⟨1, fun lines => ?_⟩
          rw [Call.outcome, collect_of_early deadline 0 lines h hearly, hread]
          rintro ⟨⟩

theorem collect_ends (hio : ∀ {l f}, I l → SerialLine.isOpen l = true →
      (SerialLine.readLine l).1 = .error f → f.isIo = true) (deadline : τ) (patience : Nat)
    (lines : List Text) (h : Host σ) (hI : I h.line) :
    Call.Ends (fun _ _ => True) (fun f _ => f = .outOfPatience) (collect deadline patience lines h) := by
  have hends := Channel.collect_ends (σ := σ) (I := fun _ h => I h.line) (E := fun f _ => f = .outOfPatience)
    (fun _ h hI => (hs.afterNow hμ hI).1) (fun _ _ _ hI => hI) ?_ (fun _ _ _ => rfl) deadline patience
    lines h hI
  · exact hends.imp (fun _ _ _ => trivial) fun _ _ hf => hf
  · intro _ h hI
    cases ho : h.isOpen with
    | false =>
      rw [readLine_of_closed h ho]
      exact hI
    | true =>
      have hread := hs.ends_readLine hμ hI ho
      have hopen : SerialLine.isOpen h.line = true := (Bool.and_eq_true_iff.mp ho).2
      rcases hline : SerialLine.readLine h.line with ⟨f | bytes, line⟩
      · have hf := hio hI hopen (f := f) (by rw [hline])
        rw [readLine_of_fault h ho f line hline, if_pos hf] at hread ⊢
        exact hread.1
      · rw [readLine_of_bytes h ho bytes line hline, takeLine_apply] at hread ⊢
        split at hread
        · rename_i hended
          rw [if_pos hended]
          exact hread.1
        · rename_i hended
          rw [if_neg hended]
          exact hread.1

/-- On a line whose reads raise faults of input and output only, a window on an open port ends if its port
does not die in it, and runs on if it does. -/
theorem readLines_ends_or_runs_on [WellFoundedLT α] (hrest : 0 < rest)
    (hio : ∀ {l f}, I l → SerialLine.isOpen l = true → (SerialLine.readLine l).1 = .error f → f.isIo = true)
    (s : Settings τ) (duration : τ) {h : Host σ} (hI : I h.line) (ho : h.isOpen = true) :
    ((∀ h', Turns (TimeScale.add (SerialLine.clock h.line).now duration) (Channel.afterNow h) h' →
        ¬ Stuck (TimeScale.add (SerialLine.clock h.line).now duration) h') →
      ∃ patience lines, (Channel.readLines ⟨s, patience⟩ duration).outcome h = .ok lines) ∧
    (∀ h', Turns (TimeScale.add (SerialLine.clock h.line).now duration) (Channel.afterNow h) h' →
        Stuck (TimeScale.add (SerialLine.clock h.line).now duration) h' →
      ∀ patience, (Channel.readLines ⟨s, patience⟩ duration).outcome h = .error .outOfPatience) := by
  have hI' := (hs.afterNow hμ hI).1
  have hwindow (patience : Nat) : (Channel.readLines ⟨s, patience⟩ duration).outcome h =
      (collect (TimeScale.add (SerialLine.clock h.line).now duration) patience []).outcome
        (Channel.afterNow h) := by
    rw [Call.outcome, readLines_of_open _ duration h ho]
    rfl
  constructor
  · intro hlives
    rcases hs.ends_or_sticks hμ hrest _ _ hI' with ⟨patience, hends⟩ | ⟨h', hturns, hstuck⟩
    · have hpatience := hends []
      have hfails := hs.collect_ends hμ hio (TimeScale.add (SerialLine.clock h.line).now duration) patience
        [] _ hI'
      refine ⟨patience, ?_⟩
      rw [hwindow, Call.outcome]
      rw [Call.outcome] at hpatience
      generalize collect _ patience [] (Channel.afterNow h) = run at hpatience hfails ⊢
      rcases run with ⟨lines, h'⟩ | ⟨f, h'⟩
      · exact ⟨lines, rfl⟩
      · exact absurd (congrArg Except.error hfails) hpatience
    · exact absurd hstuck (hlives h' hturns)
  · intro h' hturns hstuck patience
    rw [hwindow]
    exact hs.runs_on hμ hturns hI' hstuck patience []

end Supplied

end StationLink.Host
