import StationLink.Proofs.Board.Dispatch
import StationLink.Proofs.Board.Tame

/-!
# Batches

A poll frames all complete lines before it carries out the first of them, so that a crash costs the lines
behind it: they are framed, and neither carried out nor kept. Each line is framed by one poll only,
whatever crashes.
-/

namespace StationLink.Board

open Text

/-- The lines that one poll frames, the board they are carried out on, and what comes of them. -/
structure Batch where
  framed : List Text
  start : Board
  carriedOut : List Text
  crash : Option Crash
deriving DecidableEq, Repr

def batch (b : Board) : Batch where
  framed := (frame b.input).1.map Utf8.decode
  start := { b with input := (frame b.input).2 }
  carriedOut := (dispatchTurn b).1
  crash := (dispatchTurn b).2.2

/-- The batches of a run, one for each poll. -/
def batches : List Stimulus → Board → List Batch
  | [], _ => []
  | .feed bytes :: stimuli, b => batches stimuli (b.feed bytes)
  | .poll :: stimuli, b => batch b :: batches stimuli b.turn.1

/-! ## What comes of a batch -/

/-- All of a batch is carried out, or what stands before the text that crashes and that text itself. What
stands behind it is lost. -/
inductive Batch.Settled (x : Batch) : Prop
  | whole (hdone : x.carriedOut = x.framed) (hcrash : x.crash = none)
      (hruns : (executeAll (x.framed.map Order.ofText) x.start).2 = none)
  | cut (before lost : List Text) (text : Text) (b : Board) (crash : Crash)
      (hframed : x.framed = before ++ text :: lost) (hdone : x.carriedOut = before ++ [text])
      (hruns : executeAll (before.map Order.ofText) x.start = (b, none))
      (hcrash : (b.execute (.ofText text)).2 = some crash) (hsame : x.crash = some crash)

theorem settled_dispatch (texts : List Text) (b : Board) :
    Batch.Settled ⟨texts, b, (dispatch texts b).1, (dispatch texts b).2.2⟩ := by
  have hcarried := carried_dispatch texts b
  generalize dispatch texts b = run at hcarried
  obtain ⟨done, ended⟩ := run
  cases hcarried with
  | whole b' hruns => exact .whole rfl rfl (by rw [hruns])
  | cut before lost text b₁ b₂ crash hframed hruns hcrash =>
    exact .cut before lost text b₁ crash hframed rfl hruns (by rw [hcrash]) rfl

theorem settled_batch (b : Board) : (batch b).Settled := by
  rw [batch, dispatchTurn_fst, dispatchTurn_crash]
  exact settled_dispatch _ _

theorem settled_of_mem_batches (stimuli : List Stimulus) (b : Board) :
    ∀ x ∈ batches stimuli b, x.Settled := by
  induction stimuli generalizing b with
  | nil => simp [batches]
  | cons stimulus stimuli ih =>
    cases stimulus with
    | feed bytes => exact ih (b.feed bytes)
    | poll => exact List.forall_mem_cons.mpr ⟨settled_batch b, ih b.turn.1⟩

/-! ## The batches of a run -/

theorem play_of_batches (stimuli : List Stimulus) (b : Board) :
    (play stimuli b).texts = (batches stimuli b).flatMap Batch.carriedOut ∧
      (play stimuli b).crashes = (batches stimuli b).flatMap (·.crash.toList) := by
  induction stimuli generalizing b with
  | nil => exact ⟨rfl, rfl⟩
  | cons stimulus stimuli ih =>
    cases stimulus with
    | feed bytes => exact ih (b.feed bytes)
    | poll =>
      obtain ⟨htexts, hcrashes⟩ := ih b.turn.1
      rw [batches, List.flatMap_cons, List.flatMap_cons, ← htexts, ← hcrashes, ← dispatchTurn_snd]
      exact ⟨rfl, rfl⟩

/-- What the batches frame, and the input they leave, part the bytes together with whatever comes after
them. No crash bears on this, since a turn takes its lines off the input before it carries them out. -/
theorem batches_parted (stimuli : List Stimulus) (b : Board) :
    ∃ runs, (batches stimuli b).flatMap Batch.framed = textsOf runs ∧
      ∀ more ms u, Parted isLineEnd ((play stimuli b).board.input ++ more) ms u →
        Parted isLineEnd (b.input ++ fed stimuli ++ more) (runs ++ ms) u := by
  induction stimuli generalizing b with
  | nil => exact ⟨[], rfl, fun more ms u hp => by simpa [fed, play] using hp⟩
  | cons stimulus stimuli ih =>
    cases stimulus with
    | feed bytes =>
      obtain ⟨runs, hframed, hparted⟩ := ih (b.feed bytes)
      refine ⟨runs, hframed, fun more ms u hp => ?_⟩
      have := hparted more ms u hp
      simpa [fed, feed] using this
    | poll =>
      obtain ⟨runs, tail, hb⟩ := exists_parted isLineEnd b.input
      have hinput : b.turn.1.input = tail := by rw [input_turn, frame_of_parted hb]
      have hfirst : (batch b).framed = textsOf runs := by
        change (frame b.input).1.map Utf8.decode = _
        rw [frame_of_parted hb]
        rfl
      obtain ⟨later, hframed, hparted⟩ := ih b.turn.1
      refine ⟨runs ++ later, ?_, fun more ms u hp => ?_⟩
      · rw [textsOf_append, ← hfirst, ← hframed]
        rfl
      · have hboard : (play (.poll :: stimuli) b).board = (play stimuli b.turn.1).board := by
          rw [← dispatchTurn_snd]
          rfl
        rw [hboard] at hp
        have hrest := hparted more ms u hp
        rw [hinput, List.append_assoc] at hrest
        have := hb.append hrest
        simpa [fed, List.append_assoc] using this

/-! ## Faults of the dialer -/

/-- A dialer that answers or refuses each call. -/
def Dialer.Faultless (d : Dialer) : Prop :=
  ∀ plan ∈ d.plans, plan ≠ .fault

theorem Dialer.Faultless.nextPlan {d : Dialer} (h : d.Faultless) : d.nextPlan ≠ .fault := by
  rw [Dialer.nextPlan]
  cases hplans : d.plans with
  | nil => exact Plan.noConfusion
  | cons plan plans => exact h plan (by simp [hplans])

theorem lasting_faultless : Lasting fun b => b.dialer.Faultless where
  of_eq h hdialer _ := hdialer ▸ h
  peeked _ h := h
  drained _ h := h
  sent _ _ h := h
  closed {b} h := by
    have hplans := (lasting_plans b.dialer.plans).closed rfl
    rw [Dialer.Faultless, hplans]
    exact h

theorem faultless_dial (host : Text) (port : Int) (b : Board) (h : b.dialer.Faultless) :
    (b.dial host port).1.dialer.Faultless := by
  rw [Dialer.Faultless, plans_dial]
  exact fun plan hplan => h plan (List.mem_of_mem_tail hplan)

theorem crash_printSurvey (networks : List Network) (b : Board) :
    (printSurvey networks b).2 ≠ some .dialFault := by
  induction networks generalizing b with
  | nil => simp [printSurvey]
  | cons n networks ih =>
    rw [printSurvey]
    cases surveyLine? n with
    | none => simp
    | some line => exact ih _

theorem crash_execute (o : Order) (b : Board) (h : b.dialer.Faultless) :
    (b.execute o).2 ≠ some .dialFault := by
  cases o with
  | status =>
    simp only [execute, reportStatus]
    split
    · split <;> simp
    · simp
  | scan =>
    simp only [execute, reportSurvey]
    split
    · simp
    · exact crash_printSurvey _ _
  | tcpConnect host port =>
    cases hnumber : Numeral.write? port with
    | none => simp [execute, tcpConnect, hnumber]
    | some number =>
      obtain ⟨_, hcrash⟩ := output_tcpConnect host port number b hnumber
      simp [execute, hcrash, h.nextPlan]
  | _ => simp [execute]

theorem crash_batches_of_faultless (stimuli : List Stimulus) (b : Board) (h : b.dialer.Faultless) :
    ∀ x ∈ batches stimuli b, x.crash ≠ some .dialFault := by
  induction stimuli generalizing b with
  | nil => simp [batches]
  | cons stimulus stimuli ih =>
    cases stimulus with
    | feed bytes => exact ih (b.feed bytes) h
    | poll =>
      have hturn : b.turn.1.dialer.Faultless :=
        lasting_faultless.turn (fun b host port hb _ => faultless_dial host port b hb) h
      refine List.forall_mem_cons.mpr ⟨?_, ih b.turn.1 hturn⟩
      cases settled_batch b with
      | whole _ hcrash _ => simp [hcrash]
      | cut before _ text b' crash _ _ hruns hcrash hsame =>
        have hstart : (batch b).start.dialer.Faultless := h
        have hkept := lasting_faultless.executeAll (fun b host port hb _ => faultless_dial host port b hb)
          hstart (before.map Order.ofText)
        rw [hruns] at hkept
        rw [hsame, ← hcrash]
        exact crash_execute (.ofText text) b' hkept

/-- However the bytes are cut and whatever crashes: once a poll comes last, each complete line has been
framed by exactly one poll, in order, and only the open end is left. Of the lines that a poll frames those
up to its first crash are carried out, once and in order; those behind it never are. What is carried out
is what the account of the turns tells. A dialer that only answers or refuses crashes none. -/
theorem lines_are_lost_behind_a_crash_only (b : Board) (stimuli : List Stimulus) :
    ∃ runs tail, Parted isLineEnd (b.input ++ fed stimuli) runs tail ∧
      Accounts (stimuli ++ [.poll]) b (play (stimuli ++ [.poll]) b) ∧
      (batches (stimuli ++ [.poll]) b).flatMap Batch.framed = textsOf runs ∧
      (play (stimuli ++ [.poll]) b).board.input = tail ∧
      (play (stimuli ++ [.poll]) b).texts =
        (batches (stimuli ++ [.poll]) b).flatMap Batch.carriedOut ∧
      (play (stimuli ++ [.poll]) b).crashes =
        (batches (stimuli ++ [.poll]) b).flatMap (·.crash.toList) ∧
      (∀ x ∈ batches (stimuli ++ [.poll]) b, x.Settled) ∧
      (b.dialer.Faultless → ∀ x ∈ batches (stimuli ++ [.poll]) b, x.crash ≠ some .dialFault) := by
  obtain ⟨runs, hframed, hparted⟩ := batches_parted (stimuli ++ [.poll]) b
  have hopen := input_play_poll stimuli b
  have hall := hparted [] [] _ (.tail (by simpa using hopen))
  have hsame : fed (stimuli ++ [.poll]) = fed stimuli := by
    rw [fed_append]
    exact List.append_nil (fed stimuli)
  rw [List.append_nil, List.append_nil, List.append_nil, hsame] at hall
  obtain ⟨htexts, hcrashes⟩ := play_of_batches (stimuli ++ [.poll]) b
  exact ⟨runs, _, hall, accounts_play _ b, hframed, rfl, htexts, hcrashes, settled_of_mem_batches _ b,
    crash_batches_of_faultless _ b⟩

/-- The line behind the call is framed by the first poll, and carried out by neither. -/
example :
    let bytes := Utf8.encode "TCPCONNECT:h:1\nSTATUS\n".toList
    let run := [.feed bytes, .poll, .poll]
    (batches run (boot [] [.fault])).map Batch.framed = [["TCPCONNECT:h:1".toList, "STATUS".toList], []] ∧
      (play run (boot [] [.fault])).texts = ["TCPCONNECT:h:1".toList] := by
  decide +kernel

end StationLink.Board
