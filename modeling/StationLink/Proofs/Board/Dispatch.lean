import StationLink.Proofs.Board.Around
import StationLink.Proofs.Text.Parting

/-!
# What the board dispatches

A board that is fed and polled carries out texts, and the account of such a run lists them in
order, those cut short by a crash included. The account is kept beside the turns and changes nothing
about them: `Accounts` says of it, in terms of the turns alone, that it lists what these carry out. Main
statement: the texts depend on the bytes fed and not on how they were cut.
-/

namespace StationLink.Board

open Text

/-- What is done to a board from outside its own turns. -/
inductive Stimulus where
  | feed (bytes : Bytes)
  | poll
deriving DecidableEq, Repr

/-- Carries out texts until one crashes, and lists those that were carried out. -/
def dispatch : List Text → Board → List Text × Board × Option Crash
  | [], b => ([], b, none)
  | text :: texts, b =>
    match b.execute (.ofText text) with
    | (b, none) => (text :: (dispatch texts b).1, (dispatch texts b).2)
    | (b, some crash) => ([text], b, some crash)

/-- A turn, with the texts that it carries out. -/
def dispatchTurn (b : Board) : List Text × Board × Option Crash :=
  let (lines, input) := frame b.input
  match dispatch (lines.map Utf8.decode) { b with input } with
  | (texts, b, none) => (texts, b.forward.rest idleRest, none)
  | (texts, b, some crash) => (texts, b, some crash)

structure Account where
  texts : List Text := []
  crashes : List Crash := []
  board : Board
deriving DecidableEq, Repr

def play : List Stimulus → Board → Account
  | [], b => { board := b }
  | .feed bytes :: stimuli, b => play stimuli (b.feed bytes)
  | .poll :: stimuli, b =>
    let (texts, b, crash) := dispatchTurn b
    let rest := play stimuli b
    { rest with texts := texts ++ rest.texts, crashes := crash.toList ++ rest.crashes }

def fed : List Stimulus → Bytes
  | [] => []
  | .feed bytes :: stimuli => bytes ++ fed stimuli
  | .poll :: stimuli => fed stimuli

theorem fed_append (stimuli more : List Stimulus) : fed (stimuli ++ more) = fed stimuli ++ fed more := by
  induction stimuli with
  | nil => rfl
  | cons stimulus stimuli ih => cases stimulus <;> simp [fed, ih]

/-! ## The account is that of the turns -/

theorem dispatch_snd (texts : List Text) (b : Board) :
    (dispatch texts b).2 = executeAll (texts.map Order.ofText) b := by
  induction texts generalizing b with
  | nil => rfl
  | cons text texts ih =>
    simp only [dispatch, List.map_cons, executeAll]
    rcases b.execute (.ofText text) with ⟨b, _ | crash⟩
    · exact ih b
    · rfl

theorem dispatchTurn_snd (b : Board) : (dispatchTurn b).2 = b.turn := by
  have h := dispatch_snd ((frame b.input).1.map Utf8.decode) { b with input := (frame b.input).2 }
  rw [List.map_map] at h
  simp only [dispatchTurn, turn]
  change _ = match executeAll ((frame b.input).1.map (Order.ofText ∘ Utf8.decode)) _ with
    | (b, none) => _
    | (b, some crash) => _
  rw [← h]
  rcases dispatch ((frame b.input).1.map Utf8.decode) _ with ⟨texts, b, _ | crash⟩ <;> rfl

/-- Of the texts that are framed all are carried out, or those up to the first that crashes; with the board
that this leaves. -/
inductive Carried (start : Board) (framed : List Text) : List Text → Board × Option Crash → Prop
  | whole (b : Board) (hruns : executeAll (framed.map Order.ofText) start = (b, none)) :
      Carried start framed framed (b, none)
  | cut (before lost : List Text) (text : Text) (b b' : Board) (crash : Crash)
      (hframed : framed = before ++ text :: lost)
      (hruns : executeAll (before.map Order.ofText) start = (b, none))
      (hcrash : b.execute (.ofText text) = (b', some crash)) :
      Carried start framed (before ++ [text]) (b', some crash)

theorem carried_dispatch (texts : List Text) (b : Board) :
    Carried b texts (dispatch texts b).1 (dispatch texts b).2 := by
  induction texts generalizing b with
  | nil => exact .whole b rfl
  | cons text texts ih =>
    rcases hb : b.execute (.ofText text) with ⟨b', _ | crash⟩
    · have hfirst (orders : List Order) :
          executeAll (.ofText text :: orders) b = executeAll orders b' := by
        rw [executeAll, hb]
      have hrest := ih b'
      rw [dispatch, hb]
      dsimp only
      generalize dispatch texts b' = run at hrest
      obtain ⟨done, ended⟩ := run
      cases hrest with
      | whole b'' hruns => exact .whole b'' ((hfirst _).trans hruns)
      | cut before lost last b₁ b₂ crash hframed hruns hcrash =>
        exact .cut (text :: before) lost last b₁ b₂ crash (congrArg (text :: ·) hframed)
          ((hfirst _).trans hruns) hcrash
    · rw [dispatch, hb]
      exact .cut [] texts text b b' crash rfl rfl hb

theorem dispatch_fst_of_ok (texts : List Text) (b : Board) (h : (dispatch texts b).2.2 = none) :
    (dispatch texts b).1 = texts := by
  have hcarried := carried_dispatch texts b
  generalize dispatch texts b = run at h hcarried
  obtain ⟨done, ended⟩ := run
  cases hcarried with
  | whole _ _ => rfl
  | cut _ _ _ _ _ _ _ _ _ => cases h

theorem dispatch_singleton (text : Text) (b : Board) : (dispatch [text] b).1 = [text] := by
  simp only [dispatch]
  rcases b.execute (.ofText text) with ⟨b, _ | crash⟩ <;> rfl

theorem dispatchTurn_fst (b : Board) :
    (dispatchTurn b).1 =
      (dispatch ((frame b.input).1.map Utf8.decode) { b with input := (frame b.input).2 }).1 := by
  simp only [dispatchTurn]
  rcases dispatch ((frame b.input).1.map Utf8.decode) _ with ⟨texts, b, _ | crash⟩ <;> rfl

theorem dispatchTurn_crash (b : Board) :
    (dispatchTurn b).2.2 =
      (dispatch ((frame b.input).1.map Utf8.decode) { b with input := (frame b.input).2 }).2.2 := by
  simp only [dispatchTurn]
  rcases dispatch ((frame b.input).1.map Utf8.decode) _ with ⟨texts, b, _ | crash⟩ <;> rfl

theorem dispatchTurn_input (b : Board) : (dispatchTurn b).2.1.input = (frame b.input).2 := by
  rw [dispatchTurn_snd, input_turn]

theorem play_append (stimuli more : List Stimulus) (b : Board) :
    play (stimuli ++ more) b =
      { texts := (play stimuli b).texts ++ (play more (play stimuli b).board).texts
        crashes := (play stimuli b).crashes ++ (play more (play stimuli b).board).crashes
        board := (play more (play stimuli b).board).board } := by
  induction stimuli generalizing b with
  | nil => rfl
  | cons stimulus stimuli ih =>
    cases stimulus with
    | feed bytes => exact ih (b.feed bytes)
    | poll => simp [play, ih]

/-- A turn in which nothing has crashed goes on to forward what has come in, and rests. -/
def endTurn : Board × Option Crash → Board × Option Crash
  | (b, none) => (b.forward.rest idleRest, none)
  | (b, some crash) => (b, some crash)

/-- The account tells what the turns of a board carry out, their crashes, and what becomes of the board. -/
inductive Accounts : List Stimulus → Board → Account → Prop
  | nil (b : Board) : Accounts [] b { board := b }
  | feed {stimuli : List Stimulus} {b : Board} {a : Account} (bytes : Bytes)
      (hrest : Accounts stimuli (b.feed bytes) a) : Accounts (.feed bytes :: stimuli) b a
  | poll {stimuli : List Stimulus} {b : Board} {a : Account} {texts : List Text}
      {run : Board × Option Crash}
      (hcarried : Carried { b with input := (frame b.input).2 } ((frame b.input).1.map Utf8.decode)
        texts run)
      (hturn : b.turn = endTurn run) (hrest : Accounts stimuli b.turn.1 a) :
      Accounts (.poll :: stimuli) b
        { a with texts := texts ++ a.texts, crashes := b.turn.2.toList ++ a.crashes }

theorem carried_dispatchTurn (b : Board) :
    ∃ run, b.turn = endTurn run ∧
      Carried { b with input := (frame b.input).2 } ((frame b.input).1.map Utf8.decode)
        (dispatchTurn b).1 run := by
  refine ⟨_, ?_, dispatchTurn_fst b ▸ carried_dispatch _ _⟩
  rw [← dispatchTurn_snd]
  simp only [dispatchTurn]
  rcases dispatch ((frame b.input).1.map Utf8.decode) _ with ⟨texts, b, _ | crash⟩ <;> rfl

theorem accounts_play (stimuli : List Stimulus) (b : Board) : Accounts stimuli b (play stimuli b) := by
  induction stimuli generalizing b with
  | nil => exact .nil b
  | cons stimulus stimuli ih =>
    cases stimulus with
    | feed bytes => exact .feed bytes (ih (b.feed bytes))
    | poll =>
      obtain ⟨run, hturn, hcarried⟩ := carried_dispatchTurn b
      have hplay : play (.poll :: stimuli) b =
          { play stimuli b.turn.1 with
            texts := (dispatchTurn b).1 ++ (play stimuli b.turn.1).texts
            crashes := b.turn.2.toList ++ (play stimuli b.turn.1).crashes } := by
        rw [← dispatchTurn_snd]
        rfl
      rw [hplay]
      exact .poll hcarried hturn (ih b.turn.1)

/-! ## Framing -/

theorem frame_of_parted {input tail : Bytes} {runs : List Bytes}
    (h : Parted isLineEnd input runs tail) : frame input = (runs.filter (· ≠ []), tail) := by
  simp [frame, h.splitOnP_eq]

theorem not_mem_of_mem_frame (input line : Bytes) (h : line ∈ (frame input).1) : 0x0A ∉ line := by
  obtain ⟨runs, tail, hp⟩ := exists_parted isLineEnd input
  rw [frame_of_parted hp] at h
  intro hmem
  cases hp.piece_unmarked line (List.mem_filter.mp h).1 0x0A hmem

/-- The texts of the runs between line ends; an empty run has none. -/
def textsOf (runs : List Bytes) : List Text :=
  (runs.filter (· ≠ [])).map Utf8.decode

theorem textsOf_append (runs more : List Bytes) :
    textsOf (runs ++ more) = textsOf runs ++ textsOf more := by
  simp [textsOf]

/-- One turn without a crash carries out all runs that are complete, and leaves the tail. -/
theorem dispatchTurn_of_parted (b : Board) {runs : List Bytes} {tail : Bytes}
    (h : Parted isLineEnd b.input runs tail) (hc : (dispatchTurn b).2.2 = none) :
    (dispatchTurn b).1 = textsOf runs ∧ (dispatchTurn b).2.1.input = tail := by
  have hframe := frame_of_parted h
  rw [dispatchTurn_crash] at hc
  rw [dispatchTurn_fst, dispatchTurn_input, dispatch_fst_of_ok _ _ hc, hframe]
  exact ⟨rfl, rfl⟩

/-- What a run has carried out, and the input it leaves, part the bytes together with whatever
comes after them. -/
theorem play_parted (stimuli : List Stimulus) (b : Board) (h : (play stimuli b).crashes = []) :
    ∃ runs, (play stimuli b).texts = textsOf runs ∧
      ∀ more ms u, Parted isLineEnd ((play stimuli b).board.input ++ more) ms u →
        Parted isLineEnd (b.input ++ fed stimuli ++ more) (runs ++ ms) u := by
  induction stimuli generalizing b with
  | nil => exact ⟨[], rfl, fun more ms u hp => by simpa [fed, play] using hp⟩
  | cons stimulus stimuli ih =>
    cases stimulus with
    | feed bytes =>
      obtain ⟨runs, htexts, hparted⟩ := ih (b.feed bytes) h
      refine ⟨runs, htexts, fun more ms u hp => ?_⟩
      have := hparted more ms u hp
      simpa [fed, feed] using this
    | poll =>
      have hcrash := List.append_eq_nil_iff.mp h
      have hnone : (dispatchTurn b).2.2 = none := Option.toList_eq_nil_iff.mp hcrash.1
      obtain ⟨runs, tail, hb⟩ := exists_parted isLineEnd b.input
      obtain ⟨hturn, hinput⟩ := dispatchTurn_of_parted b hb hnone
      obtain ⟨later, htexts, hparted⟩ := ih (dispatchTurn b).2.1 hcrash.2
      refine ⟨runs ++ later, ?_, fun more ms u hp => ?_⟩
      · rw [textsOf_append, ← hturn, ← htexts]
        rfl
      · have hrest := hparted more ms u hp
        rw [hinput, List.append_assoc] at hrest
        have := hb.append hrest
        simpa [fed, List.append_assoc] using this

theorem input_play_poll (stimuli : List Stimulus) (b : Board) :
    ∀ x ∈ (play (stimuli ++ [.poll]) b).board.input, isLineEnd x = false := by
  obtain ⟨runs, tail, h⟩ := exists_parted isLineEnd (play stimuli b).board.input
  have hinput : (play (stimuli ++ [.poll]) b).board.input = tail := by
    rw [play_append]
    change (dispatchTurn (play stimuli b).board).2.1.input = tail
    rw [dispatchTurn_input, frame_of_parted h]
  rw [hinput]
  exact h.tail_unmarked

/-- All that has been fed is carried out, if a poll comes last and nothing crashes. -/
theorem play_of_parted {bytes tail : Bytes} {runs : List Bytes} (h : Parted isLineEnd bytes runs tail)
    (b : Board) (stimuli : List Stimulus) (hfed : b.input ++ fed stimuli = bytes)
    (hcrash : (play (stimuli ++ [.poll]) b).crashes = []) :
    (play (stimuli ++ [.poll]) b).texts = textsOf runs ∧
      (play (stimuli ++ [.poll]) b).board.input = tail := by
  obtain ⟨done, htexts, hparted⟩ := play_parted (stimuli ++ [.poll]) b hcrash
  have hopen := input_play_poll stimuli b
  have hall := hparted [] [] _ (.tail (by simpa using hopen))
  have hsame : b.input ++ fed (stimuli ++ [.poll]) = bytes := by
    rw [fed_append, ← hfed]
    exact congrArg (b.input ++ ·) (List.append_nil (fed stimuli))
  simp only [List.append_nil, hsame] at hall
  obtain ⟨rfl, htail⟩ := hall.unique h
  exact ⟨htexts, htail⟩

/-! ## A single line -/

theorem dispatchTurn_of_open (b : Board) (h : ∀ x ∈ b.input, isLineEnd x = false) :
    (dispatchTurn b).1 = [] ∧ (dispatchTurn b).2.1.input = b.input := by
  rw [dispatchTurn_fst, dispatchTurn_input, frame_of_parted (.tail h)]
  exact ⟨rfl, rfl⟩

theorem play_of_fed_nothing (stimuli : List Stimulus) (b : Board)
    (h : ∀ x ∈ b.input, isLineEnd x = false) (hfed : fed stimuli = []) :
    (play stimuli b).texts = [] := by
  induction stimuli generalizing b with
  | nil => rfl
  | cons stimulus stimuli ih =>
    cases stimulus with
    | feed bytes =>
      obtain ⟨rfl, hrest⟩ := List.append_eq_nil_iff.mp hfed
      exact ih (b.feed []) (by simpa [feed] using h) hrest
    | poll =>
      obtain ⟨hturn, hinput⟩ := dispatchTurn_of_open b h
      have hrest := ih (dispatchTurn b).2.1 (by rwa [hinput]) hfed
      exact List.append_eq_nil_iff.mpr ⟨hturn, hrest⟩

/-- One line, however it is cut, is carried out once, also if it crashes the board. -/
theorem play_line (stimuli : List Stimulus) (b : Board) (line : Bytes) (e : UInt8)
    (hline : ∀ x ∈ line, isLineEnd x = false) (hne : line ≠ []) (he : isLineEnd e = true)
    (h : b.input ++ fed stimuli = line ++ [e]) :
    (play (stimuli ++ [.poll]) b).texts = [Utf8.decode line] := by
  have hparted : Parted isLineEnd (line ++ [e]) [line] [] := .piece hline he (.tail (by simp))
  have hturn (b : Board) (hb : b.input = line ++ [e]) :
      (dispatchTurn b).1 = [Utf8.decode line] ∧ (dispatchTurn b).2.1.input = [] := by
    rw [dispatchTurn_fst, dispatchTurn_input, hb, frame_of_parted hparted]
    simpa [hne] using dispatch_singleton _ _
  induction stimuli generalizing b with
  | nil =>
    have hb : b.input = line ++ [e] := by simpa [fed] using h
    have htexts : (play ([] ++ [.poll]) b).texts = (dispatchTurn b).1 ++ [] := rfl
    rw [htexts, (hturn b hb).1, List.append_nil]
  | cons stimulus stimuli ih =>
    cases stimulus with
    | feed bytes => exact ih (b.feed bytes) (by simpa [fed, feed] using h)
    | poll =>
      have htexts : (play (.poll :: stimuli ++ [.poll]) b).texts =
          (dispatchTurn b).1 ++ (play (stimuli ++ [.poll]) (dispatchTurn b).2.1).texts := rfl
      rw [htexts]
      rcases List.eq_nil_or_concat (fed stimuli) with hfed | ⟨init, last, hfed⟩
      · have hb : b.input = line ++ [e] := by simpa [fed, hfed] using h
        obtain ⟨hfirst, hinput⟩ := hturn b hb
        have hrest : (play (stimuli ++ [.poll]) (dispatchTurn b).2.1).texts = [] :=
          play_of_fed_nothing _ _ (by simp [hinput]) (by rw [fed_append, hfed]; rfl)
        rw [hfirst, hrest, List.append_nil]
      · have hinit : b.input ++ init = line := by
          have hall : b.input ++ init ++ [last] = line ++ [e] := by simpa [fed, hfed] using h
          exact (List.append_inj' hall rfl).1
        have hopen : ∀ x ∈ b.input, isLineEnd x = false := fun x hx =>
          hline x (hinit ▸ List.mem_append_left init hx)
        obtain ⟨hfirst, hinput⟩ := dispatchTurn_of_open b hopen
        rw [hfirst, List.nil_append]
        exact ih (dispatchTurn b).2.1 (by simpa [hinput, fed] using h)

end StationLink.Board
