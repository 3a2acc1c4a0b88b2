import StationLink.Proofs.Host.Histories

/-!
# What a request comes to

The lines of an uncut window, in the order in which they came about: those at hand, the answers to what
waited, the answer to the request itself, and what was forwarded after it.
-/

namespace StationLink.Host

open Serial Text Protocol Board Channel

variable {τ : Type}

/-- An order is carried out by the board `b`, which has carried out what waited. Behind the lines at hand
its reply is heard in full, and `left` is still to be read. -/
structure Reply (b : Board) (o : Order) (waited own more left : List Text)
    (h : Host (Recorded (WiredLine τ))) : Prop where
  whole : (b.execute o).2 = none
  before : b.output = Utf8.encodeLines waited
  answer : (Board.answer o b).1 = Utf8.encodeLines own
  free : ∀ t ∈ waited ++ own, '\n' ∉ t
  idled : Idled (b.execute o).1 h.line.line.board
  unasked : Unasked (b.execute o).1 (more ++ left)
  links : Links [] left h.unrecorded

section

variable {b : Board} {o : Order} {waited own more left lines : List Text}
  {h : Host (Recorded (WiredLine τ))}

theorem Reply.alone (hr : Reply b o waited own more left h) (hs : (b.execute o).1.session = none) :
    more = [] ∧ left = [] :=
  List.append_eq_nil_iff.mp (hr.unasked.alone hs)

theorem Reply.waited_eq (hr : Reply b o waited own more left h) (hfree : ∀ t ∈ lines, '\n' ∉ t)
    (hout : b.output = Utf8.encodeLines lines) : waited = lines :=
  Utf8.encodeLines_inj _ _ (List.forall_mem_append.mp hr.free).1 hfree (hr.before.symm.trans hout)

theorem Reply.own_eq (hr : Reply b o waited own more left h) (hfree : ∀ t ∈ lines, '\n' ∉ t)
    (hanswer : (Board.answer o b).1 = Utf8.encodeLines lines) : own = lines :=
  Utf8.encodeLines_inj _ _ (List.forall_mem_append.mp hr.free).2 hfree (hr.answer.symm.trans hanswer)

end

/-- The parts of a course that ends with one text. -/
theorem Course.carried_snoc (c : Course τ) (texts : List Text) (line : Text) (b b₀ : Board)
    (htexts : c.texts = texts ++ [line]) (hbare : b.bare = c.host.line.line.board.bare)
    (hwaited : carried texts b = (b₀, none)) :
    c.after = (b₀.execute (.ofText line)).1 ∧ c.crash = (b₀.execute (.ofText line)).2 ∧
      ∃ waited own, c.answer = waited ++ own ∧ b₀.output = Utf8.encodeLines waited ∧
        (Board.answer (.ofText line) b₀).1 = Utf8.encodeLines own := by
  have hrun : carried c.texts c.host.line.line.board = b₀.execute (.ofText line) := by
    rw [htexts, ← carried_of_bare hbare]
    exact Board.carried_snoc texts line b b₀ hwaited
  obtain ⟨waited, hprinted, hfree⟩ := (adds_executeAll (texts.map Order.ofText) b.bare).lines
  obtain ⟨own, hown, hfree'⟩ := (adds_execute (.ofText line) b₀.bare).lines
  have hout : b₀.output = Utf8.encodeLines waited := by
    rw [carried] at hwaited
    rw [hwaited] at hprinted
    exact hprinted
  refine ⟨congrArg Prod.fst hrun, congrArg Prod.snd hrun, waited, own, ?_, hout, hown⟩
  refine Utf8.encodeLines_inj _ _ c.free (List.forall_mem_append.mpr ⟨hfree, hfree'⟩) ?_
  rw [← c.printed, hrun, (execute_answer _ b₀).1, Utf8.encodeLines_append, hout]
  exact congrArg (Utf8.encodeLines waited ++ ·) hown

variable [TimeScale τ]

/-- An uncut window ends with the crash of its order, or with the whole reply. -/
theorem Links.reply {texts left : List Text} {h : Host (WiredLine τ)} (hl : Links texts left h)
    {b : Board} (hwaited : carried texts h.line.board = (b, none)) (k : Link τ) (r : Request)
    (line : Text) (millis : Nat) (hline : r.line? = some line) (hends : r.FreeOfLineEnds)
    (hwindow : r.verb.window? = some millis) (hu : Uncut k r h) :
    (∃ crash h', (b.execute (.ofText line)).2 = some crash ∧
      Client.query k r h.recorded = .error (.invalid (.ofCrash crash)) h') ∨
    ∃ waited own more left' h', Reply b (.ofText line) waited own more left' h' ∧
      Client.query k r h.recorded = .ok (shown (left ++ waited ++ own ++ more)) h' ∧
      h'.line.line.written = h.line.written ++ Utf8.encodeLine line ∧ h'.rejoined = h.rejoined := by
  obtain ⟨c, hs, htexts, hstart, hw⟩ := hl.query_window k r line millis hline hends hwindow
  have hbare : h.line.board.bare = c.host.line.line.board.bare := by
    rw [hs.board]
    rfl
  obtain ⟨hafter, hcrash, waited, own, hanswer, hout, hown⟩ :=
    c.carried_snoc texts line h.line.board b htexts hbare hwaited
  rcases hu.whole hline hwindow hw with ⟨heard, left', h', hrun, hh, ht⟩ | ⟨crash, h', hc, hrun, _⟩
  · obtain ⟨more, hheard, hunasked⟩ := ht.lines
    refine .inr ⟨waited, own, more, left', h', ⟨hcrash.symm.trans ht.whole, hout, hown, hanswer ▸ c.free,
      hafter ▸ ht.idled, hafter ▸ hunasked, hh.links_of_through ht⟩, ?_, hh.written.trans hs.written,
      hh.rejoined.trans hs.rejoined⟩
    rw [hrun, hheard, hanswer, hstart, List.append_assoc left waited own]
  · exact .inl ⟨crash, h', hcrash.symm.trans hc, hrun⟩

end StationLink.Host
