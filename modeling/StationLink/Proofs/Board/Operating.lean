import Mathlib.Data.List.Induction
import StationLink.Proofs.Board.Joining
import StationLink.Proofs.Board.Reporting
import StationLink.Proofs.Board.Transceiver

/-!
# The radio in operation

Nothing but the questions about the link completes a join, and nothing but a new join or the loss of the network
ends one. So what a radio is on to is told by the last join of its history, provided that only questions have
followed it. The registers of a transceiver show this radio at every moment of the history, and a board does
nothing to its radio that is no such operation.
-/

namespace StationLink.Board

/-- What is done to a radio. The network is left on purpose, or drops out. -/
inductive Operation where
  | join (ssid password : Text)
  | poll
  | leave
  | drop
deriving DecidableEq, Repr

def Network.pursued (n : Network) : Nat → Association
  | 0 => .joining n n.joinPolls
  | polls + 1 => n.progress (polls + 1)

namespace Radio

def operate (r : Radio) : Operation → Radio
  | .join ssid password => r.join ssid password
  | .poll => r.poll.2
  | .leave | .drop => r.leave

def after (networks : List Network) (history : List Operation) : Radio :=
  history.foldl operate { networks }

theorem after_concat (networks : List Network) (history : List Operation) (o : Operation) :
    after networks (history ++ [o]) = (after networks history).operate o :=
  List.foldl_append

theorem networks_operate (r : Radio) (o : Operation) : (r.operate o).networks = r.networks := by
  cases o with
  | join ssid password =>
    rw [operate, join]
    split
    · rfl
    · rfl
  | poll =>
    rw [operate, poll]
    split
    · rfl
    · rfl
    · split
      · rfl
      · rfl
  | leave => rfl
  | drop => rfl

theorem networks_after (networks : List Network) (history : List Operation) :
    (after networks history).networks = networks := by
  induction history using List.reverseRecOn with
  | nil => rfl
  | append_singleton history o ih => rw [after_concat, networks_operate, ih]

theorem takes_after {networks : List Network} {history : List Operation} {ssid password : Text} {n : Network} :
    (after networks history).Takes ssid password n ↔ Takes { networks } ssid password n := by
  have hfind : (after networks history).find? ssid = find? { networks } ssid := by
    rw [find?, networks_after, find?]
  constructor
  · rintro ⟨hfirst, hreachable, hpassword⟩
    exact ⟨hfind ▸ hfirst, hreachable, hpassword⟩
  · rintro ⟨hfirst, hreachable, hpassword⟩
    exact ⟨hfind ▸ hfirst, hreachable, hpassword⟩

/-! ## A join and the questions after it -/

theorem poll_of_pursued {r : Radio} {n : Network} {polls : Nat} (h : r.association = n.pursued polls) :
    r.poll.2.association = n.pursued (polls + 1) := by
  cases polls with
  | zero => exact poll_of_begun h
  | succ polls => exact poll_of_progress h

theorem poll_fst_of_pursued {r : Radio} {n : Network} {polls : Nat} (h : r.association = n.pursued polls) :
    r.poll.1 = true ↔ max 0 n.joinPolls < polls + 1 := by
  have hnext : r.poll.2.network? = if n.joinPolls < (polls + 1 : Nat) then some n else none :=
    network?_of_progress (poll_of_pursued h)
  rw [poll_fst, hnext]
  split
  · simp only [Option.isSome_some, true_iff]
    omega
  · simp only [Option.isSome_none, Bool.false_eq_true, false_iff]
    omega

theorem joining?_eq_some {r : Radio} {n : Network} :
    r.joining? = some n ↔ ∃ left, r.association = .joining n left := by
  rw [joining?]
  cases r.association <;> simp

/-- A radio is joining or associated with one network only, which is the one that its last join pursues. -/
theorem eq_of_pursued {r : Radio} {n m : Network} {polls : Nat} (h : r.association = n.pursued polls)
    (hm : r.joining? = some m ∨ r.network? = some m) : m = n := by
  cases polls with
  | zero => simpa [joining?, network?, h, Network.pursued, eq_comm] using hm
  | succ polls =>
    rw [Network.pursued, Network.progress] at h
    split at h
    · simpa [joining?, network?, h, eq_comm] using hm
    · simpa [joining?, network?, h, eq_comm] using hm

/-! ## Any history -/

/-- Only questions have followed the last join, which this network has taken up. -/
structure Pursues (networks : List Network) (n : Network) (polls : Nat) (history : List Operation) : Prop where
  last : ∃ before ssid password, history = before ++ .join ssid password :: List.replicate polls .poll ∧
    Takes { networks } ssid password n
  association : (after networks history).association = n.pursued polls

theorem pursues_join {networks : List Network} {n : Network} {ssid password : Text}
    (history : List Operation) (h : Takes { networks } ssid password n) :
    Pursues networks n 0 (history ++ [.join ssid password]) := by
  constructor
  · exact ⟨history, ssid, password, rfl, h⟩
  · rw [after_concat]
    exact join_of_takes (takes_after.mpr h)

theorem Pursues.poll {networks : List Network} {n : Network} {polls : Nat} {history : List Operation}
    (h : Pursues networks n polls history) : Pursues networks n (polls + 1) (history ++ [.poll]) := by
  obtain ⟨before, ssid, password, rfl, htakes⟩ := h.last
  constructor
  · refine ⟨before, ssid, password, ?_, htakes⟩
    rw [List.replicate_succ', List.append_assoc, List.cons_append]
  · rw [after_concat]
    exact poll_of_pursued h.association

theorem Pursues.polls {networks : List Network} {n : Network} {polls : Nat} {history : List Operation}
    (more : Nat) (h : Pursues networks n polls history) :
    Pursues networks n (polls + more) (history ++ List.replicate more .poll) := by
  induction more with
  | zero => simpa using h
  | succ more ih =>
    rw [List.replicate_succ', ← List.append_assoc]
    exact ih.poll

theorem idle_or_pursues (networks : List Network) (history : List Operation) :
    (after networks history).association = .idle ∨ ∃ n polls, Pursues networks n polls history := by
  induction history using List.reverseRecOn with
  | nil => exact .inl rfl
  | append_singleton history o ih =>
    cases o with
    | join ssid password =>
      by_cases htaken : ∃ n, Takes { networks } ssid password n
      · obtain ⟨n, hn⟩ := htaken
        exact .inr ⟨n, 0, pursues_join history hn⟩
      · left
        rw [after_concat]
        apply join_of_not_takes
        intro n hn
        exact htaken ⟨n, takes_after.mp hn⟩
    | poll =>
      obtain hidle | ⟨n, polls, hn⟩ := ih
      · left
        rw [after_concat, operate, poll_of_idle hidle]
        exact hidle
      · exact .inr ⟨n, polls + 1, hn.poll⟩
    | leave => exact .inl (by rw [after_concat]; rfl)
    | drop => exact .inl (by rw [after_concat]; rfl)

theorem joining?_join {networks : List Network} (history : List Operation) {ssid password : Text}
    {n : Network} : (after networks (history ++ [.join ssid password])).joining? = some n ↔
      Takes { networks } ssid password n := by
  constructor
  · intro hjoining
    obtain ⟨left, hleft⟩ := joining?_eq_some.mp hjoining
    by_cases htaken : ∃ m, Takes { networks } ssid password m
    · obtain ⟨m, hm⟩ := htaken
      rw [eq_of_pursued (pursues_join history hm).association (.inl hjoining)]
      exact hm
    · rw [after_concat, operate, join_of_not_takes] at hleft
      · cases hleft
      · intro m hm
        exact htaken ⟨m, takes_after.mp hm⟩
  · intro htakes
    exact joining?_eq_some.mpr ⟨n.joinPolls, (pursues_join history htakes).association⟩

end Radio

/-! ## The registers along a history -/

namespace Transceiver

def operate (t : Transceiver) : Operation → Transceiver
  | .join ssid password => t.join ssid password
  | .poll => t.poll.2
  | .leave | .drop => t.leave

def after (networks : List Network) (history : List Operation) : Transceiver :=
  history.foldl operate { networks }

theorem Shows.operate {t : Transceiver} {r : Radio} (h : t.Shows r) (o : Operation) :
    (t.operate o).Shows (r.operate o) := by
  cases o with
  | join ssid password => exact h.join ssid password
  | poll => exact h.advance
  | leave => exact h.leave
  | drop => exact h.leave

theorem shows_after (networks : List Network) (history : List Operation) :
    (after networks history).Shows (Radio.after networks history) := by
  induction history using List.reverseRecOn with
  | nil => exact ⟨rfl, .inl rfl⟩
  | append_singleton history o ih =>
    rw [after, List.foldl_append, Radio.after_concat]
    exact ih.operate o

/-- The countdown outlives the join. -/
example : (after [{ ssid := [], rssi := 0, joinPolls := 3 }] [.join [] [], .poll, .leave]).pollsLeft = 2 := by
  decide

/-- After any history, a network is being joined or associated, never one of each, only if it is the one that the
last join asked for and nothing but questions came after that join, which it took up. Such a join answers the first
question that comes after as many as it takes, and every one after that. At every moment the registers show the radio
that has gone through the same history. -/
theorem follows_its_last_join (networks : List Network) (history : List Operation) :
    ((after networks history).joining = none ∨ (after networks history).associated = none) ∧
    (∀ n, (after networks history).joining = some n ∨ (after networks history).associated = some n →
      ∃ before ssid password polls, history = before ++ .join ssid password :: List.replicate polls .poll ∧
        Radio.Takes { networks } ssid password n) ∧
    (∀ ssid password n, (after networks (history ++ [.join ssid password])).joining = some n ↔
      Radio.Takes { networks } ssid password n) ∧
    (∀ ssid password n, (after networks (history ++ [.join ssid password])).joining = some n →
      ∀ polls : Nat,
        (after networks (history ++ .join ssid password :: List.replicate polls .poll)).poll.1 = true ↔
          max 0 n.joinPolls < polls + 1) ∧
    ((after networks history).poll.1 = true →
      ∀ more, (after networks (history ++ List.replicate more .poll)).poll.1 = true) ∧
    (after networks history).radio = Radio.after networks history := by
  have hshows := shows_after networks
  simp only [← (hshows _).joining?, ← (hshows _).network?, (hshows _).poll]
  refine ⟨?_, ?_, fun _ _ _ => Radio.joining?_join history, ?_, ?_, (hshows history).view⟩
  · rw [(hshows history).joining?, (hshows history).network?]
    exact (hshows history).exclusive
  · intro n hn
    obtain hidle | ⟨m, polls, hm⟩ := Radio.idle_or_pursues networks history
    · simp [Radio.joining?, Radio.network?, hidle] at hn
    · obtain ⟨before, ssid, password, hlast, htakes⟩ := hm.last
      rw [Radio.eq_of_pursued hm.association hn]
      exact ⟨before, ssid, password, polls, hlast, htakes⟩
  · intro ssid password n hjoining polls
    have hpursues := (Radio.pursues_join history ((Radio.joining?_join history).mp hjoining)).polls polls
    rw [Nat.zero_add, List.append_assoc, List.singleton_append] at hpursues
    exact Radio.poll_fst_of_pursued hpursues.association
  · intro hup more
    obtain hidle | ⟨n, polls, hn⟩ := Radio.idle_or_pursues networks history
    · rw [poll_of_idle hidle] at hup
      cases hup
    · have hdone := (Radio.poll_fst_of_pursued hn.association).mp hup
      apply (Radio.poll_fst_of_pursued (hn.polls more).association).mpr
      omega

def guest : Network :=
  { ssid := "Guest".toList, rssi := -60 }

/-- Two networks of one name, of which the first takes its time, and an open one. -/
def namesakes : List Network :=
  [{ ssid := "Home".toList, rssi := -45, password := some "secret".toList, joinPolls := 1 },
    { ssid := "Home".toList, rssi := -30 }, guest]

def restless : List Operation :=
  [.join "Home".toList "secret".toList, .poll, .join "Guest".toList "any".toList, .poll]

theorem follows_its_last_join_of_restless :
    (after namesakes restless).joining = none ∧
    (∃ before ssid password polls, restless = before ++ .join ssid password :: List.replicate polls .poll ∧
      Radio.Takes { networks := namesakes } ssid password guest) ∧
    (∀ more, (after namesakes (restless ++ List.replicate more .poll)).poll.1 = true) ∧
    (after namesakes (restless ++ [.drop])).associated = none ∧
    (after namesakes (restless ++ [.join "Home".toList []])).joining = none ∧
    (after namesakes (restless ++ [.join "Home".toList "secret".toList])).joining = namesakes.head? ∧
    ∀ polls : Nat, (after namesakes (restless ++ .join "Home".toList "secret".toList ::
      List.replicate polls .poll)).poll.1 = true ↔ 0 < polls := by
  obtain ⟨-, hlast, hjoining, hpolls, hstays, -⟩ := follows_its_last_join namesakes restless
  refine ⟨by decide, hlast guest (.inr (by decide)), hstays (by decide), by decide, by decide, by decide, ?_⟩
  intro polls
  rw [hpolls "Home".toList "secret".toList _ ((hjoining _ _ _).mpr ⟨rfl, rfl, .inr rfl⟩)]
  dsimp only
  omega

/-! ## The radio of a board -/

/-- There are registers that show this radio, after some history of operations. -/
def Reaches (networks : List Network) (r : Radio) : Prop :=
  ∃ history, (after networks history).Shows r

namespace Reaches

variable {networks : List Network} {r : Radio} {b : Board}

theorem operate (h : Reaches networks r) (o : Operation) : Reaches networks (r.operate o) := by
  obtain ⟨history, hshows⟩ := h
  refine ⟨history ++ [o], ?_⟩
  rw [after, List.foldl_append]
  exact hshows.operate o

theorem awaited (h : Reaches networks r) (attempts : Nat) : Reaches networks (r.awaited attempts).1 := by
  induction attempts generalizing r with
  | zero => exact h.operate .poll
  | succ attempts ih =>
    simp only [Radio.awaited]
    split
    · exact h.operate .poll
    · exact ih (h.operate .poll)

theorem inquiry (h : Reaches networks b.radio) (q : Inquiry) :
    Reaches networks (b.execute q.order).1.radio := by
  have hpolled := h.operate .poll
  cases hn : b.radio.poll.2.network? with
  | none =>
    rw [inquiry_of_down q b hn]
    exact hpolled
  | some n =>
    obtain ⟨more, hrun⟩ := inquiry_of_up q b n hn
    rw [hrun]
    exact hpolled

theorem execute (h : Reaches networks b.radio) (o : Order) : Reaches networks (b.execute o).1.radio := by
  cases o with
  | connect ssid password =>
    change Reaches networks (b.connect ssid password).radio
    rw [connect_eq]
    exact ((h.operate (.join ssid password)).awaited joinAttempts).operate .poll
  | status => exact h.inquiry .status
  | address => exact h.inquiry .address
  | disconnect => exact h.operate .leave
  | _ =>
    rw [(kept_of_no_deeds _ (by rfl) b).1]
    exact h

theorem turn (h : Reaches networks b.radio) : Reaches networks b.turn.1.radio := by
  have hrun : Reaches networks
      (executeAll ((frame b.input).1.map Order.ofBytes) { b with input := (frame b.input).2 }).1.radio :=
    executeAll_keeps (I := fun b => Reaches networks b.radio) _ _ h fun o _ _ hb => Reaches.execute hb o
  simp only [Board.turn]
  generalize executeAll _ _ = run at hrun
  rcases run with ⟨b', _ | crash⟩
  · change Reaches networks b'.forward.radio
    rw [(byWire_forward b').radio]
    exact hrun
  · exact hrun

theorem befall (h : Reaches networks b.radio) (o : Occurrence) : Reaches networks (o.befall b).radio := by
  cases o with
  | poll => exact h.turn
  | order text => exact h.execute (.ofText text)
  | reset =>
    change Reaches networks b.reset.radio
    rw [reset_eq]
    exact h.operate .leave
  | dropRadio => exact h.operate .drop
  | _ => exact h

end Reaches

/-- Whatever happens to a board, its radio is the one that registers show which have gone through some history
of operations. -/
theorem shows_befallen (networks : List Network) (plans : List Plan) (occurrences : List Occurrence) :
    ∃ history, (after networks history).Shows ((boot networks plans).befallen occurrences).radio := by
  have hboot : Reaches networks (boot networks plans).radio := ⟨[], rfl, .inl rfl⟩
  change Reaches networks _
  generalize boot networks plans = b at hboot
  induction occurrences generalizing b with
  | nil => exact hboot
  | cons o occurrences ih => exact ih _ (hboot.befall o)

end Transceiver

end StationLink.Board
