import StationLink.Proofs.Board.Dispatch
import StationLink.Proofs.Board.Outcomes
import StationLink.Proofs.Board.Sockets

/-!
# How the radio comes to be associated

A join is given up after a fixed number of polls, but the radio goes on with it, and every later
question about the link is one more poll. So the association is told by the last join that was not left,
and by how often the board has been asked since.
-/

namespace StationLink.Board

open Text Protocol

/-! ## Polls -/

/-- What a join has come to after some polls. -/
def Network.progress (n : Network) (polls : Nat) : Association :=
  if n.joinPolls < polls then .associated n else .joining n (n.joinPolls - polls)

def joinPatience : Nat := joinAttempts + 2

theorem poll_of_idle {r : Radio} (h : r.association = .idle) : r.poll = (false, r) := by
  simp only [Radio.poll, h]

theorem poll_of_begun {r : Radio} {n : Network} (h : r.association = .joining n n.joinPolls) :
    r.poll.2.association = n.progress 1 := by
  simp only [Radio.poll, h, Network.progress]
  split
  · rw [if_pos (by omega)]
  · rw [if_neg (by omega)]
    rfl

theorem poll_of_progress {r : Radio} {n : Network} {polls : Nat} (h : r.association = n.progress polls) :
    r.poll.2.association = n.progress (polls + 1) := by
  by_cases hdone : n.joinPolls < polls
  · rw [Network.progress, if_pos hdone] at h
    rw [Network.progress, if_pos (by omega), Radio.poll, h]
    exact h
  · rw [Network.progress, if_neg hdone] at h
    simp only [Radio.poll, h, Network.progress]
    split
    · rw [if_pos (by omega)]
    · rw [if_neg (by omega)]
      simp only [Association.joining.injEq, true_and]
      omega

theorem network?_of_progress {r : Radio} {n : Network} {polls : Nat} (h : r.association = n.progress polls) :
    r.network? = if n.joinPolls < polls then some n else none := by
  rw [Radio.network?, h, Network.progress]
  by_cases hdone : n.joinPolls < polls
  · rw [if_pos hdone, if_pos hdone]
  · rw [if_neg hdone, if_neg hdone]

theorem awaited_of_progress {r : Radio} {n : Network} {polls : Nat} (attempts : Nat)
    (h : r.poll.2.association = n.progress polls) :
    (r.awaited attempts).1.association = n.progress (polls + attempts) := by
  induction attempts generalizing r polls with
  | zero => exact h
  | succ attempts ih =>
    simp only [Radio.awaited]
    split
    -- A join that comes about early makes fewer polls, but more of them would change nothing.
    · rename_i hup
      rw [Radio.poll_fst, network?_of_progress h] at hup
      by_cases hdone : n.joinPolls < polls
      · rw [h, Network.progress, Network.progress, if_pos hdone, if_pos (by omega)]
      · rw [if_neg hdone] at hup
        cases hup
    · have hrest := ih (poll_of_progress h)
      rw [hrest, Nat.add_right_comm, Nat.add_assoc polls]

theorem awaited_of_idle {r : Radio} (attempts : Nat) (h : r.association = .idle) :
    (r.awaited attempts).1.association = .idle := by
  induction attempts with
  | zero => simpa [Radio.awaited, poll_of_idle h] using h
  | succ attempts ih => simpa [Radio.awaited, poll_of_idle h] using ih

/-! ## Attempts -/

/-- A join that has been taken up and not been left, and how often the board has been asked since. -/
structure Attempt where
  network : Network
  asked : Nat := 0
deriving DecidableEq, Repr

/-- The join comes about while it is waited for. -/
def Attempt.Prompt (a : Attempt) : Prop :=
  a.network.joinPolls < joinPatience

/-- The join has come about. -/
def Attempt.Up (a : Attempt) : Prop :=
  a.network.joinPolls < joinPatience + a.asked

instance (a : Attempt) : Decidable a.Prompt :=
  inferInstanceAs (Decidable (_ < _))

instance (a : Attempt) : Decidable a.Up :=
  inferInstanceAs (Decidable (_ < _))

theorem Attempt.Prompt.up {a : Attempt} (h : a.Prompt) : a.Up := by
  rw [Attempt.Prompt] at h
  rw [Attempt.Up]
  omega

def associationOf : Option Attempt → Association
  | none => .idle
  | some a => a.network.progress (joinPatience + a.asked)

def begun (networks : List Network) (ssid password : Text) : Option Attempt :=
  match networks.find? fun n => n.ssid = ssid with
  | some n => if n.admits password then some { network := n } else none
  | none => none

theorem association_joined (r : Radio) (ssid password : Text) :
    (r.joined ssid password).association = associationOf (begun r.networks ssid password) := by
  have hidle (h : (r.join ssid password).association = .idle) :
      (r.joined ssid password).association = .idle := by
    have hawaited := awaited_of_idle joinAttempts h
    rw [Radio.joined, poll_of_idle hawaited]
    exact hawaited
  rw [begun]
  cases hfind : r.networks.find? fun n => n.ssid = ssid with
  | none => exact hidle (by simp only [Radio.join, Radio.find?, hfind])
  | some n =>
    cases hadmits : n.admits password with
    | false =>
      simp only [hadmits, Bool.false_eq_true, if_false]
      exact hidle (by simp [Radio.join, Radio.find?, hfind, hadmits])
    | true =>
      have hbegun : (r.join ssid password).association = .joining n n.joinPolls := by
        simp [Radio.join, Radio.find?, hfind, hadmits]
      have hjoined := poll_of_progress (awaited_of_progress joinAttempts (poll_of_begun hbegun))
      simp only [hadmits, if_true]
      rw [Radio.joined, hjoined]
      rfl

theorem network?_of_association {r : Radio} {a : Option Attempt} (h : r.association = associationOf a) :
    r.network?.isSome = true ↔ ∃ t ∈ a, t.Up := by
  cases a with
  | none =>
    rw [Radio.network?, h]
    simp [associationOf]
  | some t =>
    rw [network?_of_progress h]
    simp only [Option.mem_def, Option.some.injEq, exists_eq_left', Attempt.Up]
    split
    · simp_all
    · simp_all

theorem asked_of_begun {networks : List Network} {ssid password : Text} {t : Attempt}
    (h : t ∈ begun networks ssid password) : t.asked = 0 := by
  rw [begun] at h
  split at h
  · split at h
    · rw [← Option.some.inj h]
    · cases h
  · cases h

/-! ## Deeds -/

inductive Deed where
  | join (ssid password : Text)
  | ask
  | leave
deriving DecidableEq, Repr

def Order.deeds : Order → List Deed
  | .connect ssid password => [.join ssid password]
  | .status | .address => [.ask]
  | .disconnect => [.leave]
  | _ => []

/-- A turn does what the texts do that it carries out. -/
def Occurrence.deeds : Occurrence → Board → List Deed
  | .poll, b => (dispatchTurn b).1.flatMap fun text => (Order.ofText text).deeds
  | .order text, _ => (Order.ofText text).deeds
  | .reset, _ | .dropRadio, _ => [.leave]
  | _, _ => []

def deeds (b : Board) : List Occurrence → List Deed
  | [] => []
  | o :: occurrences => o.deeds b ++ deeds (o.befall b) occurrences

def Deed.after (networks : List Network) : Deed → Option Attempt → Option Attempt
  | .join ssid password, _ => begun networks ssid password
  | .ask, a => a.map fun a => { a with asked := a.asked + 1 }
  | .leave, _ => none

def attempt (networks : List Network) (a : Option Attempt) (ds : List Deed) : Option Attempt :=
  ds.foldl (fun a d => d.after networks a) a

theorem attempt_append (networks : List Network) (a : Option Attempt) (ds es : List Deed) :
    attempt networks a (ds ++ es) = attempt networks (attempt networks a ds) es :=
  List.foldl_append

/-- A join succeeds if it comes about while it is waited for. -/
def Deed.Succeeds (networks : List Network) : Deed → Prop
  | .join ssid password => ∃ t ∈ begun networks ssid password, t.Prompt
  | _ => False

theorem network?_joined (r : Radio) (ssid password : Text) :
    (r.joined ssid password).network?.isSome = true ↔
      (Deed.join ssid password).Succeeds r.networks := by
  have hprompt (t : Attempt) (ht : t ∈ begun r.networks ssid password) : t.Up ↔ t.Prompt := by
    rw [Attempt.Up, asked_of_begun ht]
    rfl
  rw [network?_of_association (association_joined r ssid password)]
  constructor
  · rintro ⟨t, ht, hup⟩
    exact ⟨t, ht, (hprompt t ht).mp hup⟩
  · rintro ⟨t, ht, hdone⟩
    exact ⟨t, ht, (hprompt t ht).mpr hdone⟩

theorem not_prompt_after {networks : List Network} {a : Option Attempt} {d : Deed}
    (h : ∀ t ∈ a, ¬ t.Prompt) (hd : ¬ d.Succeeds networks) : ∀ t ∈ d.after networks a, ¬ t.Prompt := by
  intro t ht hprompt
  cases d with
  | join ssid password => exact hd ⟨t, ht, hprompt⟩
  | ask =>
    obtain ⟨u, hu, rfl⟩ := Option.map_eq_some_iff.mp ht
    exact h u hu hprompt
  | leave => cases ht

theorem not_prompt_attempt {networks : List Network} {a : Option Attempt} {ds : List Deed}
    (h : ∀ t ∈ a, ¬ t.Prompt) (hds : ∀ d ∈ ds, ¬ d.Succeeds networks) :
    ∀ t ∈ attempt networks a ds, ¬ t.Prompt := by
  induction ds generalizing a with
  | nil => exact h
  | cons d ds ih =>
    exact ih (not_prompt_after h (hds d List.mem_cons_self)) fun e he => hds e (List.mem_cons_of_mem _ he)

end StationLink.Board
