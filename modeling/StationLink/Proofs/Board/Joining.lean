import StationLink.Proofs.Board.Association

/-!
# How a join ends

Two counters run against each other: the attempts of the board, and the countdown of the radio, which
every question moves, also the one that ends the waiting and the one that decides. So a join that is
taken up succeeds up to two polls beyond the last rest.
-/

namespace StationLink.Board

open Text Protocol

/-- The first network of that name takes the join up. -/
structure Radio.Takes (r : Radio) (ssid password : Text) (n : Network) : Prop where
  first : r.find? ssid = some n
  reachable : n.reachable = true
  password : n.password = none ∨ n.password = some password

theorem Network.admits_iff (n : Network) (password : Text) :
    n.admits password = true ↔ n.reachable = true ∧ (n.password = none ∨ n.password = some password) := by
  rw [Network.admits, Bool.and_eq_true]
  cases n.password <;> simp

theorem begun_of_takes {r : Radio} {ssid password : Text} {n : Network} (h : r.Takes ssid password n) :
    begun r.networks ssid password = some { network := n } := by
  have hfind : r.networks.find? (fun n => n.ssid = ssid) = some n := h.first
  have hadmits : n.admits password = true := (n.admits_iff password).mpr ⟨h.reachable, h.password⟩
  simp [begun, hfind, hadmits]

theorem takes_of_begun {r : Radio} {ssid password : Text} {a : Attempt}
    (h : begun r.networks ssid password = some a) : r.Takes ssid password a.network := by
  rw [begun] at h
  split at h
  · rename_i n hfind
    split at h
    · rename_i hadmits
      obtain ⟨hreachable, hpassword⟩ := (n.admits_iff password).mp hadmits
      rw [← Option.some.inj h]
      exact ⟨hfind, hreachable, hpassword⟩
    · cases h
  · cases h

theorem begun_of_not_takes {r : Radio} {ssid password : Text} (h : ∀ n, ¬ r.Takes ssid password n) :
    begun r.networks ssid password = none := by
  cases hbegun : begun r.networks ssid password with
  | none => rfl
  | some a => exact absurd (takes_of_begun hbegun) (h a.network)

/-! ## Dots -/

theorem dots_of_joining (attempts : Nat) (r : Radio) (n : Network) (left : Int)
    (h : r.association = .joining n left) : (r.awaited attempts).2 = min attempts left.toNat := by
  induction attempts generalizing r left with
  | zero => simp [Radio.awaited]
  | succ attempts ih =>
    by_cases hleft : left ≤ 0
    · have hup : r.poll.1 = true := by simp [Radio.poll, h, hleft]
      rw [Radio.awaited, if_pos hup]
      omega
    · have hdown : ¬ r.poll.1 = true := by simp [Radio.poll, h, hleft]
      have hnext : r.poll.2.association = .joining n (left - 1) := by simp [Radio.poll, h, hleft]
      have hrest := ih r.poll.2 (left - 1) hnext
      rw [Radio.awaited, if_neg hdown]
      dsimp only
      omega

theorem dots_of_idle (attempts : Nat) (r : Radio) (h : r.association = .idle) :
    (r.awaited attempts).2 = attempts := by
  have hpoll := poll_of_idle h
  induction attempts with
  | zero => rfl
  | succ attempts ih => simp [Radio.awaited, hpoll, ih]

theorem Radio.join_of_takes {r : Radio} {ssid password : Text} {n : Network} (h : r.Takes ssid password n) :
    (r.join ssid password).association = .joining n n.joinPolls := by
  have hadmits : n.admits password = true := (n.admits_iff password).mpr ⟨h.reachable, h.password⟩
  simp [Radio.join, h.first, hadmits]

theorem Radio.join_of_not_takes {r : Radio} {ssid password : Text} (h : ∀ n, ¬ r.Takes ssid password n) :
    (r.join ssid password).association = .idle := by
  cases hfind : r.find? ssid with
  | none => simp [Radio.join, hfind]
  | some n =>
    have hadmits : n.admits password = false := by
      rw [Bool.eq_false_iff, ne_eq, n.admits_iff]
      rintro ⟨hreachable, hpassword⟩
      exact h n ⟨hfind, hreachable, hpassword⟩
    simp [Radio.join, hfind, hadmits]

theorem waits_of_takes {r : Radio} {ssid password : Text} {n : Network} (h : r.Takes ssid password n) :
    r.waits ssid password = min joinAttempts n.joinPolls.toNat :=
  dots_of_joining joinAttempts _ n n.joinPolls (Radio.join_of_takes h)

theorem waits_of_not_takes {r : Radio} {ssid password : Text} (h : ∀ n, ¬ r.Takes ssid password n) :
    r.waits ssid password = joinAttempts :=
  dots_of_idle joinAttempts _ (Radio.join_of_not_takes h)

/-! ## The network joined -/

theorem network?_joined_of_takes {r : Radio} {ssid password : Text} {n : Network}
    (h : r.Takes ssid password n) :
    (r.joined ssid password).network? = if n.joinPolls ≤ 21 then some n else none := by
  have hassociation := association_joined r ssid password
  rw [begun_of_takes h] at hassociation
  have hnetwork : (r.joined ssid password).network? = if n.joinPolls < (22 : Nat) then some n else none :=
    network?_of_progress hassociation
  rw [hnetwork]
  split
  · rw [if_pos (by omega)]
  · rw [if_neg (by omega)]

theorem network?_joined_of_not_takes {r : Radio} {ssid password : Text}
    (h : ∀ n, ¬ r.Takes ssid password n) : (r.joined ssid password).network? = none := by
  have hassociation := association_joined r ssid password
  rw [begun_of_not_takes h] at hassociation
  rw [Radio.network?, hassociation]
  rfl

/-- A join is over, with this many dots printed and as many rests between its polls. -/
structure JoinOutcome (ssid password : Text) (dots : Nat) (b b' : Board) : Prop where
  success : b'.wifi = .connected ↔ ∃ n, b.radio.Takes ssid password n ∧ n.joinPolls ≤ 21
  rests : b'.rests = b.rests ++ List.replicate dots joinRest
  taken : ∀ n, b.radio.Takes ssid password n → (dots : Int) = min 20 (max 0 n.joinPolls)
  refused : (∀ n, ¬ b.radio.Takes ssid password n) → dots = 20
  joined : ∀ n, b.radio.Takes ssid password n → n.joinPolls ≤ 21 →
    b'.radio.network? = some n ∧ b'.output = b.output ++ Utf8.encodeLines
      ["CONNECTING:".toList ++ ssid, List.replicate dots '.', "OK:Connected".toList,
        "IP:".toList ++ n.ip]
  failed : b'.wifi ≠ .connected →
    b'.wifi = .idle ∧ b'.radio.network? = none ∧ b'.output = b.output ++ Utf8.encodeLines
      ["CONNECTING:".toList ++ ssid, List.replicate dots '.', "ERROR:Connection failed".toList]

/-- Whatever the radio is on to, and whatever the networks are. -/
theorem join_outcome (ssid password : Text) (b : Board) :
    ∃ dots, JoinOutcome ssid password dots b (b.connect ssid password) := by
  have hnetwork (h : (b.radio.joined ssid password).network?.isSome = true) :
      ∃ n, b.radio.Takes ssid password n ∧ n.joinPolls ≤ 21 := by
    by_cases htaken : ∃ n, b.radio.Takes ssid password n
    · obtain ⟨n, hn⟩ := htaken
      rw [network?_joined_of_takes hn] at h
      by_cases hsoon : n.joinPolls ≤ 21
      · exact ⟨n, hn, hsoon⟩
      · rw [if_neg hsoon] at h
        cases h
    · rw [network?_joined_of_not_takes (not_exists.mp htaken)] at h
      cases h
  refine ⟨b.radio.waits ssid password, ?_⟩
  rw [connect_eq, Radio.joinLines]
  constructor
  · rw [joinState_eq_connected]
    constructor
    · exact hnetwork
    · rintro ⟨n, hn, hsoon⟩
      rw [network?_joined_of_takes hn, if_pos hsoon]
      rfl
  · rfl
  · intro n hn
    rw [waits_of_takes hn, joinAttempts]
    omega
  · exact waits_of_not_takes
  · intro n hn hsoon
    have hjoined : (b.radio.joined ssid password).network? = some n := by
      rw [network?_joined_of_takes hn, if_pos hsoon]
    refine ⟨hjoined, ?_⟩
    rw [joinVerdict, hjoined]
    rfl
  · intro hfailed
    have hnone : (b.radio.joined ssid password).network? = none := by
      rw [← Option.not_isSome_iff_eq_none, ← joinState_eq_connected]
      exact hfailed
    refine ⟨(joinState_settled _).resolve_left hfailed, hnone, ?_⟩
    rw [joinVerdict, hnone]

/-- The last number of polls that a join may take, and one more. -/
example :
    let near : Network := { ssid := "Home".toList, rssi := -45, joinPolls := 21 }
    let far : Network := { ssid := "Home".toList, rssi := -45, joinPolls := 22 }
    ((boot [near] []).connect "Home".toList []).wifi = .connected ∧
      ((boot [far] []).connect "Home".toList []).wifi = .idle := by
  decide

end StationLink.Board
