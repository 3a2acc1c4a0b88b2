import StationLink.Board.Transceiver

/-!
# The registers show a radio

Read as one association, the registers of a transceiver go through the operations as a radio does. That
they answer as it does takes more: never must a network be joined while there is one associated.
-/

namespace StationLink.Board

def Radio.joining? (r : Radio) : Option Network :=
  match r.association with
  | .joining n _ => some n
  | _ => none

namespace Transceiver

variable (t : Transceiver)

/-! ## The view of the registers -/

theorem radio_leave : t.leave.radio = t.radio.leave := rfl

theorem radio_join (ssid password : Text) :
    (t.join ssid password).radio = t.radio.join ssid password := by
  have hfind : t.radio.find? ssid = t.find? ssid := rfl
  rw [join, Radio.join, hfind]
  cases t.find? ssid with
  | none => rfl
  | some n =>
    dsimp only
    split
    · rfl
    · rfl

theorem radio_advance : t.advance.radio = t.radio.poll.2 := by
  rcases t with ⟨networks, _ | n, left, associated⟩
  · cases associated with
    | none => rfl
    | some n => rfl
  · by_cases hleft : left ≤ 0
    · simp [advance, radio, association, Radio.poll, hleft]
    · simp [advance, radio, association, Radio.poll, hleft]

theorem joining?_radio : t.radio.joining? = t.joining := by
  rcases t with ⟨networks, _ | n, left, _ | m⟩ <;> rfl

/-! ## One network at a time -/

/-- A transceiver that shows this radio, and is not on to two networks at once. -/
structure Shows (r : Radio) : Prop where
  view : t.radio = r
  exclusive : t.joining = none ∨ t.associated = none

namespace Shows

variable {t : Transceiver} {r : Radio}

theorem leave (h : t.Shows r) : t.leave.Shows r.leave :=
  ⟨h.view ▸ t.radio_leave, .inl rfl⟩

theorem join (h : t.Shows r) (ssid password : Text) :
    (t.join ssid password).Shows (r.join ssid password) := by
  refine ⟨h.view ▸ t.radio_join ssid password, ?_⟩
  rw [Transceiver.join]
  split
  · exact .inl rfl
  · split
    · exact .inr rfl
    · exact .inl rfl

theorem advance (h : t.Shows r) : t.advance.Shows r.poll.2 := by
  refine ⟨h.view ▸ t.radio_advance, ?_⟩
  rw [Transceiver.advance]
  split
  · exact h.exclusive
  · split
    · exact .inl rfl
    · exact h.exclusive

theorem joining? (h : t.Shows r) : r.joining? = t.joining :=
  h.view ▸ t.joining?_radio

theorem network? (h : t.Shows r) : r.network? = t.associated := by
  obtain ⟨rfl, hexclusive⟩ := h
  rcases t with ⟨networks, _ | n, left, _ | m⟩
  · rfl
  · rfl
  · rfl
  · simp at hexclusive

theorem poll (h : t.Shows r) : t.poll.1 = r.poll.1 := by
  rw [r.poll_fst, h.advance.network?]
  rfl

/-- A transceiver answers as the radio does that it shows. -/
theorem answers (h : t.Shows r) :
    t.poll.1 = r.poll.1 ∧ t.ssid = r.ssid ∧ t.rssi = r.rssi ∧ t.ip = r.ip ∧ t.networks = r.networks := by
  refine ⟨h.poll, ?_, ?_, ?_, congrArg Radio.networks h.view⟩
  · rw [Radio.ssid, h.network?]
    rfl
  · rw [Radio.rssi, h.network?]
    rfl
  · rw [Radio.ip, h.network?]
    rfl

end Shows

end Transceiver

end StationLink.Board
