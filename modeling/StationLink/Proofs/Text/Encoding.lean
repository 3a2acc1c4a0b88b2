import StationLink.Text.Utf8
import Mathlib.Tactic.SplitIfs

/-!
# Encoding and decoding

A text that is encoded and decoded again is the same text, and the decoder is between two characters
after each of its characters. Line ends are single bytes that occur in no longer sequence, so that a
line may be cut at them before it is decoded.
-/

namespace StationLink.Text.Utf8

theorem run_one (a : UInt8) (ha : a.toNat < 0x80) :
    run none [a] = ([Char.ofNat a.toNat], none) := by
  simp [run, step, start, ha]

theorem run_two (a b : UInt8) (ha : 0xC2 ≤ a.toNat ∧ a.toNat < 0xE0)
    (hb : 0x80 ≤ b.toNat ∧ b.toNat ≤ 0xBF) :
    run none [a, b] = ([Char.ofNat (64 * (a.toNat - 0xC0) + (b.toNat - 0x80))], none) := by
  have h₁ : ¬ a.toNat < 0x80 := by omega
  have h₂ : ¬ a.toNat < 0xC2 := by omega
  simp [run, step, start, h₁, h₂, ha.2, hb]

theorem run_three (a b c : UInt8) (ha : 0xE0 ≤ a.toNat ∧ a.toNat < 0xF0)
    (hb : (if a.toNat = 0xE0 then 0xA0 else 0x80) ≤ b.toNat ∧
      b.toNat ≤ if a.toNat = 0xED then 0x9F else 0xBF)
    (hc : 0x80 ≤ c.toNat ∧ c.toNat ≤ 0xBF) :
    run none [a, b, c] =
      ([Char.ofNat (64 * (64 * (a.toNat - 0xE0) + (b.toNat - 0x80)) + (c.toNat - 0x80))], none) := by
  have h₁ : ¬ a.toNat < 0x80 := by omega
  have h₂ : ¬ a.toNat < 0xC2 := by omega
  have h₃ : ¬ a.toNat < 0xE0 := by omega
  have hstart : start a = ([], some ⟨1, if a.toNat = 0xE0 then 0xA0 else 0x80,
      if a.toNat = 0xED then 0x9F else 0xBF, a.toNat - 0xE0⟩) := by
    simp only [start, h₁, h₂, h₃, ha.2, if_true, if_false]
  simp only [run, step, hstart]
  rw [if_pos hb]
  simp [hc]

theorem run_four (a b c d : UInt8) (ha : 0xF0 ≤ a.toNat ∧ a.toNat < 0xF5)
    (hb : (if a.toNat = 0xF0 then 0x90 else 0x80) ≤ b.toNat ∧
      b.toNat ≤ if a.toNat = 0xF4 then 0x8F else 0xBF)
    (hc : 0x80 ≤ c.toNat ∧ c.toNat ≤ 0xBF) (hd : 0x80 ≤ d.toNat ∧ d.toNat ≤ 0xBF) :
    run none [a, b, c, d] =
      ([Char.ofNat (64 * (64 * (64 * (a.toNat - 0xF0) + (b.toNat - 0x80)) + (c.toNat - 0x80)) +
        (d.toNat - 0x80))], none) := by
  have h₁ : ¬ a.toNat < 0x80 := by omega
  have h₂ : ¬ a.toNat < 0xC2 := by omega
  have h₃ : ¬ a.toNat < 0xE0 := by omega
  have h₄ : ¬ a.toNat < 0xF0 := by omega
  have hstart : start a = ([], some ⟨2, if a.toNat = 0xF0 then 0x90 else 0x80,
      if a.toNat = 0xF4 then 0x8F else 0xBF, a.toNat - 0xF0⟩) := by
    simp only [start, h₁, h₂, h₃, h₄, ha.2, if_true, if_false]
  simp only [run, step, hstart]
  rw [if_pos hb]
  simp [hc, hd]

theorem toNat_ofNat_of_lt (n : Nat) (h : n < 256) : (UInt8.ofNat n).toNat = n := by
  rw [UInt8.toNat_ofNat']
  exact Nat.mod_eq_of_lt h

theorem toNat_valid (c : Char) : c.toNat < 0xD800 ∨ (0xDFFF < c.toNat ∧ c.toNat < 0x110000) :=
  c.valid

theorem encodeChar_eq (c : Char) :
    String.utf8EncodeChar c =
      if c.toNat ≤ 0x7F then [UInt8.ofNat c.toNat]
      else if c.toNat ≤ 0x7FF then
        [UInt8.ofNat (c.toNat / 64 % 32 + 0xC0), UInt8.ofNat (c.toNat % 64 + 0x80)]
      else if c.toNat ≤ 0xFFFF then
        [UInt8.ofNat (c.toNat / 4096 % 16 + 0xE0), UInt8.ofNat (c.toNat / 64 % 64 + 0x80),
          UInt8.ofNat (c.toNat % 64 + 0x80)]
      else
        [UInt8.ofNat (c.toNat / 262144 % 8 + 0xF0), UInt8.ofNat (c.toNat / 4096 % 64 + 0x80),
          UInt8.ofNat (c.toNat / 64 % 64 + 0x80), UInt8.ofNat (c.toNat % 64 + 0x80)] :=
  rfl

theorem run_encodeChar (c : Char) : run none (String.utf8EncodeChar c) = ([c], none) := by
  have hc : Char.ofNat c.toNat = c := Char.ofNat_toNat c
  have hv := toNat_valid c
  rw [encodeChar_eq]
  generalize c.toNat = v at hc hv
  have hlow : ∀ n, (UInt8.ofNat (n % 64 + 0x80)).toNat = n % 64 + 0x80 :=
    fun n => toNat_ofNat_of_lt _ (by omega)
  have hc₂ := hlow v
  have hc₃ := hlow (v / 64)
  have hc₄ := hlow (v / 4096)
  split_ifs with h₁ h₂ h₃
  · have ha := toNat_ofNat_of_lt v (by omega)
    rw [run_one _ (by omega), ha, hc]
  · have ha := toNat_ofNat_of_lt (v / 64 % 32 + 0xC0) (by omega)
    rw [run_two _ _ (by omega) (by omega), ha, hc₂]
    rw [show 64 * (v / 64 % 32 + 0xC0 - 0xC0) + (v % 64 + 0x80 - 0x80) = v by omega, hc]
  · have ha := toNat_ofNat_of_lt (v / 4096 % 16 + 0xE0) (by omega)
    rw [run_three _ _ _ (by omega) (by split_ifs <;> omega) (by omega), ha, hc₂, hc₃]
    rw [show 64 * (64 * (v / 4096 % 16 + 0xE0 - 0xE0) + (v / 64 % 64 + 0x80 - 0x80)) +
      (v % 64 + 0x80 - 0x80) = v by omega, hc]
  · have ha := toNat_ofNat_of_lt (v / 262144 % 8 + 0xF0) (by omega)
    rw [run_four _ _ _ _ (by omega) (by split_ifs <;> omega) (by omega) (by omega), ha, hc₂, hc₃, hc₄]
    rw [show 64 * (64 * (64 * (v / 262144 % 8 + 0xF0 - 0xF0) + (v / 4096 % 64 + 0x80 - 0x80)) +
      (v / 64 % 64 + 0x80 - 0x80)) + (v % 64 + 0x80 - 0x80) = v by omega, hc]

theorem run_encode (t : Text) : run none (encode t) = (t, none) := by
  induction t with
  | nil => rfl
  | cons c t ih =>
    have hcons : encode (c :: t) = String.utf8EncodeChar c ++ encode t := rfl
    rw [hcons, run_append, run_encodeChar, ih]
    rfl

theorem decode_encode (t : Text) : decode (encode t) = t := by
  simp [decode, run_encode, finish]

/-- A byte below 0x80 stands for itself: an encoded text has it only where it has the character. -/
theorem mem_encodeChar_of_ascii (c : Char) (b : UInt8) (hb : b.toNat < 0x80)
    (h : b ∈ String.utf8EncodeChar c) : c = Char.ofNat b.toNat := by
  have hc : Char.ofNat c.toNat = c := Char.ofNat_toNat c
  rw [encodeChar_eq] at h
  have hlead : ∀ n m, 0x80 ≤ n → n + m < 256 → b ≠ UInt8.ofNat (m + n) := by
    rintro n m hn hlt rfl
    rw [toNat_ofNat_of_lt _ (by omega)] at hb
    omega
  split_ifs at h with h₁ h₂ h₃
  · obtain rfl := List.mem_singleton.mp h
    rw [toNat_ofNat_of_lt _ (by omega), hc]
  · simp only [List.mem_cons, List.not_mem_nil, or_false] at h
    rcases h with h | h
    · exact absurd h (hlead _ _ (by omega) (by omega))
    · exact absurd h (hlead _ _ (by omega) (by omega))
  · simp only [List.mem_cons, List.not_mem_nil, or_false] at h
    rcases h with h | h | h
    · exact absurd h (hlead _ _ (by omega) (by omega))
    · exact absurd h (hlead _ _ (by omega) (by omega))
    · exact absurd h (hlead _ _ (by omega) (by omega))
  · simp only [List.mem_cons, List.not_mem_nil, or_false] at h
    rcases h with h | h | h | h
    · exact absurd h (hlead _ _ (by omega) (by omega))
    · exact absurd h (hlead _ _ (by omega) (by omega))
    · exact absurd h (hlead _ _ (by omega) (by omega))
    · exact absurd h (hlead _ _ (by omega) (by omega))

theorem mem_encode_of_ascii (t : Text) (b : UInt8) (hb : b.toNat < 0x80) (h : b ∈ encode t) :
    Char.ofNat b.toNat ∈ t := by
  obtain ⟨c, hc, hbc⟩ := List.mem_flatMap.mp h
  rw [← mem_encodeChar_of_ascii c b hb hbc]
  exact hc

theorem not_mem_encode (t : Text) (b : UInt8) (hb : b.toNat < 0x80) (h : Char.ofNat b.toNat ∉ t) :
    b ∉ encode t :=
  fun hmem => h (mem_encode_of_ascii t b hb hmem)

/-! ## Lengths -/

/-- The characters that an open sequence will come to at least. -/
def owed (s : State) : Nat :=
  s.toList.length

theorem length_start (b : UInt8) : (start b).1.length + owed (start b).2 = 1 := by
  simp only [start]
  split_ifs <;> rfl

theorem length_step_le (s : State) (b : UInt8) : (step s b).1.length + owed (step s b).2 ≤ 1 + owed s := by
  cases s with
  | none => exact Nat.le_of_eq (length_start b)
  | some p =>
    simp only [step]
    split
    · split
      · exact Nat.le_succ 1
      · exact Nat.le_succ 1
    · have hstart := length_start b
      simp only [List.length_cons, owed, Option.toList_some, List.length_nil] at hstart ⊢
      omega

theorem length_run_le (s : State) (bs : Bytes) : (run s bs).1.length + owed (run s bs).2 ≤ bs.length + owed s := by
  induction bs generalizing s with
  | nil => simp [run]
  | cons b bs ih =>
    have hstep := length_step_le s b
    have hrun := ih (step s b).2
    simp only [run, List.length_append, List.length_cons]
    omega

theorem length_decode_le (bs : Bytes) : (decode bs).length ≤ bs.length := by
  have hrun := length_run_le none bs
  have hfinish (s : State) : (finish s).length = owed s := by
    cases s <;> rfl
  simp only [decode, List.length_append, hfinish]
  exact hrun

end StationLink.Text.Utf8
