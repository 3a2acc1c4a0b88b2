import StationLink.Text.Basic

/-!
# Parting a sequence at its marks

A sequence with marks in it falls into the pieces that a mark ends and the tail behind the last
mark. The parting is a relation, so that it says what the pieces are and not how they are found. It
comes to one result, which `Parted.splitOnP_eq` computes.
-/

namespace StationLink.Text

variable {α : Type}

/-- The pieces that a mark ends, in order, and what stands behind the last mark. -/
inductive Parted (mark : α → Bool) : List α → List (List α) → List α → Prop where
  | tail {t : List α} : (∀ x ∈ t, mark x = false) → Parted mark t [] t
  | piece {l xs : List α} {e : α} {ls : List (List α)} {t : List α} :
      (∀ x ∈ l, mark x = false) → mark e = true → Parted mark xs ls t →
      Parted mark (l ++ e :: xs) (l :: ls) t

namespace Parted

variable {mark : α → Bool} {xs ys t : List α} {ls ms : List (List α)}

theorem tail_unmarked (h : Parted mark xs ls t) : ∀ x ∈ t, mark x = false := by
  induction h with
  | tail ht => exact ht
  | piece _ _ _ ih => exact ih

theorem piece_unmarked (h : Parted mark xs ls t) : ∀ l ∈ ls, ∀ x ∈ l, mark x = false := by
  induction h with
  | tail _ =>
    intro l hl
    cases hl
  | piece hpiece _ _ ih => exact List.forall_mem_cons.mpr ⟨hpiece, ih⟩

theorem splitOnP_eq (h : Parted mark xs ls t) : xs.splitOnP mark = ls ++ [t] := by
  induction h with
  | tail ht => exact List.splitOnP_eq_singleton ht
  | piece hl he _ ih =>
    rw [List.splitOnP_append_cons_of_forall_mem hl _ he, ih]
    rfl

theorem unique {u : List α} (h : Parted mark xs ls t) (h' : Parted mark xs ms u) :
    ls = ms ∧ t = u := by
  have heq : ls ++ [t] = ms ++ [u] := h.splitOnP_eq.symm.trans h'.splitOnP_eq
  obtain ⟨hls, htu⟩ := List.append_inj' heq rfl
  exact ⟨hls, List.singleton_inj.mp htu⟩

/-- The open tail is parted again together with what comes after it. -/
theorem append {u : List α} (h : Parted mark xs ls t) (h' : Parted mark (t ++ ys) ms u) :
    Parted mark (xs ++ ys) (ls ++ ms) u := by
  induction h with
  | tail _ => exact h'
  | piece hl he _ ih =>
    rw [List.append_assoc, List.cons_append, List.cons_append]
    exact .piece hl he (ih h')

/-- Either there is no mark, or the tail is shorter than the whole. -/
theorem eq_or_lt (h : Parted mark xs ls t) : ls = [] ∧ t = xs ∨ t.length < xs.length := by
  induction h with
  | tail _ => exact .inl ⟨rfl, rfl⟩
  | piece _ _ _ ih =>
    right
    rcases ih with ⟨_, rfl⟩ | hlt
    · simp
      omega
    · simp
      omega

end Parted

theorem exists_parted (mark : α → Bool) (xs : List α) : ∃ ls t, Parted mark xs ls t := by
  induction xs with
  | nil => exact ⟨[], [], .tail (by simp)⟩
  | cons x xs ih =>
    obtain ⟨ls, t, h⟩ := ih
    by_cases hx : mark x = true
    · exact ⟨[] :: ls, t, .piece (l := []) (by simp) hx h⟩
    · have hx' : mark x = false := by simpa using hx
      cases h with
      | tail ht => exact ⟨[], x :: xs, .tail (by simpa [hx'] using ht)⟩
      | @piece l _ e ls _ hl he h =>
        exact ⟨(x :: l) :: ls, t, .piece (l := x :: l) (by simpa [hx'] using hl) he h⟩

end StationLink.Text
