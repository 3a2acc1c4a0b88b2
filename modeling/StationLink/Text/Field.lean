import StationLink.Text.Basic

/-!
# Fields of a line

The line protocol knows a line by its beginning or by a phrase inside it, and parts its fields
with colons: at the first one, at the last one, or at every one.
-/

namespace StationLink.Text

/-- What follows a given beginning. -/
def after? : Text → Text → Option Text
  | [], t => some t
  | _ :: _, [] => none
  | a :: start, b :: t => if a = b then after? start t else none

/-- Whether a phrase occurs somewhere in a text. -/
def contains (phrase : Text) : Text → Bool
  | [] => phrase.isEmpty
  | c :: t => phrase.isPrefixOf (c :: t) || contains phrase t

/-- The two sides of the first mark. -/
def cutFirst? (mark : Char) : Text → Option (Text × Text)
  | [] => none
  | c :: t =>
    if c = mark then some ([], t)
    else (cutFirst? mark t).map fun sides => (c :: sides.1, sides.2)

/-- The two sides of the last mark. -/
def cutLast? (mark : Char) (t : Text) : Option (Text × Text) :=
  (cutFirst? mark t.reverse).map fun sides => (sides.2.reverse, sides.1.reverse)

theorem after?_eq_some_iff (start t rest : Text) :
    after? start t = some rest ↔ t = start ++ rest := by
  induction start generalizing t with
  | nil => simp [after?]
  | cons a start ih =>
    cases t with
    | nil => simp [after?]
    | cons b t =>
      by_cases h : a = b
      · subst h
        simpa [after?] using ih t
      · have h' : b ≠ a := fun e => h e.symm
        simp [after?, h, h']

theorem contains_iff (phrase t : Text) : contains phrase t = true ↔ phrase <:+: t := by
  induction t with
  | nil => simp [contains]
  | cons c t ih => simp [contains, ih, List.infix_cons_iff]

theorem not_contains_of_not_mem {phrase t : Text} {c : Char} (hc : c ∈ phrase) (ht : c ∉ t) :
    contains phrase t = false := by
  rw [Bool.eq_false_iff, ne_eq, contains_iff]
  exact fun hphrase => ht (hphrase.subset hc)

theorem not_contains_of_isInfix {phrase t u : Text} (h : t <:+: u) (hu : contains phrase u = false) :
    contains phrase t = false := by
  rw [Bool.eq_false_iff, ne_eq, contains_iff] at hu ⊢
  exact fun hphrase => hu (hphrase.trans h)

theorem cutFirst?_eq_some_iff (mark : Char) (t left right : Text) :
    cutFirst? mark t = some (left, right) ↔ t = left ++ mark :: right ∧ mark ∉ left := by
  induction t generalizing left with
  | nil => simp [cutFirst?]
  | cons c t ih =>
    by_cases h : c = mark
    · subst h
      cases left with
      | nil => simp [cutFirst?, eq_comm]
      | cons a left =>
        simp only [cutFirst?, if_true, Option.some.injEq, Prod.mk.injEq]
        constructor
        · rintro ⟨h, _⟩
          cases h
        · rintro ⟨h, hn⟩
          simp only [List.cons_append, List.cons.injEq] at h
          exact absurd (by simp [h.1]) hn
    · cases left with
      | nil => simp [cutFirst?, h]
      | cons a left =>
        simp only [cutFirst?, h, if_false, Option.map_eq_some_iff, Prod.mk.injEq,
          List.cons.injEq, List.cons_append, List.mem_cons, not_or]
        constructor
        · rintro ⟨⟨l, r⟩, hl, ⟨rfl, rfl⟩, rfl⟩
          obtain ⟨rfl, hn⟩ := (ih l).mp hl
          exact ⟨⟨rfl, rfl⟩, fun e => h e.symm, hn⟩
        · rintro ⟨⟨rfl, ht⟩, _, hn⟩
          exact ⟨(left, right), (ih left).mpr ⟨ht, hn⟩, ⟨rfl, rfl⟩, rfl⟩

theorem cutLast?_eq_some_iff (mark : Char) (t left right : Text) :
    cutLast? mark t = some (left, right) ↔ t = left ++ mark :: right ∧ mark ∉ right := by
  simp only [cutLast?, Option.map_eq_some_iff, Prod.exists, Prod.mk.injEq]
  constructor
  · rintro ⟨l, r, h, rfl, rfl⟩
    obtain ⟨ht, hn⟩ := (cutFirst?_eq_some_iff mark _ l r).mp h
    refine ⟨?_, by simpa using hn⟩
    have := congrArg List.reverse ht
    simpa using this
  · rintro ⟨rfl, hn⟩
    exact ⟨right.reverse, left.reverse,
      (cutFirst?_eq_some_iff mark _ _ _).mpr ⟨by simp, by simpa using hn⟩, by simp, by simp⟩

end StationLink.Text
