import StationLink.Proofs.Text.Numbers

/-!
# Two readers of numbers

The number at the beginning of a text is read in two ways, from answers and from orders. Both readers look for
blanks, a sign and the longest run of decimal digits. They part at a run that goes on with a digit without place
value, and at a run of too many digits: what one of them reads or reports, the other takes for no number.
-/

namespace StationLink.Text

/-! ## Blanks are no digits -/

theorem CodeRanges.not_holds_of_apart {table other : CodeRanges} {c : Char}
    (hapart : ∀ r ∈ table, ∀ s ∈ other, r.2 < s.1 ∨ s.2 < r.1) (hc : table.holds c = true) :
    other.holds c = false := by
  obtain ⟨r, hr, hin⟩ := List.any_eq_true.mp hc
  rw [CodeRanges.holds, List.any_eq_false]
  intro s hs
  simp only [Bool.and_eq_true, decide_eq_true_eq] at hin ⊢
  have := hapart r hr s hs
  omega

theorem isDecimal_of_isBlank (c : Char) (h : isBlank c = true) : isDecimal c = false := by
  have hapart : ∀ r ∈ blanks, ∀ z ∈ decimalZeros, r.2 < z ∨ z + 10 ≤ r.1 := by decide
  obtain ⟨r, hr, hin⟩ := List.any_eq_true.mp h
  rw [isDecimal, digitValue?, Option.isSome_map, Bool.eq_false_iff, ne_eq, List.find?_isSome]
  rintro ⟨z, hz, hdigit⟩
  simp only [Bool.and_eq_true, decide_eq_true_eq] at hin hdigit
  have := hapart r hr z hz
  omega

theorem isDigit_of_isBlank (c : Char) (h : isBlank c = true) : isDigit c = false := by
  rw [isDigit, isDecimal_of_isBlank c h, CodeRanges.not_holds_of_apart (by decide) h]
  rfl

theorem isBlank_of_isDecimal (c : Char) (h : isDecimal c = true) : isBlank c = false := by
  cases hblank : isBlank c with
  | false => rfl
  | true => cases h.symm.trans (isDecimal_of_isBlank c hblank)

theorem takeWhile_isDigit_trimEnd (t : Text) : (trimEnd t).takeWhile isDigit = t.takeWhile isDigit := by
  obtain ⟨more, ht, hmore⟩ := exists_trimEnd t
  conv => rhs; rw [ht]
  have hnone : more.takeWhile isDigit = [] := by
    cases more with
    | nil => rfl
    | cons c more => exact List.takeWhile_cons_of_neg (by simp [isDigit_of_isBlank c (hmore c List.mem_cons_self)])
  rw [List.takeWhile_append, hnone, List.append_nil]
  split
  · rename_i hall
    exact (List.takeWhile_prefix isDigit).eq_of_length hall
  · rfl

theorem not_of_mem_head?_dropWhile {α : Type} (p : α → Bool) (l : List α) :
    ∀ a ∈ (l.dropWhile p).head?, p a = false := by
  intro a ha
  have hnot := List.head?_dropWhile_not p l
  rw [Option.mem_def.mp ha] at hnot
  exact hnot

theorem trimEnd_append_of_no_blank (t u : Text) (h : ∀ c ∈ t, isBlank c = false) :
    trimEnd (t ++ u) = t ++ trimEnd u := by
  induction t with
  | nil => rfl
  | cons c t ih =>
    obtain ⟨hc, ht⟩ := List.forall_mem_cons.mp h
    rw [List.cons_append, List.cons_append, ← ih ht]
    exact trimEnd_append_cons [] (t ++ u) c hc

/-! ## The parts that are read -/

namespace Numeral

/-- A text as a reader of numbers finds it, each part as long as it can be. -/
structure Opening (t blanks sign digits rest : Text) : Prop where
  whole : t = blanks ++ (sign ++ (digits ++ rest))
  blank : ∀ c ∈ blanks, isBlank c = true
  afterBlanks : ∀ c ∈ (sign ++ (digits ++ rest)).head?, isBlank c = false
  sign : sign = ['-'] ∨ sign = ['+'] ∨ sign = [] ∧ ∀ c ∈ (digits ++ rest).head?, c ≠ '-' ∧ c ≠ '+'
  decimal : ∀ c ∈ digits, isDecimal c = true
  afterDigits : ∀ c ∈ rest.head?, isDecimal c = false

def signed (sign digits : Text) : Int :=
  withSign (decide (sign = ['-'])) (ofDigits (digits.filterMap digitValue?))

/-- The digits go on with one that has no place value. -/
def Adorned (rest : Text) : Prop :=
  ∃ c ∈ rest.head?, isDigit c = true

instance (rest : Text) : Decidable (Adorned rest) :=
  inferInstanceAs (Decidable (∃ c ∈ rest.head?, isDigit c = true))

/-- A number that is not there is zero. -/
def Leading.orZero? : Leading → Option Int
  | .absent => some 0
  | .overlong => none
  | .value n => some n

theorem exists_takeSign (t : Text) :
    ∃ sign, t = sign ++ (takeSign t).2 ∧
      (sign = ['-'] ∨ sign = ['+'] ∨ sign = [] ∧ ∀ c ∈ (takeSign t).2.head?, c ≠ '-' ∧ c ≠ '+') := by
  rw [takeSign.eq_def]
  split
  · exact ⟨['-'], rfl, .inl rfl⟩
  · exact ⟨['+'], rfl, .inr (.inl rfl)⟩
  · rename_i hminus hplus
    refine ⟨[], rfl, .inr (.inr ⟨rfl, ?_⟩)⟩
    rintro c hc
    obtain ⟨u, rfl⟩ := List.head?_eq_some_iff.mp hc
    constructor
    · rintro rfl
      exact hminus u rfl
    · rintro rfl
      exact hplus u rfl

theorem exists_opening (t : Text) : ∃ blanks sign digits rest, Opening t blanks sign digits rest := by
  obtain ⟨sign, hsplit, hsign⟩ := exists_takeSign (trimStart t)
  have hparts : (takeSign (trimStart t)).2.takeWhile isDecimal ++ (takeSign (trimStart t)).2.dropWhile isDecimal =
      (takeSign (trimStart t)).2 := List.takeWhile_append_dropWhile
  refine ⟨t.takeWhile isBlank, sign, (takeSign (trimStart t)).2.takeWhile isDecimal,
    (takeSign (trimStart t)).2.dropWhile isDecimal, ?_⟩
  constructor
  · rw [hparts, ← hsplit]
    exact List.takeWhile_append_dropWhile.symm
  · exact List.all_eq_true.mp List.all_takeWhile
  · rw [hparts, ← hsplit]
    exact not_of_mem_head?_dropWhile isBlank t
  · rw [hparts]
    exact hsign
  · exact List.all_eq_true.mp List.all_takeWhile
  · exact not_of_mem_head?_dropWhile isDecimal _

/-! ## What is read of them -/

theorem takeSign_append {sign t : Text}
    (hsign : sign = ['-'] ∨ sign = ['+'] ∨ sign = [] ∧ ∀ c ∈ t.head?, c ≠ '-' ∧ c ≠ '+') :
    takeSign (sign ++ t) = (decide (sign = ['-']), t) := by
  obtain rfl | rfl | ⟨rfl, ht⟩ := hsign
  · rfl
  · rfl
  · cases t with
    | nil => rfl
    | cons c t =>
      obtain ⟨hminus, hplus⟩ := ht c rfl
      simp [takeSign, hminus, hplus]

namespace Opening

variable {t blanks sign digits rest : Text}

theorem trimStart (h : Opening t blanks sign digits rest) : trimStart t = sign ++ (digits ++ rest) := by
  rw [Text.trimStart, h.whole, List.dropWhile_append_of_pos h.blank]
  cases hrest : sign ++ (digits ++ rest) with
  | nil => rfl
  | cons c u =>
    have hc : isBlank c = false := h.afterBlanks c (by rw [hrest]; rfl)
    exact List.dropWhile_cons_of_neg (by simp [hc])

theorem takeSign (h : Opening t blanks sign digits rest) :
    takeSign (Text.trimStart t) = (decide (sign = ['-']), digits ++ rest) := by
  rw [h.trimStart, takeSign_append h.sign]

theorem run (h : Opening t blanks sign digits rest) : (digits ++ rest).takeWhile isDecimal = digits := by
  rw [List.takeWhile_append_of_pos h.decimal]
  cases rest with
  | nil => simp
  | cons c u =>
    have hc : isDecimal c = false := h.afterDigits c rfl
    simp [hc]

theorem leading (h : Opening t blanks sign digits rest) : leading t =
    if digits = [] then .absent
    else if digits.length ≤ limit then .value (signed sign digits) else .overlong := by
  simp only [Numeral.leading, h.takeSign, h.run, signed]

/-- The blanks that are cut off at the end belong to what follows the digits. -/
theorem trim (h : Opening t blanks sign digits rest) : trim t = sign ++ (digits ++ trimEnd rest) := by
  have hsign : ∀ c ∈ sign, isBlank c = false := by
    obtain rfl | rfl | ⟨rfl, -⟩ := h.sign
    · exact List.forall_mem_singleton.mpr (by decide)
    · exact List.forall_mem_singleton.mpr (by decide)
    · simp
  have hdigits : ∀ c ∈ digits, isBlank c = false := fun c hc => isBlank_of_isDecimal c (h.decimal c hc)
  rw [Text.trim, h.trimStart, trimEnd_append_of_no_blank _ _ hsign, trimEnd_append_of_no_blank _ _ hdigits]

theorem takeSign_trim (h : Opening t blanks sign digits rest) :
    Numeral.takeSign (Text.trim t) = (decide (sign = ['-']), digits ++ trimEnd rest) := by
  rw [h.trim, takeSign_append]
  obtain hminus | hplus | ⟨hnone, hhead⟩ := h.sign
  · exact .inl hminus
  · exact .inr (.inl hplus)
  · refine .inr (.inr ⟨hnone, fun c hc => hhead c ?_⟩)
    obtain ⟨more, hmore⟩ := trimEnd_isPrefix rest
    rw [← hmore, ← List.append_assoc, List.head?_append, hc]
    rfl

theorem lenient (h : Opening t blanks sign digits rest) : lenient t =
    if Adorned rest ∨ limit < digits.length then 0 else signed sign digits := by
  have hdigit : ∀ c ∈ digits, isDigit c = true := fun c hc => by simp [isDigit, h.decimal c hc]
  have hrun : (digits ++ trimEnd rest).takeWhile isDigit = digits ++ rest.takeWhile isDigit := by
    rw [List.takeWhile_append_of_pos hdigit, takeWhile_isDigit_trimEnd]
  simp only [Numeral.lenient, h.takeSign_trim, hrun]
  by_cases hadorned : Adorned rest
  · obtain ⟨c, hc, hcdigit⟩ := hadorned
    obtain ⟨u, rfl⟩ := List.head?_eq_some_iff.mp hc
    have hnot : isDecimal c = false := h.afterDigits c rfl
    simp [hcdigit, hnot, Adorned]
  · have hnone : rest.takeWhile isDigit = [] := by
      cases rest with
      | nil => rfl
      | cons c u => exact List.takeWhile_cons_of_neg fun hc => hadorned ⟨c, rfl, hc⟩
    have hall : digits.all isDecimal = true := List.all_eq_true.mpr h.decimal
    simp only [hnone, List.append_nil, hall, Bool.true_and, decide_eq_true_eq, hadorned, false_or]
    by_cases hlength : digits.length ≤ limit
    · rw [if_pos hlength, if_neg (by omega)]
      rfl
    · rw [if_neg hlength, if_pos (by omega)]

end Opening

/-- Both readers take the sign and the decimal digits, and ignore what follows, up to two differences. Where the
digits go on with one without place value, the reader of orders reads nothing; and of too many digits it reads
nothing, where the reader of answers reports them. -/
theorem readers_agree_but_adorned_or_overlong (t : Text) :
    ∃ blanks sign digits rest, Opening t blanks sign digits rest ∧
      leading t = (if digits = [] then .absent
        else if digits.length ≤ limit then .value (signed sign digits) else .overlong) ∧
      lenient t = (if Adorned rest ∨ limit < digits.length then 0 else signed sign digits) ∧
      ((leading t).orZero? = some (lenient t) ↔
        digits.length ≤ limit ∧ (Adorned rest → signed sign digits = 0)) := by
  obtain ⟨blanks, sign, digits, rest, hopening⟩ := exists_opening t
  refine ⟨blanks, sign, digits, rest, hopening, hopening.leading, hopening.lenient, ?_⟩
  rw [hopening.leading, hopening.lenient]
  by_cases hdigits : digits = []
  · have hzero : signed sign [] = 0 := by
      rw [signed, withSign]
      split <;> rfl
    simp [hdigits, hzero, Leading.orZero?]
  · by_cases hlength : digits.length ≤ limit
    · have hshort : ¬ limit < digits.length := by omega
      simp only [hdigits, hlength, hshort, if_true, if_false, or_false, true_and, Leading.orZero?,
        Option.some.injEq]
      by_cases hadorned : Adorned rest
      · simp [hadorned]
      · simp [hadorned]
    · simp [hdigits, hlength, Leading.orZero?]

/-- A superscript behind the digits. -/
example : leading "12²".toList = .value 12 ∧ lenient "12²".toList = 0 := by decide

end Numeral

end StationLink.Text
