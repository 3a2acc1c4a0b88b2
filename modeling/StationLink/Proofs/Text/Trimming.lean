import StationLink.Text.Blank
import StationLink.Text.Field

/-!
# Trimming around fixed characters

A character that is not blank stops the trimming from either side: what stands before it at the
beginning of a line, and what follows it, are trimmed apart from each other.
-/

namespace StationLink.Text

theorem trimStart_cons_of_not_blank (c : Char) (t : Text) (h : isBlank c = false) :
    trimStart (c :: t) = c :: t := by
  simp [trimStart, h]

theorem trimEnd_append_cons (t u : Text) (c : Char) (h : isBlank c = false) :
    trimEnd (t ++ c :: u) = t ++ c :: trimEnd u := by
  have hrev : (t ++ c :: u).reverse = u.reverse ++ c :: t.reverse := by simp
  rw [trimEnd, hrev, List.dropWhile_append]
  split
  · rename_i hu
    have hnil : u.reverse.dropWhile isBlank = [] := by simpa using hu
    simp [trimEnd, hnil, h]
  · simp [trimEnd]

theorem trim_cons_of_not_blank (c : Char) (t : Text) (h : isBlank c = false) :
    trim (c :: t) = c :: trimEnd t := by
  rw [trim, trimStart_cons_of_not_blank c t h]
  exact trimEnd_append_cons [] t c h

theorem trim_append_of_not_blank (start t : Text) (hne : start ≠ [])
    (h : start.any isBlank = false) : trim (start ++ t) = start ++ trimEnd t := by
  obtain ⟨c, rest, rfl⟩ := List.exists_cons_of_ne_nil hne
  obtain ⟨hc, hrest⟩ := Bool.or_eq_false_iff.mp h
  rw [List.cons_append, trim_cons_of_not_blank c _ hc, List.cons_append]
  congr 1
  clear h hne
  induction rest with
  | nil => rfl
  | cons d rest ih =>
    obtain ⟨hd, hrest⟩ := Bool.or_eq_false_iff.mp hrest
    rw [List.cons_append, List.cons_append, ← ih hrest]
    exact trimEnd_append_cons [] (rest ++ t) d hd

theorem trimEnd_of_not_blank (t : Text) (h : ∀ c ∈ t, isBlank c = false) : trimEnd t = t := by
  rw [trimEnd, List.reverse_eq_iff]
  cases ht : t.reverse with
  | nil => rfl
  | cons c rest =>
    have hc : isBlank c = false := h c (List.mem_reverse.mp (ht ▸ List.mem_cons_self))
    simp [hc]

theorem trim_of_not_blank (t : Text) (h : ∀ c ∈ t, isBlank c = false) : trim t = t := by
  cases t with
  | nil => rfl
  | cons c t =>
    rw [trim, trimStart_cons_of_not_blank c t (h c List.mem_cons_self)]
    exact trimEnd_of_not_blank (c :: t) h

theorem trim_append_blank (t : Text) (c : Char) (h : isBlank c = true) : trim (t ++ [c]) = trim t := by
  rw [trim, trim, trimStart, trimStart, List.dropWhile_append]
  split
  · rename_i ht
    have hnil : t.dropWhile isBlank = [] := by simpa using ht
    simp [hnil, h]
  · exact trimEnd_append_blank _ c h

theorem trimEnd_isPrefix (t : Text) : trimEnd t <+: t := by
  have hsuffix : t.reverse.dropWhile isBlank <:+ t.reverse := List.dropWhile_suffix isBlank
  rw [← List.reverse_prefix, List.reverse_reverse] at hsuffix
  exact hsuffix

theorem trim_isInfix (t : Text) : trim t <:+: t :=
  (trimEnd_isPrefix (trimStart t)).isInfix.trans (List.dropWhile_suffix isBlank).isInfix

theorem mem_of_mem_trim {c : Char} {t : Text} (h : c ∈ trim t) : c ∈ t :=
  (trim_isInfix t).subset h

theorem exists_trimEnd (t : Text) : ∃ rest, t = trimEnd t ++ rest ∧ ∀ c ∈ rest, isBlank c = true := by
  refine ⟨(t.reverse.takeWhile isBlank).reverse, ?_, ?_⟩
  · rw [trimEnd, ← List.reverse_append, List.takeWhile_append_dropWhile, List.reverse_reverse]
  · intro c hc
    exact List.all_eq_true.mp List.all_takeWhile c (List.mem_reverse.mp hc)

/-! ## Phrases -/

/-- A phrase does not begin before a text if its first character does not occur there. -/
theorem contains_prepend_of_not_mem {phrase : Text} {first : Char} (hfirst : phrase.head? = some first)
    (start t : Text) (hstart : first ∉ start) : contains phrase (start ++ t) = contains phrase t := by
  obtain ⟨rest, rfl⟩ := List.head?_eq_some_iff.mp hfirst
  induction start with
  | nil => rfl
  | cons c start ih =>
    obtain ⟨hc, hstart⟩ := not_or.mp (mt List.mem_cons.mpr hstart)
    have hne : (first == c) = false := beq_false_of_ne hc
    rw [List.cons_append, contains, ih hstart, List.isPrefixOf, hne]
    rfl

section

variable {phrase : Text} {last : Char} (hlast : phrase.getLast? = some last)

include hlast

theorem contains_snoc_of_ne (t : Text) (c : Char) (hc : c ≠ last) :
    contains phrase (t ++ [c]) = contains phrase t := by
  rw [Bool.eq_iff_iff, contains_iff, contains_iff, List.infix_concat_iff]
  constructor
  · rintro (hsuffix | hinfix)
    · obtain ⟨start, rfl⟩ := List.getLast?_eq_some_iff.mp hlast
      obtain ⟨before, hbefore⟩ := hsuffix
      rw [← List.append_assoc] at hbefore
      exact absurd (List.singleton_inj.mp (List.append_inj' hbefore rfl).2).symm hc
    · exact hinfix
  · exact .inr

/-- A phrase does not reach into what its last character does not occur in. -/
theorem contains_append_of_not_mem (t rest : Text) (hrest : last ∉ rest) :
    contains phrase (t ++ rest) = contains phrase t := by
  induction rest generalizing t with
  | nil => rw [List.append_nil]
  | cons c rest ih =>
    obtain ⟨hc, hrest⟩ := not_or.mp (mt List.mem_cons.mpr hrest)
    rw [← List.singleton_append, ← List.append_assoc, ih _ hrest,
      contains_snoc_of_ne hlast t c (Ne.symm hc)]

theorem contains_trimEnd (t : Text) (hblank : isBlank last = false) :
    contains phrase (trimEnd t) = contains phrase t := by
  obtain ⟨rest, ht, hrest⟩ := exists_trimEnd t
  have hmem : last ∉ rest := by
    intro hmem
    rw [hrest last hmem] at hblank
    cases hblank
  conv => rhs; rw [ht]
  exact (contains_append_of_not_mem hlast _ rest hmem).symm

end

/-! ## Lines that are shown -/

/-- What a reader keeps of lines: each without the blanks around it, and none that has only these. -/
def shown (ts : List Text) : List Text :=
  (ts.map trim).filter (· ≠ [])

theorem shown_append (ts us : List Text) : shown (ts ++ us) = shown ts ++ shown us := by
  simp [shown]

end StationLink.Text
