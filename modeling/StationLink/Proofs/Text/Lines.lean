import StationLink.Proofs.Text.Encoding
import StationLink.Proofs.Text.Trimming
import StationLink.Text.Field

/-!
# Lines on their way

Lines travel as their texts in UTF-8, each with a line feed behind it. A text without line feeds is
one line, and bytes without line feeds decode to such a text, also where they are not UTF-8.
-/

namespace StationLink.Text.Utf8

/-- A line as it travels: its text and a line feed. -/
def encodeLine (t : Text) : Bytes :=
  encode t ++ [0x0A]

def encodeLines (ts : List Text) : Bytes :=
  ts.flatMap encodeLine

theorem encode_snoc_lineFeed (t : Text) : encode (t ++ ['\n']) = encodeLine t := by
  rw [encode_append]
  rfl

theorem encodeLines_cons (t : Text) (ts : List Text) :
    encodeLines (t :: ts) = encodeLine t ++ encodeLines ts :=
  List.flatMap_cons

theorem encodeLines_append (ts us : List Text) :
    encodeLines (ts ++ us) = encodeLines ts ++ encodeLines us :=
  List.flatMap_append

theorem encodeLines_singleton (t : Text) : encodeLines [t] = encodeLine t := by
  simp [encodeLines]

theorem decode_encodeLine (t : Text) : decode (encodeLine t) = t ++ ['\n'] := by
  rw [← encode_snoc_lineFeed, decode_encode]

/-- What a line is worth to its reader does not depend on the line feed. -/
theorem trim_decode_encodeLine (t : Text) : trim (decode (encodeLine t)) = trim t := by
  rw [decode_encodeLine]
  exact trim_append_blank t '\n' (by decide)

/-- A text that has line feeds is as many lines, as it travels. -/
theorem exists_lines_of_text (t : Text) :
    ∃ line lines, encodeLines (line :: lines) = encodeLine t ∧ ∀ u ∈ line :: lines, '\n' ∉ u := by
  induction t with
  | nil => exact ⟨[], [], encodeLines_singleton [], by simp⟩
  | cons c t ih =>
    obtain ⟨line, lines, hlines, hfree⟩ := ih
    have hcons : encodeLine (c :: t) = encode [c] ++ encodeLine t := by
      rw [encodeLine, encodeLine, ← List.append_assoc, ← encode_append]
      rfl
    by_cases hc : c = '\n'
    · subst hc
      refine ⟨[], line :: lines, ?_, ?_⟩
      · rw [encodeLines_cons, hlines, hcons]
        rfl
      · intro u hu
        rcases List.mem_cons.mp hu with rfl | hu
        · simp
        · exact hfree u hu
    · refine ⟨c :: line, lines, ?_, ?_⟩
      · rw [hcons, ← hlines, encodeLines_cons, encodeLines_cons, ← List.append_assoc, encodeLine, encodeLine,
          ← List.append_assoc, ← encode_append]
        rfl
      · intro u hu
        rcases List.mem_cons.mp hu with rfl | hu
        · have hline := hfree line List.mem_cons_self
          simpa using ⟨fun heq => hc heq.symm, hline⟩
        · exact hfree u (List.mem_cons_of_mem line hu)

theorem exists_lines (texts : List Text) :
    ∃ lines, encodeLines lines = encodeLines texts ∧ ∀ t ∈ lines, '\n' ∉ t := by
  induction texts with
  | nil => exact ⟨[], rfl, by simp⟩
  | cons text texts ih =>
    obtain ⟨line, lines, hlines, hfree⟩ := exists_lines_of_text text
    obtain ⟨more, hmore, hfree'⟩ := ih
    refine ⟨line :: lines ++ more, ?_, List.forall_mem_append.mpr ⟨hfree, hfree'⟩⟩
    rw [encodeLines_append, hlines, hmore, encodeLines_cons]

theorem encodeLines_eq_encode (ts : List Text) :
    encodeLines ts = encode (ts.flatMap (· ++ ['\n'])) := by
  induction ts with
  | nil => rfl
  | cons t ts ih => rw [encodeLines_cons, ih, List.flatMap_cons, encode_append, encode_snoc_lineFeed]

/-- Lines can be told from how they travel. -/
theorem encodeLines_inj (ts us : List Text) (ht : ∀ t ∈ ts, '\n' ∉ t) (hu : ∀ u ∈ us, '\n' ∉ u)
    (h : encodeLines ts = encodeLines us) : ts = us := by
  have htexts : ts.flatMap (· ++ ['\n']) = us.flatMap (· ++ ['\n']) := by
    rw [encodeLines_eq_encode, encodeLines_eq_encode] at h
    rw [← decode_encode (ts.flatMap _), h, decode_encode]
  clear h
  induction ts generalizing us with
  | nil =>
    cases us with
    | nil => rfl
    | cons u us => simp at htexts
  | cons t ts ih =>
    cases us with
    | nil => simp at htexts
    | cons u us =>
      obtain ⟨ht₁, hts⟩ := List.forall_mem_cons.mp ht
      obtain ⟨hu₁, hus⟩ := List.forall_mem_cons.mp hu
      -- Both sides are cut at their first line feed.
      simp only [List.flatMap_cons, List.append_assoc, List.singleton_append] at htexts
      have hcut (t rest : Text) (h : '\n' ∉ t) : cutFirst? '\n' (t ++ '\n' :: rest) = some (t, rest) :=
        (cutFirst?_eq_some_iff _ _ _ _).mpr ⟨rfl, h⟩
      have hsides := hcut t (ts.flatMap (· ++ ['\n'])) ht₁
      rw [htexts, hcut u _ hu₁] at hsides
      obtain ⟨hfirst, hrest⟩ := Prod.mk.inj (Option.some.inj hsides)
      rw [hfirst, ih us hts hus hrest.symm]

/-- A text without line feeds is one of the lines that it travels in. -/
theorem mem_of_encodeLines_eq {lines texts : List Text} {t : Text} (ht : t ∈ texts) (hfree : '\n' ∉ t)
    (hlines : ∀ line ∈ lines, '\n' ∉ line) (h : encodeLines lines = encodeLines texts) : t ∈ lines := by
  obtain ⟨before, after, rfl⟩ := List.append_of_mem ht
  obtain ⟨first, hfirst, hfirst'⟩ := exists_lines before
  obtain ⟨last, hlast, hlast'⟩ := exists_lines after
  have hsplit : lines = first ++ t :: last := by
    refine encodeLines_inj _ _ hlines
      (List.forall_mem_append.mpr ⟨hfirst', List.forall_mem_cons.mpr ⟨hfree, hlast'⟩⟩) ?_
    rw [h, encodeLines_append, encodeLines_append, encodeLines_cons, encodeLines_cons, hfirst, hlast]
  rw [hsplit]
  exact List.mem_append_right _ List.mem_cons_self

/-! ## No line feed comes from other bytes -/

/-- A sequence that is neither the line feed's nor a longer spelling of it. -/
def Partial.Beyond (p : Partial) : Prop :=
  2 ≤ if p.missing = 0 then p.value else 64 * p.value + (p.low - 0x80)

theorem ofNat_ne_lineFeed (n : Nat) (h : n ≠ 10) : Char.ofNat n ≠ '\n' := by
  intro hc
  have hn : (Char.ofNat n).toNat = 10 := congrArg Char.toNat hc
  by_cases hv : n.isValidChar
  · rw [Char.ofNat, dif_pos hv] at hn
    exact h hn
  · rw [Char.ofNat, dif_neg hv] at hn
    cases hn

theorem start_keeps (b : UInt8) (hb : b ≠ 0x0A) :
    '\n' ∉ (start b).1 ∧ ∀ p ∈ (start b).2, p.Beyond := by
  have hn : b.toNat ≠ 10 := fun h => hb (UInt8.toNat_inj.mp h)
  have hrep : '\n' ≠ replacement := by decide
  simp only [start]
  by_cases h₁ : b.toNat < 0x80
  · rw [if_pos h₁]
    exact ⟨by simpa using (ofNat_ne_lineFeed _ hn).symm, by simp⟩
  by_cases h₂ : b.toNat < 0xC2
  · rw [if_neg h₁, if_pos h₂]
    exact ⟨by simpa using hrep, by simp⟩
  by_cases h₃ : b.toNat < 0xE0
  · rw [if_neg h₁, if_neg h₂, if_pos h₃]
    refine ⟨by simp, ?_⟩
    rintro p hp
    obtain rfl := Option.some.inj hp
    simp only [Partial.Beyond, if_true]
    omega
  by_cases h₄ : b.toNat < 0xF0
  · rw [if_neg h₁, if_neg h₂, if_neg h₃, if_pos h₄]
    refine ⟨by simp, ?_⟩
    rintro p hp
    obtain rfl := Option.some.inj hp
    rw [Partial.Beyond, if_neg (by simp)]
    dsimp only
    split <;> omega
  by_cases h₅ : b.toNat < 0xF5
  · rw [if_neg h₁, if_neg h₂, if_neg h₃, if_neg h₄, if_pos h₅]
    refine ⟨by simp, ?_⟩
    rintro p hp
    obtain rfl := Option.some.inj hp
    rw [Partial.Beyond, if_neg (by simp)]
    dsimp only
    split <;> omega
  · rw [if_neg h₁, if_neg h₂, if_neg h₃, if_neg h₄, if_neg h₅]
    exact ⟨by simpa using hrep, by simp⟩

theorem step_keeps (s : State) (b : UInt8) (hs : ∀ p ∈ s, p.Beyond) (hb : b ≠ 0x0A) :
    '\n' ∉ (step s b).1 ∧ ∀ p ∈ (step s b).2, p.Beyond := by
  cases s with
  | none => exact start_keeps b hb
  | some p =>
    have hp : p.Beyond := hs p rfl
    simp only [step]
    split
    · rename_i hrange
      simp only [Partial.Beyond] at hp
      split
      · rename_i hmissing
        rw [if_pos hmissing] at hp
        exact ⟨by simpa using (ofNat_ne_lineFeed _ (by omega)).symm, by simp⟩
      · rename_i m hmissing
        rw [if_neg (by omega)] at hp
        refine ⟨by simp, ?_⟩
        rintro q hq
        obtain rfl := Option.some.inj hq
        simp only [Partial.Beyond]
        split_ifs <;> omega
    · obtain ⟨htext, hstate⟩ := start_keeps b hb
      exact ⟨by simpa [htext] using (show '\n' ≠ replacement by decide), hstate⟩

theorem run_keeps (s : State) (bs : Bytes) (hs : ∀ p ∈ s, p.Beyond) (hbs : 0x0A ∉ bs) :
    '\n' ∉ (run s bs).1 := by
  induction bs generalizing s with
  | nil => simp [run]
  | cons b bs ih =>
    have hb : b ≠ 0x0A := fun h => hbs (h ▸ List.mem_cons_self)
    obtain ⟨htext, hstate⟩ := step_keeps s b hs hb
    have hrest := ih (step s b).2 hstate fun h => hbs (List.mem_cons_of_mem b h)
    simp [run, htext, hrest]

theorem not_mem_decode (bs : Bytes) (h : 0x0A ∉ bs) : '\n' ∉ decode bs := by
  have hrun := run_keeps none bs (by simp) h
  have hfinish : ∀ s : State, '\n' ∉ finish s := by
    rintro (_ | p)
    · simp [finish]
    · simpa [finish] using (show '\n' ≠ replacement by decide)
  simp [decode, hrun, hfinish]

end StationLink.Text.Utf8
