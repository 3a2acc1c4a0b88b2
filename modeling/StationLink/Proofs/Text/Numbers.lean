import StationLink.Proofs.Text.Trimming
import StationLink.Text.Numeral

/-!
# Written numbers are read back

A number that is written is read back from the text it was written to, by the reader that takes a
whole field and by the one that stops where the digits end.
-/

namespace StationLink.Text.Numeral

theorem digitValue?_digitChar (d : Nat) (h : d < 10) : digitValue? d.digitChar = some d := by
  have hall : ∀ d < 10, digitValue? d.digitChar = some d := by decide
  exact hall d h

theorem isDigit_of_mem_toDigits {n : Nat} {c : Char} (h : c ∈ Nat.toDigits 10 n) :
    c.isDigit = true :=
  Nat.isDigit_of_mem_toDigits (by decide) (by decide) h

theorem isBlank_of_charIsDigit (c : Char) (h : c.isDigit = true) : isBlank c = false := by
  simp only [Char.isDigit, Bool.and_eq_true, decide_eq_true_eq] at h
  have h₁ : 48 ≤ c.toNat := UInt32.le_iff_toNat_le.mp h.1
  have h₂ : c.toNat ≤ 57 := UInt32.le_iff_toNat_le.mp h.2
  simp [isBlank, CodeRanges.holds, blanks]
  omega

theorem takeSign_of_charIsDigit (c : Char) (t : Text) (h : c.isDigit = true) :
    takeSign (c :: t) = (false, c :: t) := by
  have h₁ : c ≠ '-' := by
    rintro rfl
    cases h
  have h₂ : c ≠ '+' := by
    rintro rfl
    cases h
  simp [takeSign, h₁, h₂]

theorem ofDigits_append_singleton (ds : List Nat) (d : Nat) :
    ofDigits (ds ++ [d]) = 10 * ofDigits ds + d := by
  simp [ofDigits]

theorem ofDigits_toDigits (n : Nat) : ofDigits ((Nat.toDigits 10 n).filterMap digitValue?) = n := by
  induction n using Nat.strongRecOn with
  | ind n ih =>
    rw [Nat.toDigits_eq_if (by decide)]
    split
    · rename_i h
      simp [digitValue?_digitChar n h, ofDigits]
    · rename_i h
      have hmod : n % 10 < 10 := Nat.mod_lt n (by decide)
      rw [List.filterMap_append, List.filterMap_cons, digitValue?_digitChar _ hmod,
        List.filterMap_nil, ofDigits_append_singleton, ih (n / 10) (by omega)]
      omega

theorem foldl_digits_lt (ds : List Nat) (n : Nat) (h : ∀ d ∈ ds, d < 10) :
    ds.foldl (fun n d => 10 * n + d) n < (n + 1) * Nat.pow 10 ds.length := by
  induction ds generalizing n with
  | nil => simp
  | cons d ds ih =>
    have hd : d < 10 := h d List.mem_cons_self
    have hds := ih (10 * n + d) fun e he => h e (List.mem_cons_of_mem d he)
    have hstep : 10 * n + d + 1 ≤ 10 * (n + 1) := by omega
    have hpow : Nat.pow 10 (d :: ds).length = 10 * Nat.pow 10 ds.length := Nat.pow_succ'
    rw [List.foldl_cons, hpow]
    calc
      _ < (10 * n + d + 1) * Nat.pow 10 ds.length := hds
      _ ≤ 10 * (n + 1) * Nat.pow 10 ds.length := Nat.mul_le_mul_right _ hstep
      _ = (n + 1) * (10 * Nat.pow 10 ds.length) := by rw [Nat.mul_comm 10 (n + 1), Nat.mul_assoc]

theorem ofDigits_lt (ds : List Nat) (h : ∀ d ∈ ds, d < 10) :
    ofDigits ds < Nat.pow 10 ds.length := by
  have hfold := foldl_digits_lt ds 0 h
  rwa [Nat.zero_add, Nat.one_mul] at hfold

theorem write?_eq_some_iff (n : Int) (t : Text) :
    write? n = some t ↔ (Nat.toDigits 10 n.natAbs).length ≤ limit ∧
      t = if n < 0 then '-' :: Nat.toDigits 10 n.natAbs else Nat.toDigits 10 n.natAbs := by
  simp only [write?]
  split
  · rename_i h
    simp [h, eq_comm]
  · rename_i h
    simp [h]

theorem withSign_natAbs (n : Int) : withSign (decide (n < 0)) n.natAbs = n := by
  by_cases h : n < 0
  · simp only [withSign, h, decide_true, if_true]
    omega
  · simp only [withSign, h, decide_false, Bool.false_eq_true, if_false]
    omega

theorem natAbs_withSign (negative : Bool) (n : Nat) : (withSign negative n).natAbs = n := by
  cases negative <;> simp [withSign]

theorem takeSign_of_write? (n : Int) (t rest : Text) (h : write? n = some t) :
    takeSign (t ++ rest) = (decide (n < 0), Nat.toDigits 10 n.natAbs ++ rest) := by
  obtain ⟨_, rfl⟩ := (write?_eq_some_iff n t).mp h
  split
  · rename_i hn
    simp [takeSign, hn]
  · rename_i hn
    obtain ⟨c, ds, hds⟩ := List.exists_cons_of_ne_nil (Nat.toDigits_ne_nil (n := n.natAbs) (b := 10))
    have hc : c.isDigit = true :=
      isDigit_of_mem_toDigits (n := n.natAbs) (by rw [hds]; exact List.mem_cons_self)
    rw [hds, List.cons_append, takeSign_of_charIsDigit c _ hc]
    simp [hn]

theorem mem_write? (n : Int) (t : Text) (c : Char) (h : write? n = some t) (hc : c ∈ t) :
    c.isDigit = true ∨ c = '-' := by
  obtain ⟨_, rfl⟩ := (write?_eq_some_iff n t).mp h
  split at hc
  · rcases List.mem_cons.mp hc with rfl | hc
    · exact .inr rfl
    · exact .inl (isDigit_of_mem_toDigits hc)
  · exact .inl (isDigit_of_mem_toDigits hc)

theorem not_mem_write? (n : Int) (t : Text) (c : Char) (h : write? n = some t)
    (hdigit : c.isDigit = false) (hsign : c ≠ '-') : c ∉ t := by
  intro hc
  rcases mem_write? n t c h hc with hd | hd
  · rw [hdigit] at hd
    cases hd
  · exact hsign hd

theorem not_blank_of_mem_write? (n : Int) (t : Text) (h : write? n = some t) :
    ∀ c ∈ t, isBlank c = false := by
  intro c hc
  rcases mem_write? n t c h hc with hd | rfl
  · exact isBlank_of_charIsDigit c hd
  · decide

theorem write?_ne_nil (n : Int) : write? n ≠ some [] := by
  intro h
  obtain ⟨_, h⟩ := (write?_eq_some_iff n []).mp h
  split at h
  · cases h
  · exact Nat.toDigits_ne_nil h.symm

theorem write?_isSome_iff_lt (n : Int) :
    (write? n).isSome = true ↔ n.natAbs < Nat.pow 10 limit := by
  have hlimit : 0 < limit := by decide
  rw [write?_isSome_iff]
  -- The bound is not to be computed.
  generalize limit = most at hlimit ⊢
  exact Nat.length_toDigits_le_iff (by decide) hlimit

theorem write?_eq_none_iff (n : Int) : write? n = none ↔ Nat.pow 10 limit ≤ n.natAbs := by
  rw [← Option.not_isSome_iff_eq_none, write?_isSome_iff_lt, Nat.not_lt]

/-- A number that was read from digits is short enough to be written. -/
theorem exists_write?_withSign (negative : Bool) (digits : List Nat) (hdigits : ∀ d ∈ digits, d < 10)
    (hlength : digits.length ≤ limit) :
    ∃ number, write? (withSign negative (ofDigits digits)) = some number := by
  rw [← Option.isSome_iff_exists, write?_isSome_iff_lt, natAbs_withSign]
  generalize limit = most at hlength ⊢
  exact Nat.lt_of_lt_of_le (ofDigits_lt digits hdigits) (Nat.pow_le_pow_right (by decide) hlength)

theorem exists_write?_lenient (t : Text) : ∃ number, write? (lenient t) = some number := by
  simp only [lenient]
  split
  · rename_i h
    obtain ⟨_, hlen⟩ := Bool.and_eq_true_iff.mp h
    generalize List.takeWhile isDigit _ = run at hlen
    have hrun : run.length ≤ limit := of_decide_eq_true hlen
    refine exists_write?_withSign _ _ ?_ (Nat.le_trans (List.length_filterMap_le _ _) hrun)
    intro d hd
    obtain ⟨c, _, hc⟩ := List.mem_filterMap.mp hd
    exact digitValue?_lt c d hc
  · exact ⟨['0'], rfl⟩

theorem grouped?_lt (t : Text) (digits : List Nat) (h : grouped? t = some digits) :
    ∀ d ∈ digits, d < 10 := by
  induction t using grouped?.induct generalizing digits with
  | case1 => cases h
  | case2 c =>
    obtain ⟨d, hd, rfl⟩ := Option.map_eq_some_iff.mp h
    exact List.forall_mem_singleton.mpr (digitValue?_lt c d hd)
  | case3 c t ih =>
    obtain ⟨d, hd, h⟩ := Option.bind_eq_some_iff.mp h
    obtain ⟨ds, hds, h⟩ := Option.bind_eq_some_iff.mp h
    obtain rfl := Option.some.inj h
    exact List.forall_mem_cons.mpr ⟨digitValue?_lt c d hd, ih ds hds⟩
  | case4 c t hnil hunder ih =>
    rw [grouped?] at h
    · obtain ⟨d, hd, h⟩ := Option.bind_eq_some_iff.mp h
      obtain ⟨ds, hds, h⟩ := Option.bind_eq_some_iff.mp h
      obtain rfl := Option.some.inj h
      exact List.forall_mem_cons.mpr ⟨digitValue?_lt c d hd, ih ds hds⟩
    · exact hnil
    · exact hunder

theorem exists_write?_of_strict? (t : Text) (n : Int) (h : strict? t = some n) :
    ∃ number, write? n = some number := by
  simp only [strict?] at h
  obtain ⟨digits, hdigits, h⟩ := Option.bind_eq_some_iff.mp h
  split at h
  · rename_i hlength
    obtain rfl := Option.some.inj h
    exact exists_write?_withSign _ digits (grouped?_lt _ digits hdigits) hlength
  · cases h

theorem takeWhile_toDigits (n : Nat) (p : Char → Bool) (rest : Text)
    (hp : ∀ c, c.isDigit = true → p c = true) (hrest : rest.head?.any p = false) :
    (Nat.toDigits 10 n ++ rest).takeWhile p = Nat.toDigits 10 n := by
  rw [List.takeWhile_append_of_pos fun c hc => hp c (isDigit_of_mem_toDigits hc)]
  cases rest with
  | nil => simp
  | cons c rest =>
    have hc : p c = false := hrest
    simp [hc]

theorem lenient_of_write? (n : Int) (t : Text) (h : write? n = some t) : lenient t = n := by
  have hsign := takeSign_of_write? n t [] h
  obtain ⟨hlen, _⟩ := (write?_eq_some_iff n t).mp h
  have hrun : (Nat.toDigits 10 n.natAbs).takeWhile isDigit = Nat.toDigits 10 n.natAbs := by
    have hdigit : ∀ c : Char, c.isDigit = true → isDigit c = true := fun c hc => by
      simp [isDigit, isDecimal_of_isDigit c hc]
    simpa using takeWhile_toDigits n.natAbs isDigit [] hdigit (by simp)
  have hall : (Nat.toDigits 10 n.natAbs).all isDecimal = true := by
    rw [List.all_eq_true]
    exact fun c hc => isDecimal_of_isDigit c (isDigit_of_mem_toDigits hc)
  rw [List.append_nil, List.append_nil] at hsign
  simp only [lenient, trim_of_not_blank t (not_blank_of_mem_write? n t h), hsign, hrun, hall, hlen,
    decide_true, Bool.and_self, if_true, ofDigits_toDigits, withSign_natAbs]

/-- A written number is read from the beginning of a text that goes on with no digit. -/
theorem leading_of_write? (n : Int) (t rest : Text) (h : write? n = some t)
    (hrest : rest.head?.any isDecimal = false) : leading (t ++ rest) = .value n := by
  have hsign := takeSign_of_write? n t rest h
  obtain ⟨hlen, _⟩ := (write?_eq_some_iff n t).mp h
  have hstart : trimStart (t ++ rest) = t ++ rest := by
    obtain ⟨c, t', rfl⟩ := List.exists_cons_of_ne_nil fun ht => write?_ne_nil n (ht ▸ h)
    exact trimStart_cons_of_not_blank c _ (not_blank_of_mem_write? n _ h c List.mem_cons_self)
  have hrun := takeWhile_toDigits n.natAbs isDecimal rest isDecimal_of_isDigit hrest
  simp only [leading, hstart, hsign, hrun, Nat.toDigits_ne_nil, if_false, hlen, if_true,
    ofDigits_toDigits, withSign_natAbs]

end StationLink.Text.Numeral
