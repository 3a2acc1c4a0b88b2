import StationLink.Proofs.Protocol.Inbound
import StationLink.Protocol.Survey

/-!
# Lines that tell something

Status, survey and address of a window are read from the lines that begin with a mark of theirs; all
other lines might as well not be there. Data is among those others.
-/

namespace StationLink.Protocol

open Text

/-- A line that status, survey or address may be read from. -/
def tells (line : Text) : Bool :=
  StatusLine.ofText line ≠ .other || SightingLine.ofText line ≠ .other

/-- The lines of a window that tell something. -/
def answers (lines : List Text) : List Text :=
  (shown lines).filter tells

theorem tells_eq_false_iff (line : Text) :
    tells line = false ↔ StatusLine.ofText line = .other ∧ SightingLine.ofText line = .other := by
  simp [tells]

theorem answers_append (lines more : List Text) :
    answers (lines ++ more) = answers lines ++ answers more := by
  rw [answers, shown_append, List.filter_append]
  rfl

theorem answers_eq_nil (lines : List Text) (h : ∀ t ∈ lines, tells (trim t) = false) :
    answers lines = [] := by
  rw [answers, List.filter_eq_nil_iff]
  intro t ht
  obtain ⟨line, hline, rfl⟩ := List.mem_map.mp (List.mem_filter.mp ht).1
  exact Bool.eq_false_iff.mp (h line hline)

/-! ## Lines that tell nothing -/

theorem tells_of_head (c : Char) (t : Text) (hblank : isBlank c = false) (hS : 'S' ≠ c) (hI : 'I' ≠ c)
    (hR : 'R' ≠ c) (hN : 'N' ≠ c) : tells (trim (c :: t)) = false := by
  have hsilent : Silent (c :: t) := silent_of_head c t hblank hS hI hR
  have hnetwork : after? Mark.network (c :: trimEnd t) = none :=
    after?_of_head _ _ (by decide) fun h => hN (Option.some.inj h)
  refine (tells_eq_false_iff _).mpr ⟨hsilent, ?_⟩
  rw [trim_cons_of_not_blank c t hblank, SightingLine.ofText, hnetwork]

theorem tells_of_isData {t : Text} (h : IsData t) : tells (trim t) = false := by
  obtain ⟨data, rfl⟩ := h
  exact tells_of_head 'T' _ (by decide) (by decide) (by decide) (by decide) (by decide)

theorem answers_of_isData (lines : List Text) (h : ∀ t ∈ lines, IsData t) : answers lines = [] :=
  answers_eq_nil lines fun t ht => tells_of_isData (h t ht)

/-! ## What is read from a window -/

theorem ofLines?_tells (lines : List Text) :
    Status.ofLines? (lines.filter tells) = Status.ofLines? lines := by
  have hsaid : ((lines.filter tells).map StatusLine.ofText).filter (· ≠ .other) =
      (lines.map StatusLine.ofText).filter (· ≠ .other) := by
    induction lines with
    | nil => rfl
    | cons line lines ih =>
      rw [List.filter_cons]
      split
      · rw [List.map_cons, List.map_cons, List.filter_cons, List.filter_cons, ih]
      · rename_i htells
        obtain ⟨hother, _⟩ := (tells_eq_false_iff line).mp (Bool.eq_false_iff.mpr htells)
        rw [List.map_cons, List.filter_cons_of_neg (by simpa using hother), ih]
  rw [ofLines?_filter, ofLines?_filter lines, hsaid]

theorem survey?_tells (lines : List Text) : survey? (lines.filter tells) = survey? lines := by
  induction lines with
  | nil => rfl
  | cons line lines ih =>
    rw [List.filter_cons]
    split
    · rw [← List.singleton_append, survey?_append, ih, ← survey?_append]
      rfl
    · rename_i htells
      obtain ⟨_, hother⟩ := (tells_eq_false_iff line).mp (Bool.eq_false_iff.mpr htells)
      have hnothing : survey? [line] = some [] := by
        rw [survey?, List.map_singleton, hother]
        rfl
      rw [ih, ← List.singleton_append (l := lines), survey?_append, hnothing]
      cases survey? lines with
      | none => rfl
      | some sightings => rfl

theorem ofText_of_ip {line ip : Text} (h : after? Mark.ip line = some ip) :
    StatusLine.ofText line = .ip ip := by
  rw [(after?_eq_some_iff _ _ _).mp h]
  exact ofText_ip ip

theorem address?_tells (lines : List Text) : address? (lines.filter tells) = address? lines := by
  induction lines with
  | nil => rfl
  | cons line lines ih =>
    rw [List.filter_cons]
    split
    · rw [address?, List.findSome?_cons, address?, List.findSome?_cons]
      cases after? Mark.ip line with
      | none => exact ih
      | some ip => rfl
    · rename_i htells
      obtain ⟨hother, _⟩ := (tells_eq_false_iff line).mp (Bool.eq_false_iff.mpr htells)
      have hnone : after? Mark.ip line = none := by
        cases hip : after? Mark.ip line with
        | none => rfl
        | some ip => cases (ofText_of_ip hip).symm.trans hother
      rw [ih, address?, address?, List.findSome?_cons, hnone]

end StationLink.Protocol
