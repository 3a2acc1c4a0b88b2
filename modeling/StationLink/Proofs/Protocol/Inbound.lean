import StationLink.Proofs.Protocol.Status
import StationLink.Protocol.Inbound

/-!
# Lines with and without data

A line is data from the remote peer or it is mute. Whatever mute lines stand between them, the payloads
of a window are those of its data lines, each without the blanks at its end.
-/

namespace StationLink.Protocol

open Text

/-- A line that no reader takes for data, whatever blanks are around it. -/
def Mute (line : Text) : Prop :=
  after? Mark.tcpData (trim line) = none

instance (line : Text) : Decidable (Mute line) :=
  inferInstanceAs (Decidable (_ = none))

/-- A line in which data is forwarded. -/
def IsData (line : Text) : Prop :=
  ∃ t, line = Mark.tcpData ++ t

theorem mute_of_head (c : Char) (t : Text) (hblank : isBlank c = false) (hc : 'T' ≠ c) :
    Mute (c :: t) := by
  rw [Mute, trim_cons_of_not_blank c t hblank]
  exact after?_of_head _ _ (by decide) fun h => hc (Option.some.inj h)

theorem mute_call (t : Text) : Mute ("TCP:".toList ++ t) := by
  rw [Mute, trim_append_of_not_blank _ _ (by decide) (by decide)]
  rfl

theorem payloads_of_mute (lines : List Text) (h : ∀ t ∈ lines, Mute t) : payloads (shown lines) = [] := by
  rw [payloads, List.filterMap_eq_nil_iff]
  intro t ht
  obtain ⟨line, hline, rfl⟩ := List.mem_map.mp (List.mem_filter.mp ht).1
  exact h line hline

theorem payloads_data (t : Text) : payloads (shown [Mark.tcpData ++ t]) = [trimEnd t] := by
  have htrim : trim (Mark.tcpData ++ t) = Mark.tcpData ++ trimEnd t :=
    trim_append_of_not_blank _ _ (by decide) (by decide)
  have hafter : after? Mark.tcpData (Mark.tcpData ++ trimEnd t) = some (trimEnd t) :=
    (after?_eq_some_iff _ _ _).mpr rfl
  have hne : Mark.tcpData ++ trimEnd t ≠ [] := by
    intro h
    cases h
  simp [shown, payloads, htrim, hafter, hne]

end StationLink.Protocol
