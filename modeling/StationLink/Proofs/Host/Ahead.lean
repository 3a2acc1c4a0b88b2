import StationLink.Proofs.Host.Channel
import StationLink.Proofs.Protocol.Malformed
import StationLink.Proofs.Text.Encoding
import StationLink.Serial.Scripted

/-!
# What a scripted port has ahead

All that a host will read from its scripted port is pending or in the script of that port. Every line of
a window is a piece of it, so what holds of all its pieces holds of all lines to come.
-/

namespace StationLink.Serial

variable {τ : Type}

/-- The bytes that a read brings by an item. -/
def ScriptItem.told (item : ScriptItem τ) : Bytes :=
  if item.fault.isSome then [] else item.data

namespace ScriptedLine

def ahead (l : ScriptedLine τ) : Bytes :=
  (l.ports.head?.map fun p => p.script.flatMap ScriptItem.told).getD []

theorem ahead_modify (l : ScriptedLine τ) (f : ScriptedPort τ → ScriptedPort τ)
    (hf : ∀ p, (f p).script = p.script) : (l.modify f).ahead = l.ahead := by
  rw [ahead, modify, head?_modifyNewest, ahead]
  cases l.ports.head? with
  | none => rfl
  | some p => exact congrArg (List.flatMap ScriptItem.told) (hf p)

variable [TimeScale τ]

theorem ahead_readItem (l : ScriptedLine τ) (item : ScriptItem τ) :
    ((l.readItem item).1.toOption.getD []) = item.told ∧ (l.readItem item).2.ahead = l.ahead := by
  obtain ⟨wait, fault, hangUp, data⟩ := item
  cases fault with
  | some f => cases wait <;> exact ⟨rfl, rfl⟩
  | none =>
    cases hangUp with
    | false => cases wait <;> exact ⟨rfl, rfl⟩
    | true =>
      cases wait with
      | none => exact ⟨rfl, ahead_modify l _ fun _ => rfl⟩
      | some d => exact ⟨rfl, ahead_modify (l.sleep d) _ fun _ => rfl⟩

theorem ahead_readLine (l : ScriptedLine τ) :
    l.readLine.1.toOption.getD [] ++ l.readLine.2.ahead = l.ahead := by
  simp only [readLine]
  split
  · rfl
  · rename_i p ports hports
    split
    · rfl
    · rename_i item script hscript
      obtain ⟨hbrought, hahead⟩ := ahead_readItem (l.modify ({ · with script })) item
      have hrest : (l.modify ({ · with script })).ahead = script.flatMap ScriptItem.told := by
        rw [ahead, modify, hports]
        rfl
      rw [hbrought, hahead, hrest, ahead, hports]
      change _ = p.script.flatMap ScriptItem.told
      rw [hscript, List.flatMap_cons]

omit [TimeScale τ] in
theorem ahead_write (bytes : Bytes) (l : ScriptedLine τ) : (l.write bytes).2.ahead = l.ahead := by
  rw [write]
  split
  · rfl
  · exact ahead_modify l _ fun _ => rfl

end ScriptedLine

end StationLink.Serial

namespace StationLink.Host

open Serial Text Protocol Channel

variable {τ : Type}

/-- Pending bytes, and those that reads are still to bring. -/
def ahead (h : Host (ScriptedLine τ)) : Bytes :=
  h.pending ++ h.line.ahead

/-- A line as it would be read from some of the bytes. -/
def Voices (bytes : Bytes) (line : Text) : Prop :=
  ∃ piece, piece <:+: bytes ∧ line = trim (Utf8.decode piece)

theorem Voices.of_suffix {bytes more : Bytes} {line : Text} (hv : Voices bytes line) (hs : bytes <:+ more) :
    Voices more line := by
  obtain ⟨piece, hpiece, hline⟩ := hv
  exact ⟨piece, hpiece.trans hs.isInfix, hline⟩

def ShortSignals (bytes : Bytes) : Prop :=
  ∀ line, Voices bytes line → ¬ OverlongSignal line

theorem shortSignals_of_length {bytes : Bytes} (hlength : bytes.length ≤ Numeral.limit) :
    ShortSignals bytes := by
  rintro _ ⟨piece, hpiece, rfl⟩ ⟨signal, hline, hlong⟩
  have hsignal : signal.length ≤ bytes.length := by
    calc signal.length
      _ ≤ (Mark.rssi ++ signal).length := (List.suffix_append _ _).length_le
      _ = (trim (Utf8.decode piece)).length := by rw [hline]
      _ ≤ (Utf8.decode piece).length := (trim_isInfix _).length_le
      _ ≤ piece.length := Utf8.length_decode_le piece
      _ ≤ bytes.length := hpiece.length_le
  have hdigits := Numeral.length_leadingDigits_le signal
  omega

variable [TimeScale τ]

/-- What is ahead becomes less with every read, and a line that is read was ahead. -/
theorem ahead_after_read (h : Host (ScriptedLine τ)) :
    Call.Ends (fun line h' => h'.ahead <:+ h.ahead ∧ ∀ t ∈ line, Voices h.ahead t)
      (fun _ h' => h'.ahead <:+ h.ahead) (Channel.readLine h) := by
  cases ho : h.isOpen with
  | false =>
    rw [readLine_of_closed h ho]
    exact ⟨List.suffix_rfl, by simp⟩
  | true =>
    have hline : (SerialLine.readLine h.line).1.toOption.getD [] ++ (SerialLine.readLine h.line).2.ahead =
        h.line.ahead := h.line.ahead_readLine
    rcases hread : SerialLine.readLine h.line with ⟨f | bytes, line⟩
    · rw [hread] at hline
      have hsame : h.pending ++ line.ahead <:+ h.ahead := by
        rw [ahead, ← hline]
        exact List.suffix_rfl
      rw [readLine_of_fault h ho f line hread]
      cases f.isIo with
      | true => exact ⟨hsame, by simp⟩
      | false => exact hsame
    · rw [hread] at hline
      have hsame : h.pending ++ bytes ++ line.ahead = h.ahead := by
        rw [ahead, ← hline, List.append_assoc]
        rfl
      rw [readLine_of_bytes h ho bytes line hread, takeLine_apply, ← hsame]
      split
      · refine ⟨List.suffix_append _ _, ?_⟩
        rintro _ ⟨rfl⟩
        exact ⟨h.pending ++ bytes, (List.prefix_append _ _).isInfix, rfl⟩
      · exact ⟨List.suffix_rfl, by simp⟩

theorem ahead_after_window (k : Link τ) (duration : τ) (h : Host (ScriptedLine τ)) :
    Call.Ends (fun lines h' => h'.ahead <:+ h.ahead ∧ ∀ t ∈ lines, Voices h.ahead t)
      (fun _ h' => h'.ahead <:+ h.ahead) (Channel.readLines k duration h) := by
  cases ho : h.isOpen with
  | false =>
    rw [readLines_of_closed k duration h ho]
    exact List.suffix_rfl
  | true =>
    rw [readLines_of_open k duration h ho]
    apply collect_ends
    · exact fun _ _ hI => hI
    · exact fun _ _ _ hI => hI
    · rintro lines h' ⟨hahead, hlines⟩
      refine (ahead_after_read h').imp ?_ fun _ _ hless => hless.trans hahead
      rintro line h'' ⟨hless, hline⟩
      refine ⟨hless.trans hahead, List.forall_mem_append.mpr ⟨hlines, fun t ht => ?_⟩⟩
      exact (hline t (Option.mem_toList.mp (List.mem_filter.mp ht).1)).of_suffix hahead
    · exact fun _ _ hI => hI.1
    · exact ⟨List.suffix_rfl, by simp⟩

end StationLink.Host
