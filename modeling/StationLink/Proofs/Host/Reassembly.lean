import StationLink.Proofs.Host.Channel
import StationLink.Proofs.Host.Recording
import StationLink.Proofs.Text.Parting

/-!
# Lines are put together again

What a port hands over in pieces is put together into lines: the lines of all windows are those of
the bytes read so far, and the bytes behind the last line feed are pending. Timeouts, faults and the
ends of windows leave no trace in them.
-/

namespace StationLink.Host.Channel

open Serial Text

variable {σ τ : Type} [SerialLine σ τ] [TimeScale τ]

def isLineFeed (b : UInt8) : Bool :=
  b = lineFeed

def bytesRead (reads : List (Except Fault Bytes)) : Bytes :=
  reads.flatMap fun
    | .ok bytes => bytes
    | .error _ => []

/-- A read hands over at most one line feed, as its last byte; a fault is one of input or output. -/
def Orderly : Except Fault Bytes → Prop
  | .ok bytes => lineFeed ∉ bytes.dropLast
  | .error f => f.isIo = true

/-- The texts of complete lines, each decoded as a whole with its line feed and trimmed. -/
def linesOf (pieces : List Bytes) : List Text :=
  (pieces.map fun piece => trim (Utf8.decode (piece ++ [lineFeed]))).filter (· ≠ [])

theorem linesOf_append (pieces more : List Bytes) :
    linesOf (pieces ++ more) = linesOf pieces ++ linesOf more := by
  simp [linesOf]

theorem isLineFeed_of_not_mem {bytes : Bytes} (h : lineFeed ∉ bytes) :
    ∀ b ∈ bytes, isLineFeed b = false := by
  intro b hb
  have hne : b ≠ lineFeed := fun he => h (he ▸ hb)
  simp [isLineFeed, hne]

/-! ## One read -/

/-- These are the lines of the bytes read so far, and the rest of these bytes is pending. -/
def Gathered (start : Bytes) (h : Host (Recorded σ)) (lines : List Text) : Prop :=
  ∃ pieces, Parted isLineFeed (start ++ bytesRead h.line.reads) pieces h.pending ∧
    lines = linesOf pieces

theorem not_mem_of_not_last {b : UInt8} {bytes : Bytes} (h : b ∉ bytes.dropLast)
    (hlast : bytes.getLast? ≠ some b) : b ∉ bytes := by
  rcases List.eq_nil_or_concat bytes with rfl | ⟨init, last, rfl⟩
  · exact List.not_mem_nil
  · rw [List.concat_eq_append] at h hlast ⊢
    rw [List.dropLast_concat] at h
    rw [List.getLast?_concat] at hlast
    have hne : b ≠ last := fun he => hlast (congrArg some he.symm)
    simp [h, hne]

namespace Gathered

variable {start : Bytes} {h h' : Host (Recorded σ)} {lines : List Text}

theorem of_eq (hg : Gathered start h lines) (hreads : h'.line.reads = h.line.reads)
    (hpending : h'.pending = h.pending) : Gathered start h' lines := by
  obtain ⟨pieces, hparted, hlines⟩ := hg
  refine ⟨pieces, ?_, hlines⟩
  rw [hreads, hpending]
  exact hparted

theorem fault {f : Fault} (hg : Gathered start h lines)
    (hreads : h'.line.reads = h.line.reads ++ [.error f]) (hpending : h'.pending = h.pending) :
    Gathered start h' lines := by
  obtain ⟨pieces, hparted, hlines⟩ := hg
  refine ⟨pieces, ?_, hlines⟩
  rw [hreads, hpending]
  simpa [bytesRead] using hparted

/-- What is read goes to the pending bytes, which are one line if they end in a line feed. -/
theorem bytes {bytes : Bytes} (hg : Gathered start h lines) (ho : lineFeed ∉ bytes.dropLast)
    (h' : Host (Recorded σ)) (hreads : h'.line.reads = h.line.reads ++ [.ok bytes])
    (hpending : h'.pending = h.pending ++ bytes) :
    ∃ line rest, takeLine h' = .ok line { h' with pending := rest } ∧
      Gathered start { h' with pending := rest } (lines ++ line.toList.filter (· ≠ [])) := by
  obtain ⟨pieces, hparted, rfl⟩ := hg
  have hsum : start ++ bytesRead h'.line.reads = start ++ bytesRead h.line.reads ++ bytes := by
    simp [hreads, bytesRead]
  have hopen : lineFeed ∉ h.pending := by
    intro hmem
    have hmark := hparted.tail_unmarked lineFeed hmem
    simp [isLineFeed] at hmark
  by_cases hlast : bytes.getLast? = some lineFeed
  · obtain ⟨init, rfl⟩ := List.getLast?_eq_some_iff.mp hlast
    rw [List.dropLast_concat] at ho
    have hbody : lineFeed ∉ h.pending ++ init := by simp [hopen, ho]
    have hline : h'.pending = (h.pending ++ init) ++ [lineFeed] := by simp [hpending]
    refine ⟨_, [], takeLine_of_line h' _ hline, pieces ++ [h.pending ++ init], ?_, ?_⟩
    · change Parted isLineFeed (start ++ bytesRead h'.line.reads) _ _
      rw [hsum]
      refine hparted.append ?_
      rw [← List.append_assoc]
      exact .piece (isLineFeed_of_not_mem hbody) (by simp [isLineFeed]) (.tail (by simp))
    · rw [linesOf_append]
      rfl
  · have hall := not_mem_of_not_last ho hlast
    have hrest : lineFeed ∉ h'.pending := by simp [hpending, hopen, hall]
    refine ⟨none, h'.pending, takeLine_of_unended h' hrest, pieces, ?_, by simp⟩
    change Parted isLineFeed (start ++ bytesRead h'.line.reads) _ _
    rw [hsum, hpending]
    have happend : Parted isLineFeed (start ++ bytesRead h.line.reads ++ bytes) (pieces ++ [])
        (h.pending ++ bytes) :=
      hparted.append (.tail (isLineFeed_of_not_mem (hpending ▸ hrest)))
    rwa [List.append_nil] at happend

end Gathered

theorem reads_readLine_of_open (h : Host (Recorded σ)) (ho : h.isOpen = true) :
    ((readLine (σ := Recorded σ)).after h).line.reads =
      h.line.reads ++ [(SerialLine.readLine h.line).1] := by
  rcases hr : SerialLine.readLine h.line with ⟨f | bytes, line⟩
  · have hline := Recorded.reads_of_readLine hr
    rw [Call.after, readLine_of_fault h ho f line hr]
    cases f.isIo with
    | false => exact hline
    | true => exact hline
  · have hline := Recorded.reads_of_readLine hr
    rw [Call.after, readLine_of_bytes h ho bytes line hr]
    change (takeLine.after { h with line, pending := h.pending ++ bytes }).line.reads = _
    rw [line_after_takeLine]
    exact hline

theorem reads_readLine (h : Host (Recorded σ)) :
    h.line.reads <+: ((readLine (σ := Recorded σ)).after h).line.reads := by
  cases ho : h.isOpen with
  | false =>
    rw [Call.after, readLine_of_closed h ho]
    exact List.prefix_rfl
  | true =>
    rw [reads_readLine_of_open h ho]
    exact List.prefix_append _ _

theorem readLine_gathered {start : Bytes} {lines : List Text} (h : Host (Recorded σ))
    (hg : Gathered start h lines)
    (hreads : ∀ o ∈ ((readLine (σ := Recorded σ)).after h).line.reads, Orderly o) :
    ∃ line h', readLine h = .ok line h' ∧
      Gathered start h' (lines ++ line.toList.filter (· ≠ [])) := by
  cases ho : h.isOpen with
  | false =>
    refine ⟨none, h, readLine_of_closed h ho, ?_⟩
    simpa using hg
  | true =>
    have horderly : Orderly (SerialLine.readLine h.line).1 := by
      apply hreads
      rw [reads_readLine_of_open h ho]
      exact List.mem_append_right _ List.mem_cons_self
    rcases hr : SerialLine.readLine h.line with ⟨f | bytes, line⟩
    · rw [hr] at horderly
      have hio : f.isIo = true := horderly
      have hline := Recorded.reads_of_readLine hr
      rw [readLine_of_fault h ho f line hr, hio]
      refine ⟨none, _, rfl, ?_⟩
      have hsame : Gathered start (afterReadFault f { h with line }) lines := hg.fault hline rfl
      simpa using hsame
    · rw [hr] at horderly
      have hline := Recorded.reads_of_readLine hr
      obtain ⟨text, rest, htake, hnext⟩ :=
        hg.bytes horderly { h with line, pending := h.pending ++ bytes } hline rfl
      rw [readLine_of_bytes h ho bytes line hr]
      exact ⟨text, _, htake, hnext⟩

/-! ## One window -/

theorem reads_collect (deadline : τ) (patience : Nat) (lines : List Text) (h : Host (Recorded σ)) :
    h.line.reads <+: ((collect (σ := Recorded σ) deadline patience lines).after h).line.reads := by
  apply (Call.ends_iff_after (P := fun h' : Host (Recorded σ) => h.line.reads <+: h'.line.reads)).mp
  refine collect_ends (σ := Recorded σ) (I := fun _ h' => h.line.reads <+: h'.line.reads)
    (fun _ _ hI => hI) (fun _ _ _ hI => hI) ?_ (fun _ _ hI => hI) deadline patience lines h List.prefix_rfl
  exact fun _ h₁ hI => Call.ends_iff_after.mpr (hI.trans (reads_readLine h₁))

/-- A window that ends has all lines of its reads, whatever these were. -/
theorem collect_gathered {start : Bytes} {done : List Text} (deadline : τ) (patience : Nat)
    (lines : List Text) (h : Host (Recorded σ)) (hg : Gathered start h (done ++ lines))
    (hreads : ∀ o ∈ ((collect (σ := Recorded σ) deadline patience lines).after h).line.reads,
      Orderly o) :
    (∃ h', collect deadline patience lines h = .error .outOfPatience h') ∨
      ∃ all h', collect deadline patience lines h = .ok all h' ∧ Gathered start h' (done ++ all) := by
  -- Whether the reads are orderly is known only of those made so far, so the invariant supposes it.
  have hends := collect_ends (σ := Recorded σ)
    (I := fun lines h' => (∀ o ∈ h'.line.reads, Orderly o) → Gathered start h' (done ++ lines))
    (E := fun f h' => (∀ o ∈ h'.line.reads, Orderly o) → f = .outOfPatience)
    (fun _ _ hI ho => (hI ho).of_eq rfl rfl) (fun _ _ _ hI ho => (hI ho).of_eq rfl rfl) ?_
    (fun _ _ _ _ => rfl) deadline patience lines h fun _ => hg
  · rw [Call.after] at hreads
    generalize collect deadline patience lines h = run at hends hreads
    rcases run with ⟨all, h'⟩ | ⟨f, h'⟩
    · exact .inr ⟨all, h', rfl, hends hreads⟩
    · obtain rfl := hends hreads
      exact .inl ⟨h', rfl⟩
  · intro lines h₁ hI
    have hgathered (ho : ∀ o ∈ ((readLine (σ := Recorded σ)).after h₁).line.reads, Orderly o) :=
      readLine_gathered h₁ (hI fun o hmem => ho o ((reads_readLine h₁).subset hmem)) ho
    rw [Call.after] at hgathered
    generalize readLine h₁ = read at hgathered
    rcases read with ⟨line, h'⟩ | ⟨f, h'⟩
    · intro ho
      obtain ⟨line', h'', heq, hnext⟩ := hgathered ho
      cases heq
      rwa [List.append_assoc] at hnext
    · intro ho
      obtain ⟨line', h'', heq, _⟩ := hgathered ho
      cases heq

end StationLink.Host.Channel
