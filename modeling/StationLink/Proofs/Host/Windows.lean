import StationLink.Proofs.Host.Reassembly
import StationLink.Proofs.Time.Millis
import StationLink.Serial.Scripted

/-!
# Windows one after the other

Windows of one port take up where the last one stopped: no line is lost, doubled, cut or moved at the
end of a window, whatever the clock and the faults of reading do.
-/

namespace StationLink.Host

open Serial Text

variable {σ τ α : Type} [SerialLine σ τ] [TimeScale τ]

namespace Call

def caught (c : Call σ α) : Call σ (Except Failure α) := fun h =>
  match c h with
  | .ok a h => .ok (.ok a) h
  | .error f h => .ok (.error f) h

theorem caught_apply (c : Call σ α) (h : Host σ) : c.caught h = .ok (c.outcome h) (c.after h) := by
  rw [caught, outcome, after]
  cases c h <;> rfl

theorem Records.caught {c : Call (Recorded σ) α} {d : Call σ α} (h : Records c d) :
    Records c.caught d.caught := by
  intro s
  have hs := h s
  simp only [Call.caught]
  rw [hs]
  cases c s <;> rfl

end Call

namespace Channel

/-- Windows of these durations, in order; a window that fails does not keep the next from opening. -/
def windows (k : Link τ) : List τ → Call σ (List (Except Failure (List Text)))
  | [] => return []
  | duration :: durations => do
    let lines ← (readLines k duration).caught
    let rest ← windows k durations
    return lines :: rest

def returned : Except Failure (List Text) → List Text
  | .ok lines => lines
  | .error _ => []

/-- A call that reads no lines returns none. -/
theorem returned_returning_nil (c : Call σ α) (h : Host σ) :
    returned ((do let _ ← c; return [] : Call σ (List Text)).outcome h) = [] := by
  rw [Call.outcome_returning c fun _ => []]
  cases c.outcome h <;> rfl

theorem records_windows (k : Link τ) (durations : List τ) :
    Call.Records (σ := σ) (windows k durations) (windows k durations) := by
  induction durations with
  | nil => exact .ret _
  | cons duration durations ih =>
    exact .bind (records_readLines k duration).caught fun _ => .bind ih fun _ => .ret _

theorem windows_cons (k : Link τ) (duration : τ) (durations : List τ) (h : Host σ) :
    windows k (duration :: durations) h =
      match windows k durations ((readLines k duration).after h) with
      | .ok rest h' => .ok ((readLines k duration).outcome h :: rest) h'
      | .error f h' => .error f h' := by
  rw [windows, Call.bind_of_ok (Call.caught_apply _ h)]
  rcases hrest : windows k durations ((readLines k duration).after h) with ⟨rest, h'⟩ | ⟨f, h'⟩
  · exact Call.bind_of_ok hrest
  · exact Call.bind_of_error hrest

theorem exists_windows (k : Link τ) (durations : List τ) (h : Host σ) :
    ∃ results h', windows k durations h = .ok results h' := by
  induction durations generalizing h with
  | nil => exact ⟨[], h, rfl⟩
  | cons duration durations ih =>
    obtain ⟨rest, h', hrest⟩ := ih ((readLines k duration).after h)
    rw [windows_cons, hrest]
    exact ⟨_, h', rfl⟩

theorem reads_readLines (k : Link τ) (duration : τ) (h : Host (Recorded σ)) :
    h.line.reads <+: ((readLines (σ := Recorded σ) k duration).after h).line.reads := by
  cases ho : h.isOpen with
  | false =>
    rw [Call.after, readLines_of_closed k duration h ho]
    exact List.prefix_rfl
  | true =>
    rw [Call.after, readLines_of_open k duration h ho]
    exact reads_collect _ k.patience [] (afterNow h)

theorem after_windows_cons (k : Link τ) (duration : τ) (durations : List τ) (h : Host σ) :
    (windows (σ := σ) k (duration :: durations)).after h =
      (windows (σ := σ) k durations).after ((readLines (σ := σ) k duration).after h) := by
  simp only [Call.after, windows_cons]
  rcases windows k durations (Call.left (readLines k duration h)) with ⟨rest, h'⟩ | ⟨f, h'⟩ <;> rfl

theorem reads_windows (k : Link τ) (durations : List τ) (h : Host (Recorded σ)) :
    h.line.reads <+: ((windows (σ := Recorded σ) k durations).after h).line.reads := by
  induction durations generalizing h with
  | nil => exact List.prefix_rfl
  | cons duration durations ih =>
    rw [after_windows_cons]
    exact (reads_readLines k duration h).trans (ih _)

theorem readLines_gathered {start : Bytes} {done : List Text} (k : Link τ) (duration : τ)
    (h : Host (Recorded σ)) (hg : Gathered start h done)
    (hreads : ∀ o ∈ ((readLines (σ := Recorded σ) k duration).after h).line.reads, Orderly o)
    (hpatience : (readLines (σ := Recorded σ) k duration).outcome h ≠ .error .outOfPatience) :
    Gathered start ((readLines (σ := Recorded σ) k duration).after h)
      (done ++ returned ((readLines (σ := Recorded σ) k duration).outcome h)) ∧
    ∀ f, (readLines (σ := Recorded σ) k duration).outcome h = .error f → f = .notConnected := by
  cases ho : h.isOpen with
  | false =>
    rw [Call.after, Call.outcome, readLines_of_closed k duration h ho]
    refine ⟨by simpa [returned, Call.left] using hg, ?_⟩
    rintro f hf
    exact (Except.error.inj hf).symm
  | true =>
    have hstart : Gathered start (afterNow h) (done ++ []) := by
      rw [List.append_nil]
      exact hg.of_eq rfl rfl
    rw [Call.after, readLines_of_open k duration h ho] at hreads
    rw [Call.outcome, readLines_of_open k duration h ho] at hpatience
    rw [Call.after, Call.outcome, readLines_of_open k duration h ho]
    rcases collect_gathered _ k.patience [] (afterNow h) hstart hreads with ⟨h', hc⟩ | ⟨all, h', hc, hg'⟩
    · rw [hc] at hpatience
      exact absurd rfl hpatience
    · rw [hc]
      refine ⟨hg', ?_⟩
      rintro f hf
      cases hf

theorem windows_gathered {start : Bytes} {done : List Text} (k : Link τ) (durations : List τ)
    (h : Host (Recorded σ)) (hg : Gathered start h done)
    (hreads : ∀ o ∈ ((windows (σ := Recorded σ) k durations).after h).line.reads, Orderly o)
    (results : List (Except Failure (List Text))) (h' : Host (Recorded σ))
    (hrun : windows k durations h = .ok results h')
    (hpatience : .error .outOfPatience ∉ results) :
    Gathered start h' (done ++ results.flatMap returned) ∧
      ∀ f, .error f ∈ results → f = .notConnected := by
  induction durations generalizing h done results with
  | nil =>
    cases hrun
    exact ⟨by simpa using hg, by simp⟩
  | cons duration durations ih =>
    rw [after_windows_cons] at hreads
    rw [windows_cons] at hrun
    obtain ⟨rest, hend, hrest⟩ := exists_windows k durations ((readLines k duration).after h)
    rw [hrest] at hrun
    cases hrun
    have hfirst : ∀ o ∈ ((readLines (σ := Recorded σ) k duration).after h).line.reads, Orderly o :=
      fun o ho => hreads o ((reads_windows k durations _).subset ho)
    have hne : (readLines (σ := Recorded σ) k duration).outcome h ≠ .error .outOfPatience :=
      fun he => hpatience (he ▸ List.mem_cons_self)
    obtain ⟨hnext, hfailure⟩ := readLines_gathered k duration h hg hfirst hne
    obtain ⟨hall, hfailures⟩ := ih _ hnext hreads rest hrest
      fun hmem => hpatience (List.mem_cons_of_mem _ hmem)
    refine ⟨by simpa using hall, ?_⟩
    intro f hf
    rcases List.mem_cons.mp hf with hf | hf
    · exact hfailure f hf.symm
    · exact hfailures f hf

def results (k : Link τ) (durations : List τ) (h : Host σ) : List (Except Failure (List Text)) :=
  match windows k durations h with
  | .ok results _ => results
  | .error _ _ => []

/-- Whether a window was given up before the clock reached its end. -/
def givenUp : Except Failure (List Text) → Bool
  | .error .outOfPatience => true
  | _ => false

/-- Windows that are not given up return the lines of the bytes read, each of them once and in order,
and the bytes behind the last line feed are pending. The reads may be cut in any way and may fail, and
the clock may show anything; a window fails only if the port is closed when it opens. -/
theorem windows_return_lines (k : Link τ) (durations : List τ) (h : Host σ)
    (hpending : lineFeed ∉ h.pending)
    (hreads : ∀ o ∈ Call.reads (windows k durations) h, Orderly o)
    (hpatience : ∀ result ∈ results k durations h, givenUp result = false) :
    ∃ h' pieces, windows k durations h = .ok (results k durations h) h' ∧
      Parted isLineFeed (h.pending ++ bytesRead (Call.reads (windows k durations) h)) pieces
        h'.pending ∧
      (results k durations h).flatMap returned = linesOf pieces ∧
      ∀ f, .error f ∈ results k durations h → f = .notConnected := by
  obtain ⟨all, h', hrun⟩ := exists_windows k durations h.recorded
  have hplain : windows k durations h = .ok all h'.unrecorded := by
    have hrecords := records_windows k durations h.recorded
    rw [hrun] at hrecords
    exact hrecords
  have hresults : results k durations h = all := by rw [results, hplain]
  have hleft : (windows (σ := Recorded σ) k durations).after h.recorded = h' := by
    rw [Call.after, hrun]
    rfl
  have hstart : Gathered h.pending h.recorded [] :=
    ⟨[], by simpa [recorded, bytesRead] using .tail (isLineFeed_of_not_mem hpending), rfl⟩
  have hkept : .error .outOfPatience ∉ all := by
    intro hmem
    have hup := hpatience _ (hresults ▸ hmem)
    cases hup
  obtain ⟨⟨pieces, hparted, hlines⟩, hfailures⟩ :=
    windows_gathered k durations h.recorded hstart hreads all h' hrun hkept
  rw [Call.reads, hleft, hresults]
  exact ⟨h'.unrecorded, pieces, hplain, hparted, by simpa using hlines, hfailures⟩

instance : DecidablePred Orderly
  | .ok bytes => inferInstanceAs (Decidable (lineFeed ∉ bytes.dropLast))
  | .error f => inferInstanceAs (Decidable (f.isIo = true))

/-- A port that cuts a character in two, fails in the middle of a line and sends a blank line. -/
def brokenPort : Host (ScriptedLine Millis) where
  line :=
    { clock := .start ⟨1⟩
      ports :=
        [{ settings := Settings.serial (.default Millis)
           script :=
             [{ data := [0x41, 0xC3] }, { wait := some ⟨5⟩, fault := some ⟨.serial, []⟩ },
               { data := [0xA9, 0x0A] }, {}, { data := [0x20, 0x0A] }, { data := [0x42, 0x0A] },
               { wait := some ⟨50⟩ }, { data := [0x43] }] }] }
  held := true

def brokenWindows : List Millis := [⟨5⟩, ⟨40⟩, ⟨-3⟩, ⟨2000⟩]

def patientLink : Link Millis := ⟨.default Millis, 20⟩

theorem windows_return_lines_of_brokenPort :
    (results patientLink brokenWindows brokenPort).flatMap returned =
      ["Aé".toList, "B".toList] ∧
    ∃ h' pieces,
      windows patientLink brokenWindows brokenPort =
        .ok (results patientLink brokenWindows brokenPort) h' ∧
      Parted isLineFeed
        ([] ++ bytesRead (Call.reads (windows patientLink brokenWindows) brokenPort)) pieces
        h'.pending ∧
      (results patientLink brokenWindows brokenPort).flatMap returned = linesOf pieces ∧
      ∀ f, .error f ∈ results patientLink brokenWindows brokenPort → f = .notConnected :=
  ⟨by decide +kernel, windows_return_lines patientLink brokenWindows brokenPort (by decide)
    (by decide +kernel) (by decide +kernel)⟩

end Channel

end StationLink.Host
