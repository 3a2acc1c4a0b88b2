import StationLink.Proofs.Host.Ending
import StationLink.Serial.Scripted

/-!
# Windows on scripted ports

A scripted port brings the items of its script, and is silent after them. A window on it ends unless the
port hangs up in it. Then the channel reads on without reading anything: no read sleeps any more, and so
the clock stands still.
-/

namespace StationLink.Serial.ScriptedLine

variable {τ : Type} [TimeScale τ]

/-- The newest port has this positive timeout, raises faults of input and output only and waits for no
negative time, and the clock is moved by nothing but sleeping. -/
structure Restful (μ : τ → ℚ) (rest : ℚ) (l : ScriptedLine τ) : Prop where
  positive : 0 < rest
  port : ∃ p ports, l.ports = p :: ports ∧
    (∃ timeout, p.settings.timeout = some timeout ∧ μ timeout = rest) ∧
    ∀ item ∈ p.script, item.fault.all Fault.isIo = true ∧ ∀ wait, item.wait = some wait → 0 ≤ μ wait
  still : μ l.clock.tick = 0

def itemsLeft (l : ScriptedLine τ) : Nat :=
  (l.ports.head?.map fun p => p.script.length).getD 0

def waited (item : ScriptItem τ) (l : ScriptedLine τ) : ScriptedLine τ :=
  match item.wait with
  | some d => l.sleep d
  | none => l

theorem readItem_of_fault (item : ScriptItem τ) (l : ScriptedLine τ) (f : Fault) (h : item.fault = some f) :
    readItem item l = (.error f, l.waited item) := by
  cases hwait : item.wait with
  | none => simp only [readItem, waited, h, hwait]
  | some d => simp only [readItem, waited, h, hwait]

theorem readItem_of_data (item : ScriptItem τ) (l : ScriptedLine τ) (h : item.fault = none) :
    readItem item l = (.ok item.data,
      if item.hangUp then (l.waited item).modify ({ · with isOpen := false }) else l.waited item) := by
  cases hwait : item.wait with
  | none => simp only [readItem, waited, h, hwait]
  | some d => simp only [readItem, waited, h, hwait]

namespace Restful

variable {μ : τ → ℚ} (hμ : TimeScale.Exact μ) {rest : ℚ} {l : ScriptedLine τ} (h : l.Restful μ rest)

omit [TimeScale τ] in
include h in
theorem hangUp : (l.modify ({ · with isOpen := false })).Restful μ rest ∧
    (l.modify ({ · with isOpen := false })).itemsLeft = l.itemsLeft := by
  obtain ⟨hpositive, ⟨p, ports, hports, hport⟩, hstill⟩ := h
  obtain ⟨clock, openings, scripts, _⟩ := l
  obtain rfl : _ = p :: ports := hports
  exact ⟨⟨hpositive, ⟨{ p with isOpen := false }, ports, rfl, hport⟩, hstill⟩, rfl⟩

include hμ h

theorem sleep {d : τ} (hd : 0 ≤ μ d) :
    (l.sleep d).Restful μ rest ∧ (l.sleep d).itemsLeft = l.itemsLeft ∧
      μ l.clock.now ≤ μ (l.sleep d).clock.now := by
  refine ⟨⟨h.positive, h.port, h.still⟩, rfl, ?_⟩
  change _ ≤ μ (TimeScale.add _ _)
  rw [hμ.add]
  exact le_add_of_nonneg_right hd

theorem waited {item : ScriptItem τ} (hwait : ∀ wait, item.wait = some wait → 0 ≤ μ wait) :
    (l.waited item).Restful μ rest ∧ (l.waited item).itemsLeft = l.itemsLeft ∧
      μ l.clock.now ≤ μ (l.waited item).clock.now := by
  rw [ScriptedLine.waited]
  cases hitem : item.wait with
  | none => exact ⟨h, rfl, le_rfl⟩
  | some d => exact h.sleep hμ (hwait d hitem)

theorem readItem {item : ScriptItem τ} (hio : item.fault.all Fault.isIo = true)
    (hwait : ∀ wait, item.wait = some wait → 0 ≤ μ wait) :
    (l.readItem item).2.Restful μ rest ∧ (∀ f, (l.readItem item).1 = .error f → f.isIo = true) ∧
      (l.readItem item).2.itemsLeft = l.itemsLeft ∧ μ l.clock.now ≤ μ (l.readItem item).2.clock.now := by
  obtain ⟨hrestful, hitems, hclock⟩ := h.waited hμ hwait
  cases hfault : item.fault with
  | some f =>
    rw [hfault] at hio
    rw [readItem_of_fault item l f hfault]
    exact ⟨hrestful, fun f' hf' => Except.error.inj hf' ▸ hio, hitems, hclock⟩
  | none =>
    rw [readItem_of_data item l hfault]
    cases item.hangUp with
    | false => exact ⟨hrestful, fun _ hf => (nomatch hf), hitems, hclock⟩
    | true => exact ⟨hrestful.hangUp.1, fun _ hf => (nomatch hf), hrestful.hangUp.2.trans hitems, hclock⟩

/-- A read takes the first item of the script, or there is none and the read sleeps for its timeout. -/
theorem readLine :
    l.readLine.2.Restful μ rest ∧ (∀ f, l.readLine.1 = .error f → f.isIo = true) ∧
      (l.readLine.2.itemsLeft < l.itemsLeft ∧ μ l.clock.now ≤ μ l.readLine.2.clock.now ∨
        l.readLine.1 = .ok [] ∧ μ l.readLine.2.clock.now = μ l.clock.now + rest) := by
  obtain ⟨hpositive, ⟨p, ports, hports, ⟨timeout, htimeout, hrest⟩, hscript⟩, hstill⟩ := h
  obtain ⟨clock, openings, scripts, _⟩ := l
  obtain rfl : _ = p :: ports := hports
  cases hitems : p.script with
  | nil =>
    have hread : ScriptedLine.readLine ⟨clock, openings, scripts, p :: ports⟩ = (.ok [],
        ⟨clock.sleep timeout, openings, scripts, p :: ports⟩) := by
      simp only [ScriptedLine.readLine, hitems, htimeout, Option.getD_some, ScriptedLine.sleep]
    rw [hread]
    refine ⟨⟨hpositive, ⟨p, ports, rfl, ⟨timeout, htimeout, hrest⟩, hscript⟩, hstill⟩, ?_, .inr ⟨rfl, ?_⟩⟩
    · rintro f ⟨⟩
    · change μ (TimeScale.add _ _) = _
      rw [hμ.add, hrest]
  | cons item script =>
    have hread : ScriptedLine.readLine ⟨clock, openings, scripts, p :: ports⟩ =
        ScriptedLine.readItem item ⟨clock, openings, scripts, { p with script } :: ports⟩ := by
      simp only [ScriptedLine.readLine, hitems, ScriptedLine.modify, modifyNewest]
    rw [hitems] at hscript
    obtain ⟨⟨hio, hwait⟩, hrestScript⟩ := List.forall_mem_cons.mp hscript
    have htaken : Restful μ rest ⟨clock, openings, scripts, { p with script } :: ports⟩ :=
      ⟨hpositive, ⟨{ p with script }, ports, rfl, ⟨timeout, htimeout, hrest⟩, hrestScript⟩, hstill⟩
    obtain ⟨hrestful, hfaults, hleft, hclock⟩ := htaken.readItem hμ hio hwait
    rw [hread]
    refine ⟨hrestful, hfaults, .inl ⟨?_, hclock⟩⟩
    rw [hleft]
    simp [itemsLeft, hitems]

end Restful

/-- The newest port is open, and nothing in its script hangs up. -/
def Lasting (l : ScriptedLine τ) : Prop :=
  ∃ p ports, l.ports = p :: ports ∧ p.isOpen = true ∧ ∀ item ∈ p.script, item.hangUp = false

theorem ports_waited (item : ScriptItem τ) (l : ScriptedLine τ) : (l.waited item).ports = l.ports := by
  rw [waited]
  cases item.wait <;> rfl

theorem Lasting.readLine {l : ScriptedLine τ} (h : l.Lasting) : l.readLine.2.Lasting := by
  obtain ⟨p, ports, hports, hopen, hscript⟩ := h
  obtain ⟨clock, openings, scripts, _⟩ := l
  obtain rfl : _ = p :: ports := hports
  cases hitems : p.script with
  | nil =>
    simp only [ScriptedLine.readLine, hitems]
    exact ⟨p, ports, rfl, hopen, hscript⟩
  | cons item script =>
    rw [hitems] at hscript
    obtain ⟨hitem, hrest⟩ := List.forall_mem_cons.mp hscript
    simp only [ScriptedLine.readLine, hitems]
    have htaken : Lasting ((⟨clock, openings, scripts, p :: ports⟩ : ScriptedLine τ).modify
        ({ · with script })) :=
      ⟨{ p with script }, ports, rfl, hopen, hrest⟩
    have hwaited : Lasting (((⟨clock, openings, scripts, p :: ports⟩ : ScriptedLine τ).modify
        ({ · with script })).waited item) := by
      rw [Lasting, ports_waited]
      exact htaken
    cases hfault : item.fault with
    | some f =>
      rw [readItem_of_fault item _ f hfault]
      exact hwaited
    | none =>
      rw [readItem_of_data item _ hfault, hitem]
      exact hwaited

end StationLink.Serial.ScriptedLine

namespace StationLink.Host

open Serial Text Channel

variable {τ : Type} [TimeScale τ]

theorem supplied_scripted {μ : τ → ℚ} (hμ : TimeScale.Exact μ) (rest : ℚ) :
    Supplied μ rest ScriptedLine.itemsLeft (ScriptedLine.Restful μ rest) where
  clock_setClock _ _ := rfl
  isOpen_setClock _ _ := rfl
  supply_setClock _ _ := rfl
  setClock {l} h clock htick := by
    refine ⟨h.positive, h.port, ?_⟩
    change μ clock.tick = 0
    rw [htick]
    exact h.still
  still h := h.still
  readLine h _ := (h.readLine hμ).1
  onward {l} h _ := by
    change _ ≤ μ l.readLine.2.clock.now
    rcases (h.readLine hμ).2.2 with ⟨_, hclock⟩ | ⟨_, hclock⟩
    · exact hclock
    · rw [hclock]
      exact le_add_of_nonneg_right h.positive.le
  slept h _ _ := (h.readLine hμ).2.2.imp And.left fun ⟨_, hclock⟩ => hclock.ge

/-- On a scripted port of a positive timeout, whose reads raise faults of input and output only, on a clock
that is moved by nothing but sleeping: as long as the port is open, each read of a window takes an item of
the script or has slept, for the timeout or for the delay after a fault; so the window ends, unless the port
is closed before its end, which it cannot be if nothing in its script hangs up. If it is, the window runs on
whatever the patience. -/
theorem window_ends_unless_its_port_dies {μ : τ → ℚ} (hμ : TimeScale.Exact μ) {rest : ℚ}
    (s : Settings τ) (duration : τ) (h : Host (ScriptedLine τ)) (ho : h.isOpen = true)
    (hline : h.line.Restful μ rest) :
    (∀ h', Turns (TimeScale.add h.line.clock.now duration) (afterNow h) h' → h'.isOpen = true →
      (∃ bytes line, h'.line.readLine = (.ok bytes, line) ∧ line.itemsLeft < h'.line.itemsLeft) ∨
      μ h'.line.clock.now + min rest backOff ≤
        μ ((Channel.readLine (σ := ScriptedLine τ)).after h').line.clock.now) ∧
    ((∀ h', Turns (TimeScale.add h.line.clock.now duration) (afterNow h) h' →
        ¬ Stuck (TimeScale.add h.line.clock.now duration) h') →
      ∃ patience lines, (Channel.readLines ⟨s, patience⟩ duration).outcome h = .ok lines) ∧
    (h.line.Lasting → ∃ patience lines, (Channel.readLines ⟨s, patience⟩ duration).outcome h = .ok lines) ∧
    (∀ h', Turns (TimeScale.add h.line.clock.now duration) (afterNow h) h' →
        Stuck (TimeScale.add h.line.clock.now duration) h' →
      ∀ patience, (Channel.readLines ⟨s, patience⟩ duration).outcome h = .error .outOfPatience) := by
  have hs := supplied_scripted hμ rest
  have hio {l : ScriptedLine τ} {f : Fault} (hl : l.Restful μ rest) (hf : l.readLine.1 = .error f) :
      f.isIo = true :=
    (hl.readLine hμ).2.1 f hf
  obtain ⟨hends, hruns⟩ :=
    hs.readLines_ends_or_runs_on hμ hline.positive (fun hl _ => hio hl) s duration hline ho
  refine ⟨fun h' hturns hopen => ?_, hends, fun hlasts => hends fun h' hturns => ?_, hruns⟩
  · have hline' := hs.of_turns hμ hturns (hs.afterNow hμ hline).1
    exact hs.took_or_slept hμ hline' hopen (hio hline')
  · refine hturns.not_stuck (P := ScriptedLine.Lasting) (fun _ hl _ => hl) (fun hl => hl.readLine) ?_
      (Bool.and_eq_true_iff.mp ho).1 hlasts
    rintro l ⟨p, ports, hports, hopen, _⟩
    change (l.ports.head?.map ScriptedPort.isOpen).getD false = true
    rw [hports]
    exact hopen

def listening (hangsUp : Bool) : Host (ScriptedLine Millis) where
  held := true
  line :=
    { clock := .start ⟨0⟩
      ports := [{
        settings := Settings.serial (.default Millis)
        script := [{ data := [0x61, 0x0A] }, { fault := some .unplugged },
          { wait := some ⟨30⟩, hangUp := hangsUp }] }] }

theorem window_ends_unless_its_port_dies_of_listening :
    (∃ patience lines,
      (Channel.readLines ⟨.default Millis, patience⟩ ⟨1000⟩).outcome (listening false) = .ok lines) ∧
    ∀ patience, (Channel.readLines ⟨.default Millis, patience⟩ ⟨1000⟩).outcome (listening true) =
      .error .outOfPatience := by
  have hrestful (hangsUp : Bool) :
      (listening hangsUp).line.Restful (fun t : Millis => (t.count : ℚ)) 1000 := by
    refine ⟨by norm_num, ⟨_, _, rfl, ⟨_, rfl, rfl⟩, ?_⟩, rfl⟩
    refine List.forall_mem_cons.mpr ⟨⟨rfl, nofun⟩, List.forall_mem_cons.mpr ⟨⟨rfl, nofun⟩,
      List.forall_mem_singleton.mpr ⟨rfl, ?_⟩⟩⟩
    rintro _ ⟨rfl⟩
    norm_num
  obtain ⟨_, _, hends, _⟩ := window_ends_unless_its_port_dies Millis.exact (.default Millis) ⟨1000⟩
    (listening false) rfl (hrestful false)
  obtain ⟨_, _, _, hruns⟩ := window_ends_unless_its_port_dies Millis.exact (.default Millis) ⟨1000⟩
    (listening true) rfl (hrestful true)
  have hdies : ∃ h', Turns (TimeScale.add (listening true).line.clock.now ⟨1000⟩)
      (afterNow (listening true)) h' ∧ Stuck (TimeScale.add (listening true).line.clock.now ⟨1000⟩) h' :=
    ⟨_, .next _ _ _ _ rfl rfl (.next _ _ _ _ rfl rfl (.next _ _ _ _ rfl rfl (.here _))), rfl, rfl⟩
  obtain ⟨h', hturns, hstuck⟩ := hdies
  exact ⟨hends ⟨_, _, rfl, rfl, by decide⟩, hruns h' hturns hstuck⟩

end StationLink.Host
