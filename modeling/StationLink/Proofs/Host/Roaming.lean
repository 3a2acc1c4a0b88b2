import Mathlib.Data.List.Induction
import StationLink.Proofs.Host.Dialogues

/-!
# Which network is joined

A survey is followed by one attempt to join at most: of the networks whose password is known, the first of
the strongest. However that attempt ends, so does the whole.
-/

namespace StationLink.Host.Roaming

open Serial Text Protocol

variable {σ τ : Type}

def isKnown (known : List (Text × Text)) (s : Sighting) : Bool :=
  (known.lookup s.ssid).isSome

/-- The first of the strongest networks with a password, and the password. -/
structure Choice (known : List (Text × Text)) (sightings : List Sighting) (s : Sighting) (password : Text) :
    Prop where
  password : known.lookup s.ssid = some password
  strongest : ∀ t ∈ sightings, isKnown known t = true → t.rssi ≤ s.rssi
  first : ∃ before after, sightings = before ++ s :: after ∧
    ∀ t ∈ before, isKnown known t = true → t.rssi < s.rssi

/-! ## The running maximum -/

theorem strongest?_concat (sightings : List Sighting) (s : Sighting) :
    strongest? (sightings ++ [s]) =
      match strongest? sightings with
      | none => some s
      | some b => if b.rssi < s.rssi then some s else some b := by
  rw [strongest?, List.foldl_append]
  rfl

theorem strongest?_eq_some (sightings : List Sighting) (hne : sightings ≠ []) :
    ∃ before s after, strongest? sightings = some s ∧ sightings = before ++ s :: after ∧
      (∀ t ∈ sightings, t.rssi ≤ s.rssi) ∧ ∀ t ∈ before, t.rssi < s.rssi := by
  -- The fold meets the last sighting last, so that is taken off first: it wins only if it is stronger.
  induction sightings using List.reverseRecOn with
  | nil => exact absurd rfl hne
  | append_singleton sightings s ih =>
    rw [strongest?_concat]
    by_cases hnone : sightings = []
    · subst hnone
      exact ⟨[], s, [], rfl, rfl, by simp, by simp⟩
    obtain ⟨before, b, after, hbest, rfl, hstrongest, hfirst⟩ := ih hnone
    rw [hbest]
    by_cases hlt : b.rssi < s.rssi
    · have hweaker : ∀ t ∈ before ++ b :: after, t.rssi < s.rssi :=
        fun t ht => Int.lt_of_le_of_lt (hstrongest t ht) hlt
      refine ⟨before ++ b :: after, s, [], if_pos hlt, rfl, ?_, hweaker⟩
      exact List.forall_mem_append.mpr
        ⟨fun t ht => Int.le_of_lt (hweaker t ht), List.forall_mem_singleton.mpr (Int.le_refl _)⟩
    · refine ⟨before, b, after ++ [s], if_neg hlt, by simp, ?_, hfirst⟩
      exact List.forall_mem_append.mpr ⟨hstrongest, List.forall_mem_singleton.mpr (Int.not_lt.mp hlt)⟩

variable {known : List (Text × Text)} {sightings : List Sighting}

theorem strongestKnown?_of_unknown (hunknown : ∀ t ∈ sightings, isKnown known t = false) :
    strongestKnown? known sightings = none := by
  have hfilter : sightings.filter (isKnown known) = [] := by
    refine List.filter_eq_nil_iff.mpr fun t ht => ?_
    rw [hunknown t ht]
    exact Bool.false_ne_true
  change strongest? (sightings.filter (isKnown known)) = none
  rw [hfilter]
  rfl

theorem strongestKnown?_of_known (hknown : ∃ t ∈ sightings, isKnown known t = true) :
    ∃ s password, strongestKnown? known sightings = some s ∧ Choice known sightings s password := by
  obtain ⟨t, ht, hkt⟩ := hknown
  have hmem : t ∈ sightings.filter (isKnown known) := List.mem_filter.mpr ⟨ht, hkt⟩
  obtain ⟨before, s, after, hbest, hfilter, hstrongest, hfirst⟩ :=
    strongest?_eq_some _ (List.ne_nil_of_mem hmem)
  obtain ⟨front, rest, rfl, hfront, hrest⟩ := List.filter_eq_append_iff.mp hfilter
  obtain ⟨skipped, back, rfl, hskipped, hks, -⟩ := List.filter_eq_cons_iff.mp hrest
  obtain ⟨password, hpassword⟩ := Option.isSome_iff_exists.mp hks
  refine ⟨s, password, hbest, hpassword, ?_, front ++ skipped, back, by simp, ?_⟩
  · exact fun t ht hkt => hstrongest t (List.mem_filter.mpr ⟨ht, hkt⟩)
  · intro t ht hkt
    rcases List.mem_append.mp ht with ht | ht
    · exact hfirst t (hfront ▸ List.mem_filter.mpr ⟨ht, hkt⟩)
    · exact absurd hkt (hskipped t ht)

/-! ## Joining -/

variable [SerialLine σ τ] [TimeScale τ]

def sent (k : Link τ) (known : List (Text × Text)) (h : Host σ) : List Text :=
  Deed.texts ((Dialogue.connectStrongest known).deeds k h)

section

variable (k : Link τ) (h : Host σ)

theorem connectStrongest_of_survey_error {f : Failure} {h₁ : Host σ}
    (hsurvey : Client.survey k h = .error f h₁) :
    connectStrongest k known h = .error f h₁ ∧ sent k known h = ["SCAN".toList] := by
  refine ⟨Call.bind_of_error hsurvey, ?_⟩
  rw [sent, Dialogue.connectStrongest, Dialogue.deeds_bind_of_error k (by rw [Dialogue.run_survey, hsurvey]),
    Dialogue.texts_survey]

theorem connectStrongest_of_unknown {h₁ : Host σ} (hsurvey : Client.survey k h = .ok sightings h₁)
    (hunknown : ∀ t ∈ sightings, isKnown known t = false) :
    connectStrongest k known h = .ok none h₁ ∧ sent k known h = ["SCAN".toList] := by
  have hnone := strongestKnown?_of_unknown hunknown
  constructor
  · rw [connectStrongest, Call.bind_of_ok hsurvey, hnone]
    rfl
  · rw [sent, Dialogue.connectStrongest, Dialogue.deeds_bind_of_ok k (by rw [Dialogue.run_survey, hsurvey]),
      hnone, Deed.texts_append, Dialogue.texts_survey]
    rfl

theorem connectStrongest_of_known {h₁ : Host σ} (hsurvey : Client.survey k h = .ok sightings h₁)
    (hknown : ∃ t ∈ sightings, isKnown known t = true) :
    ∃ s password, Choice known sightings s password ∧
      sent k known h = ["SCAN".toList, Dialogue.joinLine s.ssid password] ∧
      (∀ h₂, Client.connect k s.ssid password h₁ = .ok () h₂ →
        connectStrongest k known h = .ok (some s) h₂) ∧
      ∀ f h₂, Client.connect k s.ssid password h₁ = .error f h₂ →
        connectStrongest k known h = .error f h₂ := by
  obtain ⟨s, password, hbest, hchoice⟩ := strongestKnown?_of_known hknown
  have hrun : connectStrongest k known h =
      (do Client.connect k s.ssid password; return some s : Call σ (Option Sighting)) h₁ := by
    rw [connectStrongest, Call.bind_of_ok hsurvey, hbest]
    dsimp only
    rw [hchoice.password, Option.getD_some]
  refine ⟨s, password, hchoice, ?_, fun h₂ hjoin => ?_, fun f h₂ hjoin => ?_⟩
  · rw [sent, Dialogue.connectStrongest, Dialogue.deeds_bind_of_ok k (by rw [Dialogue.run_survey, hsurvey]),
      hbest, Deed.texts_append, Dialogue.texts_survey]
    dsimp only
    rw [hchoice.password, Dialogue.deeds_bind_of_silent k fun _ _ => rfl, Option.getD_some, Dialogue.texts_connect]
    rfl
  · rw [hrun, Call.bind_of_ok hjoin]
    rfl
  · rw [hrun, Call.bind_of_error hjoin]

end

/-- A survey that fails is all that happens. After one that returns, a network is joined only if one of the
networks in sight is known; then there is one attempt to join the first of the strongest known ones with its
own password, and all ends as that attempt does. -/
theorem strongest_known_is_joined (k : Link τ) (known : List (Text × Text)) (h : Host σ) :
    (Dialogue.connectStrongest known).run k h = connectStrongest k known h ∧
    (∀ f h₁, Client.survey k h = .error f h₁ →
      connectStrongest k known h = .error f h₁ ∧ sent k known h = ["SCAN".toList]) ∧
    ∀ sightings h₁, Client.survey k h = .ok sightings h₁ →
      ((∀ t ∈ sightings, isKnown known t = false) →
        connectStrongest k known h = .ok none h₁ ∧ sent k known h = ["SCAN".toList]) ∧
      ((∃ t ∈ sightings, isKnown known t = true) →
        ∃ s password, Choice known sightings s password ∧
          sent k known h = ["SCAN".toList, Dialogue.joinLine s.ssid password] ∧
          (∀ h₂, Client.connect k s.ssid password h₁ = .ok () h₂ →
            connectStrongest k known h = .ok (some s) h₂) ∧
          ∀ f h₂, Client.connect k s.ssid password h₁ = .error f h₂ →
            connectStrongest k known h = .error f h₂) := by
  refine ⟨by rw [Dialogue.run_connectStrongest], ?_, ?_⟩
  · exact fun f h₁ hsurvey => connectStrongest_of_survey_error k h hsurvey
  · intro sightings h₁ hsurvey
    constructor
    · exact connectStrongest_of_unknown k h hsurvey
    · exact connectStrongest_of_known k h hsurvey

/-- Four networks in sight: a stronger one without a known password, then two that are equally strong. The
join is refused. -/
def crowdedAir : Host (ScriptedLine Millis) where
  line :=
    { clock := .start ⟨1⟩
      ports :=
        [{ settings := Settings.serial (.default Millis)
           script :=
             [{ data := Utf8.encode "NETWORK:Home:-70:SECURED\n".toList },
               { data := Utf8.encode "NETWORK:Loud:-20:OPEN\n".toList },
               { data := Utf8.encode "NETWORK:Cafe:-50:OPEN\n".toList },
               { wait := some ⟨5000⟩, data := Utf8.encode "NETWORK:Work:-50:SECURED\n".toList },
               { wait := some ⟨5000⟩, data := Utf8.encode "ERROR:Connection failed\n".toList }] }] }
  held := true

def passwords : List (Text × Text) :=
  [("Work".toList, "w".toList), ("Cafe".toList, "c".toList), ("Home".toList, "h".toList)]

def sighted : List Sighting :=
  [⟨"Home".toList, -70, true⟩, ⟨"Loud".toList, -20, false⟩, ⟨"Cafe".toList, -50, false⟩,
    ⟨"Work".toList, -50, true⟩]

theorem strongest_known_is_joined_of_crowdedAir :
    (connectStrongest Channel.patientLink passwords).outcome crowdedAir =
      .error (.refused .connection "ERROR:Connection failed".toList) ∧
    sent Channel.patientLink passwords crowdedAir = ["SCAN".toList, "CONNECT:Cafe:c".toList] ∧
    ∃ h₁, Client.survey Channel.patientLink crowdedAir = .ok sighted h₁ ∧
      ∃ s password, Choice passwords sighted s password ∧
        sent Channel.patientLink passwords crowdedAir = ["SCAN".toList, Dialogue.joinLine s.ssid password] ∧
        (∀ h₂, Client.connect Channel.patientLink s.ssid password h₁ = .ok () h₂ →
          connectStrongest Channel.patientLink passwords crowdedAir = .ok (some s) h₂) ∧
        ∀ f h₂, Client.connect Channel.patientLink s.ssid password h₁ = .error f h₂ →
          connectStrongest Channel.patientLink passwords crowdedAir = .error f h₂ := by
  have hsurvey : Client.survey Channel.patientLink crowdedAir =
      .ok sighted ((Client.survey Channel.patientLink).after crowdedAir) :=
    Call.run_of_outcome (by decide +kernel)
  refine ⟨by decide +kernel, by decide +kernel, _, hsurvey, ?_⟩
  exact ((strongest_known_is_joined Channel.patientLink passwords crowdedAir).2.2 _ _ hsurvey).2
    (by decide)

end StationLink.Host.Roaming
