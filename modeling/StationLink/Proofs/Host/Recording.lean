import StationLink.Proofs.Serial.Recorded

/-!
# Calls do not notice a record

Every call of the channel and of the bridge does on a recorded line what it does on the line itself.
-/

namespace StationLink.Host

open Serial Protocol Call

variable {σ τ : Type} [SerialLine σ τ] [TimeScale τ]

theorem Channel.records_readLines (k : Link τ) (duration : τ) :
    Records (σ := σ) (readLines k duration) (readLines k duration) :=
  records_iff.mpr (sees_recorded.shadows_readLines k duration)

namespace Client

theorem records_readLines (k : Link τ) (duration : τ) :
    Records (σ := σ) (readLines k duration) (readLines k duration) :=
  records_iff.mpr (sees_recorded.shadows_window k duration)

theorem records_query (k : Link τ) (r : Request) : Records (σ := σ) (query k r) (query k r) :=
  records_iff.mpr (sees_recorded.shadows_query k r)

end Client

end StationLink.Host
