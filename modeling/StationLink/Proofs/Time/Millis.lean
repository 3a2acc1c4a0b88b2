import StationLink.Time.Scale

/-!
# Time in whole milliseconds

A time scale without rounding, for runs that are computed. A decimal reading is one of seconds, and
what it has below a millisecond is cut off.
-/

namespace StationLink

open Text (Decimal)

structure Millis where
  count : Int
deriving DecidableEq, Repr

namespace Millis

def ofDecimal : Decimal → Millis
  | .finite negative digits exponent =>
    let size :=
      if 0 ≤ exponent then 1000 * digits * Nat.pow 10 exponent.toNat
      else 1000 * digits / Nat.pow 10 exponent.natAbs
    ⟨Text.Numeral.withSign negative size⟩
  | .infinite _ | .notANumber _ => ⟨0⟩

def flaw? (m : Millis) : Option Flaw :=
  if m.count < 0 then some .negative else none

instance : TimeScale Millis where
  zero := ⟨0⟩
  add a b := ⟨a.count + b.count⟩
  before a b := a.count < b.count
  ofMillis n := ⟨n⟩
  ofDecimal := ofDecimal

end Millis

end StationLink
