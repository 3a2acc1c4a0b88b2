import StationLink.Time.Scale

/-!
# Time in doubles

Time as an IEEE 754 double, in seconds. A decimal reading becomes the nearest double; a double
becomes a whole number of microseconds by one multiplication and a rounding that sends a half to
the even neighbour, done exactly on significand and exponent.
-/

namespace StationLink.Double

open Text (Decimal)

/-- The nearest double. Readings beyond the range of doubles are decided by their order of
magnitude, so that no power of ten out of reach is ever computed. -/
def ofDecimal : Decimal → Float
  | .finite negative digits exponent =>
    let magnitude : Int := (Nat.toDigits 10 digits).length + exponent
    let x : Float :=
      if digits = 0 ∨ magnitude < -400 then 0
      else if 400 < magnitude then 1 / 0
      else Float.ofScientific digits (exponent < 0) exponent.natAbs
    if negative then -x else x
  | .infinite negative => if negative then -1 / 0 else 1 / 0
  | .notANumber _ => 0 / 0

/-- The bits of the nearest double; what is not a number keeps the sign that was written. -/
def bitsOfDecimal : Decimal → UInt64
  | .notANumber negative => if negative then 0xFFF8000000000000 else 0x7FF8000000000000
  | d => (ofDecimal d).toBits

/-- The quotient by `2 ^ k`, rounded to the nearest, a half to the even neighbour. -/
def shiftRightEven (m k : Nat) : Nat :=
  let q := m >>> k
  let r := m - q <<< k
  let unit := 1 <<< k
  if unit < 2 * r ∨ (2 * r = unit ∧ q % 2 = 1) then q + 1 else q

/-- The significand bit that the format leaves out: the bit above its 52 stored ones. -/
def hiddenBit : Nat := 1 <<< 52

/-- The nearest integer, zero for what is not finite. -/
def round (x : Float) : Int :=
  let bits := x.toBits.toNat
  let exponent := bits >>> 52 % 2048
  let fraction := bits % hiddenBit
  let size :=
    if exponent = 2047 then 0
    else
      let significand := if exponent = 0 then fraction else hiddenBit + fraction
      let scale := max exponent 1
      if 1075 ≤ scale then significand <<< (scale - 1075)
      else shiftRightEven significand (1075 - scale)
  if bits >>> 63 = 1 then -(size : Int) else size

def micros (seconds : Float) : Int :=
  round (seconds * 1000000)

/-- The rests that the clock of the system refuses: it counts their nanoseconds in 64 bits, one of them for
the sign, and takes none that are negative. -/
def flaw? (seconds : Float) : Option Flaw :=
  let nanos := seconds * 1000000000
  if nanos.isNaN then some .notANumber
  else if 9223372036854775808 ≤ nanos || nanos < -9223372036854775808 then some .endless
  else if nanos < 0 then some .negative
  else none

instance : TimeScale Float where
  zero := 0
  add := (· + ·)
  before a b := a < b
  ofMillis n := n.toFloat / 1000
  ofDecimal := ofDecimal

end StationLink.Double
