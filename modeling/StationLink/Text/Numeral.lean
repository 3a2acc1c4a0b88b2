import StationLink.Text.Blank
import StationLink.Text.Digit

/-!
# Decimal numerals

Integers are written in decimal without leading zeros, and read in three ways: at the beginning of
a text (`leading`), from whatever run of digits it begins with (`lenient`), or as the whole text
(`strict?`). No numeral of more than `limit` digits is written or read.
-/

namespace StationLink.Text.Numeral

/-- The longest numeral, in digits. -/
def limit : Nat := 4300

def ofDigits (digits : List Nat) : Nat :=
  digits.foldl (fun n d => 10 * n + d) 0

def withSign (negative : Bool) (n : Nat) : Int :=
  if negative then -(n : Int) else n

/-- Parts a text from its sign; `true` stands for a minus. -/
def takeSign : Text → Bool × Text
  | '-' :: t => (true, t)
  | '+' :: t => (false, t)
  | t => (false, t)

def write? (n : Int) : Option Text :=
  let digits := Nat.toDigits 10 n.natAbs
  if digits.length ≤ limit then
    some (if n < 0 then '-' :: digits else digits)
  else
    none

/-- What stands at the beginning of a text, where a numeral is expected. -/
inductive Leading where
  | absent
  | overlong
  | value (n : Int)
deriving DecidableEq, Repr

/-- Reads blanks, a sign and the longest run of decimal digits; what follows is ignored. -/
def leading (t : Text) : Leading :=
  let (negative, rest) := takeSign (trimStart t)
  let run := rest.takeWhile isDecimal
  if run = [] then .absent
  else if run.length ≤ limit then .value (withSign negative (ofDigits (run.filterMap digitValue?)))
  else .overlong

/-- Reads a sign and the longest run of digits of any kind; zero when that run is no numeral. -/
def lenient (t : Text) : Int :=
  let (negative, rest) := takeSign (trim t)
  let run := rest.takeWhile isDigit
  if run.all isDecimal && run.length ≤ limit then
    withSign negative (ofDigits (run.filterMap digitValue?))
  else
    0

/-- Strips the blanks that may surround a written number, which excludes the separators. -/
def unpad (t : Text) : Text :=
  let isPad (c : Char) : Bool := isBlank c && !isSeparator c
  ((t.dropWhile isPad).reverse.dropWhile isPad).reverse

/-- The digits of a numeral in which single underscores may stand between digits. -/
def grouped? : Text → Option (List Nat)
  | [] => none
  | [c] => (digitValue? c).map ([·])
  | c :: '_' :: t => do
    let d ← digitValue? c
    let ds ← grouped? t
    return d :: ds
  | c :: t => do
    let d ← digitValue? c
    let ds ← grouped? t
    return d :: ds

/-- Reads a text that is a numeral as a whole, padding, sign and digit groups allowed. -/
def strict? (t : Text) : Option Int := do
  let (negative, rest) := takeSign (unpad t)
  let digits ← grouped? rest
  if digits.length ≤ limit then
    return withSign negative (ofDigits digits)
  else
    none

theorem write?_isSome_iff (n : Int) :
    (write? n).isSome = true ↔ (Nat.toDigits 10 n.natAbs).length ≤ limit := by
  simp only [write?]
  split <;> simp_all

end StationLink.Text.Numeral
