import StationLink.Text.Numeral

/-!
# Decimal readings

A number written in decimal: padding, a sign, digits of any script with single underscores between
them, a point, an exponent; or one of the words for infinity and for a value that is not a number.
A reading keeps what was written and rounds nothing.
-/

namespace StationLink.Text

inductive Decimal where
  /-- The value `± digits · 10 ^ exponent`. -/
  | finite (negative : Bool) (digits : Nat) (exponent : Int)
  | infinite (negative : Bool)
  | notANumber (negative : Bool)
deriving DecidableEq, Repr

namespace Decimal

def ofNat (n : Nat) : Decimal :=
  .finite false n 0

/-- A decimal digit of any script becomes the ASCII digit of its value. -/
def plainDigit (c : Char) : Char :=
  match digitValue? c with
  | some d => Nat.digitChar d
  | none => c

/-- Removes single underscores that stand between digits; refuses any other underscore. -/
def ungroup? (afterDigit : Bool) : Text → Option Text
  | [] => some []
  | '_' :: c :: t =>
    if afterDigit && c.isDigit then (ungroup? true t).map (c :: ·) else none
  | c :: t => if c = '_' then none else (ungroup? c.isDigit t).map (c :: ·)

def exponent? : Text → Option Int
  | [] => some 0
  | mark :: t =>
    let (negative, digits) := Numeral.takeSign t
    if mark.toLower = 'e' && digits ≠ [] && digits.all Char.isDigit then
      some (Numeral.withSign negative (Numeral.ofDigits (digits.filterMap digitValue?)))
    else
      none

def unsigned? (negative : Bool) (t : Text) : Option Decimal :=
  let word := t.map Char.toLower
  if word = "inf".toList ∨ word = "infinity".toList then some (.infinite negative)
  else if word = "nan".toList then some (.notANumber negative)
  else
    let whole := t.takeWhile Char.isDigit
    let (fraction, rest) :=
      match t.dropWhile Char.isDigit with
      | '.' :: rest => (rest.takeWhile Char.isDigit, rest.dropWhile Char.isDigit)
      | rest => ([], rest)
    if whole ++ fraction = [] then none
    else
      (exponent? rest).map fun e =>
        .finite negative (Numeral.ofDigits ((whole ++ fraction).filterMap digitValue?))
          (e - fraction.length)

def read? (t : Text) : Option Decimal := do
  let plain ← ungroup? false ((Numeral.unpad t).map plainDigit)
  let (negative, rest) := Numeral.takeSign plain
  unsigned? negative rest

end Decimal

end StationLink.Text
