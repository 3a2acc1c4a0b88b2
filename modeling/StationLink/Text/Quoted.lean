import StationLink.Text.Field
import StationLink.Text.Printable

/-!
# Quoted texts

A quoted text stands between single quotes, or between double quotes if it has single quotes and no
double ones. The quote at hand and the backslash are escaped, and so is all that is not printable:
tab and line ends by a letter, other characters by their code in two, four or eight digits.
-/

namespace StationLink.Text.Quoted

def single : Char := Char.ofNat 0x27

def double : Char := Char.ofNat 0x22

def backslash : Char := Char.ofNat 0x5C

/-- The last `width` hexadecimal digits of a number, in lower case. -/
def hex (width n : Nat) : Text :=
  (List.range width).reverse.map fun i => Nat.digitChar (n >>> (4 * i) % 16)

def escape (quote c : Char) : Text :=
  if c = quote ∨ c = backslash then [backslash, c]
  else if c = '\n' then [backslash, 'n']
  else if c = '\r' then [backslash, 'r']
  else if c = '\t' then [backslash, 't']
  else if isPrintable c then [c]
  else if c.toNat < 0x100 then backslash :: 'x' :: hex 2 c.toNat
  else if c.toNat < 0x10000 then backslash :: 'u' :: hex 4 c.toNat
  else backslash :: 'U' :: hex 8 c.toNat

def write (t : Text) : Text :=
  let quote := if single ∈ t ∧ double ∉ t then double else single
  quote :: t.flatMap (escape quote) ++ [quote]

end StationLink.Text.Quoted
