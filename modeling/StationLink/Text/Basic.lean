/-!
# Texts and byte strings

Lines, names and payloads are sequences of characters; what travels on a serial line or a socket
is a sequence of bytes. Both are plain lists, so that every list lemma applies to them.
-/

namespace StationLink

/-- A text, as the sequence of its characters. -/
abbrev Text : Type := List Char

/-- A byte string, as the sequence of its bytes. -/
abbrev Bytes : Type := List UInt8

/-- A table of code points: inclusive ranges in increasing order. -/
abbrev CodeRanges : Type := List (Nat × Nat)

/-- Membership of a character in a table. -/
def CodeRanges.holds (table : CodeRanges) (c : Char) : Bool :=
  table.any fun range => range.1 ≤ c.toNat && c.toNat ≤ range.2

end StationLink
