import StationLink.Text.Basic

/-!
# Blank characters and trimming

A blank is a character of bidirectional class WS, B or S or of category Zs: the ASCII controls
9 to 13 and 28 to 31, the space, and the Unicode spaces. Lines are trimmed of blanks at both ends.
-/

namespace StationLink.Text

def blanks : CodeRanges :=
  [(0x09, 0x0D), (0x1C, 0x20), (0x85, 0x85), (0xA0, 0xA0), (0x1680, 0x1680), (0x2000, 0x200A),
    (0x2028, 0x2029), (0x202F, 0x202F), (0x205F, 0x205F), (0x3000, 0x3000)]

def isBlank (c : Char) : Bool :=
  blanks.holds c

/-- The four information separators are blanks, yet no padding of a written number. -/
def isSeparator (c : Char) : Bool :=
  0x1C ≤ c.toNat && c.toNat ≤ 0x1F

def trimStart (t : Text) : Text :=
  t.dropWhile isBlank

def trimEnd (t : Text) : Text :=
  (t.reverse.dropWhile isBlank).reverse

def trim (t : Text) : Text :=
  trimEnd (trimStart t)

theorem trimEnd_append_blank (t : Text) (c : Char) (h : isBlank c = true) :
    trimEnd (t ++ [c]) = trimEnd t := by
  simp [trimEnd, h]

theorem trimEnd_append_of_not_blank (t : Text) (c : Char) (h : isBlank c = false) :
    trimEnd (t ++ [c]) = t ++ [c] := by
  simp [trimEnd, h]

end StationLink.Text
