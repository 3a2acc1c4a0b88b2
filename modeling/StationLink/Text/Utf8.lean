import StationLink.Text.Basic

/-!
# UTF-8 with replacement

Decoding is a machine that reads one byte at a time. It keeps what the sequence at hand still
admits: how many bytes are missing, the range of the next one, and the value so far. A byte outside
that range ends the sequence with one replacement character and is read afresh, so that each
maximal ill-formed part gives exactly one replacement character.
-/

namespace StationLink.Text.Utf8

def encode (t : Text) : Bytes :=
  t.flatMap String.utf8EncodeChar

def replacement : Char := Char.ofNat 0xFFFD

/-- A sequence that lacks `missing + 1` bytes, the next of them within `low` and `high`. -/
structure Partial where
  missing : Nat
  low : Nat
  high : Nat
  value : Nat
deriving DecidableEq, Repr

/-- Between two characters there is no sequence at hand. -/
abbrev State : Type := Option Partial

/-- Reads the first byte of a sequence. -/
def start (b : UInt8) : Text × State :=
  let n := b.toNat
  if n < 0x80 then ([Char.ofNat n], none)
  else if n < 0xC2 then ([replacement], none)
  else if n < 0xE0 then ([], some ⟨0, 0x80, 0xBF, n - 0xC0⟩)
  else if n < 0xF0 then
    ([], some ⟨1, if n = 0xE0 then 0xA0 else 0x80, if n = 0xED then 0x9F else 0xBF, n - 0xE0⟩)
  else if n < 0xF5 then
    ([], some ⟨2, if n = 0xF0 then 0x90 else 0x80, if n = 0xF4 then 0x8F else 0xBF, n - 0xF0⟩)
  else ([replacement], none)

def step : State → UInt8 → Text × State
  | none, b => start b
  | some p, b =>
    if p.low ≤ b.toNat ∧ b.toNat ≤ p.high then
      let value := 64 * p.value + (b.toNat - 0x80)
      match p.missing with
      | 0 => ([Char.ofNat value], none)
      | m + 1 => ([], some ⟨m, 0x80, 0xBF, value⟩)
    else
      let (t, s) := start b
      (replacement :: t, s)

/-- The characters that a byte string completes, and the sequence it leaves open. -/
def run (s : State) : Bytes → Text × State
  | [] => ([], s)
  | b :: bs =>
    let (t, s) := step s b
    let (u, s) := run s bs
    (t ++ u, s)

/-- What an open sequence becomes at the end of the input. -/
def finish : State → Text
  | none => []
  | some _ => [replacement]

def decode (bs : Bytes) : Text :=
  let (t, s) := run none bs
  t ++ finish s

theorem encode_append (t u : Text) : encode (t ++ u) = encode t ++ encode u :=
  List.flatMap_append

theorem run_append (s : State) (as bs : Bytes) :
    run s (as ++ bs) = ((run s as).1 ++ (run (run s as).2 bs).1, (run (run s as).2 bs).2) := by
  induction as generalizing s with
  | nil => simp [run]
  | cons a as ih => simp [run, ih]

end StationLink.Text.Utf8
