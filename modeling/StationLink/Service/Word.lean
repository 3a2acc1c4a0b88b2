import StationLink.Service.Usage
import StationLink.Text.Digit

/-!
# Words of the command line

Each word before the mark that ends the options is taken for an operand or for a switch by itself
alone. A switch may be cut short as long as one switch only begins that way, and may have a value
attached behind an equals sign. A word that begins with a dash and names no switch is still an
operand if it is a negative number or has a space.
-/

namespace StationLink.Service

open Text

def endOfOptions : Text := "--".toList

inductive Word where
  | operand (text : Text)
  | switch (s : Switch) (attached : Option Text)
  /-- The short name of the help switch with letters run on, behind an equals sign or not. -/
  | shortHelp (letters : Text)
  | unknown (text : Text)
deriving DecidableEq, Repr

namespace Word

/-- A minus, decimal digits with at most one point, and perhaps a final line feed. -/
def isNegativeNumber (t : Text) : Bool :=
  match if t.getLast? = some '\n' then t.dropLast else t with
  | '-' :: digits =>
    match cutFirst? '.' digits with
    | some (whole, fraction) =>
      whole.all isDecimal && fraction ≠ [] && fraction.all isDecimal
    | none => digits ≠ [] && digits.all isDecimal
  | _ => false

def stray (t : Text) : Word :=
  if isNegativeNumber t ∨ ' ' ∈ t then .operand t else .unknown t

/-- A full name with a value attached. Behind the short name of the help switch the value is taken for
letters run on. -/
def ofAttached? (name value : Text) : Option Word :=
  if name = Switch.shortHelp ∧ value ≠ [] then some (.shortHelp value)
  else (Switch.ofName? name).map fun s => .switch s (some value)

def parts (t : Text) : Text × Option Text :=
  match cutFirst? '=' t with
  | some (name, value) => (name, some value)
  | none => (t, none)

/-- The switches whose name begins with the given text, which is more than one dash. -/
def candidates (start : Text) : List Switch :=
  Switch.all.filter fun s => (after? endOfOptions start).isSome && (after? start s.name).isSome

def ofAbbreviation? (t : Text) : Except Stop Word :=
  match candidates (parts t).1 with
  | [s] => .ok (.switch s (parts t).2)
  | s :: r :: more => .error (.usage (.ambiguous t (s :: r :: more)))
  | [] =>
    match after? Switch.shortHelp t with
    | some letters => .ok (.shortHelp letters)
    | none => .ok (stray t)

def ofText? (t : Text) : Except Stop Word :=
  if t.head? ≠ some '-' ∨ t = ['-'] then .ok (.operand t)
  else
    match Switch.ofName? t with
    | some s => .ok (.switch s none)
    | none =>
      match (parts t).2.bind (ofAttached? (parts t).1) with
      | some word => .ok word
      | none => ofAbbreviation? t

end Word

end StationLink.Service
