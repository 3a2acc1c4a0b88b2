import StationLink.Service.Word
import StationLink.Text.Decimal

/-!
# Options

The words of a command line are read from left to right: switches and their values at any place, and
the name and the password of the network as the first and the second operand. After the mark that
ends the options every word is an operand. A word of no use is kept, to be reported at the end. The
mark itself is no value: where it stands for one, none is given.
-/

namespace StationLink.Service

open Text

structure Options where
  ssid : Text
  password : Option Text
  port : Option Text
  baudrate : Option Int
  /-- The rest between two checks, in seconds. -/
  interval : Option Decimal
  verbose : Bool
deriving DecidableEq, Repr

structure Reading where
  ssid : Option Text := none
  password : Option (Option Text) := none
  port : Option Text := some "/dev/ttyS0".toList
  baudrate : Option Int := some 115200
  interval : Option Decimal := some (.ofNat 30)
  verbose : Bool := false
  /-- Words of no use. -/
  strays : List Text := []
  /-- Whether the last word was of use as an operand. -/
  afterOperand : Bool := false
deriving DecidableEq, Repr

namespace Reading

def stray (t : Text) (r : Reading) : Reading :=
  { r with strays := r.strays ++ [t], afterOperand := false }

/-- A value, unless it is the mark that ends the options. -/
def given? (t : Text) : Option Text :=
  if t = endOfOptions then none else some t

def operand (t : Text) (password : Option Text) (r : Reading) : Reading :=
  match r.ssid, r.password with
  | none, _ => { r with ssid := some t, afterOperand := true }
  | some _, none => { r with password := some password, afterOperand := true }
  | some _, some _ => r.stray t

def set (s : Setting) (value : Option Text) (r : Reading) : Except Stop Reading :=
  let r := { r with afterOperand := false }
  match s, value with
  | .port, port => .ok { r with port }
  | .baudrate, none => .ok { r with baudrate := none }
  | .interval, none => .ok { r with interval := none }
  | .baudrate, some t =>
    match Numeral.strict? t with
    | some baudrate => .ok { r with baudrate := some baudrate }
    | none => .error (.usage (.noInteger s t))
  | .interval, some t =>
    match Decimal.read? t with
    | some interval => .ok { r with interval := some interval }
    | none => .error (.usage (.noNumber s t))

/-- What becomes of the help switch whose short name has letters run on: they may only name the same
switch again. -/
def helpStop : Text → Stop
  | [] => .help
  | 'h' :: letters => helpStop letters
  | letters => .usage (.valueIgnored .help letters)

def words : List Word → Reading → Except Stop Reading
  | [], r => .ok r
  | .operand t :: ws, r => words ws (r.operand t (some t))
  | .unknown t :: ws, r => words ws (r.stray t)
  | .shortHelp letters :: _, _ => .error (helpStop letters)
  | .switch .help none :: _, _ => .error .help
  | .switch .verbose none :: ws, r => words ws { r with verbose := true, afterOperand := false }
  | .switch (.setting s) (some value) :: ws, r => do words ws (← r.set s (given? value))
  | .switch (.setting s) none :: .operand value :: ws, r => do words ws (← r.set s (some value))
  | .switch (.setting s) none :: _, _ => .error (.usage (.valueMissing s))
  | .switch s (some value) :: _, _ => .error (.usage (.valueIgnored s value))

def operands (ts : List Text) (r : Reading) : Reading :=
  ts.foldl (fun r t => r.operand t (given? t)) r

def isComplete (r : Reading) : Bool :=
  r.password.isSome

/-- Reads the mark that ends the options, and what follows it. The mark belongs to the operand
before it, or else to the one behind it, which is then taken as it stands; without either it is of
no use. -/
def endOptions (ts : List Text) (r : Reading) : Reading :=
  if r.afterOperand then r.operands ts
  else
    match ts, r.isComplete with
    | t :: ts, false => (r.operand t (some t)).operands ts
    | ts, _ => (r.stray endOfOptions).operands ts

def finish (r : Reading) : Except Stop Options :=
  match r.ssid, r.password with
  | none, _ => .error (.usage (.operandsMissing [.ssid, .password]))
  | some _, none => .error (.usage (.operandsMissing [.password]))
  | some ssid, some password =>
    if r.strays = [] then
      .ok { r with ssid, password }
    else
      .error (.usage (.unrecognized r.strays))

end Reading

namespace Options

def ofWords? (argv : List Text) : Except Stop Options := do
  let ws ← (argv.takeWhile (· ≠ endOfOptions)).mapM Word.ofText?
  let r ← Reading.words ws {}
  match argv.dropWhile (· ≠ endOfOptions) with
  | [] => r.finish
  | _ :: ts => (r.endOptions ts).finish

/-- A text as it is sent and noted; where there is none, an empty pair of brackets. -/
def spelled (t : Option Text) : Text :=
  t.getD "[]".toList

end Options

end StationLink.Service
