import StationLink.Service.Switch
import StationLink.Text.Quoted

/-!
# Faults of usage

What can be wrong with a command line, and the wording of each fault.
-/

namespace StationLink.Service

open Text

/-- The two words that a command line must have. -/
inductive Operand where
  | ssid
  | password
deriving DecidableEq, Repr

def Operand.name : Operand → Text
  | ssid => "ssid".toList
  | password => "password".toList

inductive UsageFault where
  | ambiguous (word : Text) (candidates : List Switch)
  | valueMissing (setting : Setting)
  | valueIgnored (switch : Switch) (value : Text)
  | noInteger (setting : Setting) (value : Text)
  | noNumber (setting : Setting) (value : Text)
  | operandsMissing (operands : List Operand)
  | unrecognized (words : List Text)
deriving DecidableEq, Repr

namespace UsageFault

/-- A message about one switch. -/
def about (s : Switch) (message : Text) : Text :=
  "argument ".toList ++ s.title ++ ": ".toList ++ message

def commas : Text := ", ".toList

def message : UsageFault → Text
  | ambiguous word candidates =>
    "ambiguous option: ".toList ++ word ++ " could match ".toList ++
      commas.intercalate (candidates.map Switch.name)
  | valueMissing s => about (.setting s) "expected one argument".toList
  | valueIgnored s value => about s ("ignored explicit argument ".toList ++ Quoted.write value)
  | noInteger s value => about (.setting s) ("invalid int value: ".toList ++ Quoted.write value)
  | noNumber s value => about (.setting s) ("invalid float value: ".toList ++ Quoted.write value)
  | operandsMissing operands =>
    "the following arguments are required: ".toList ++
      commas.intercalate (operands.map Operand.name)
  | unrecognized words =>
    "unrecognized arguments: ".toList ++ [' '].intercalate words

end UsageFault

/-- What ends a command line before it becomes options. -/
inductive Stop where
  | help
  | usage (fault : UsageFault)
deriving DecidableEq, Repr

def Stop.exitCode : Stop → Nat
  | help => 0
  | usage _ => 2

end StationLink.Service
