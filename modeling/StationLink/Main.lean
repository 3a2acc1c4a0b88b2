import StationLink.Service.Rehearsal

/-!
# The command line

Rehearses the service with the words of the command line, and prints the report.
-/

def main (args : List String) : IO UInt32 := do
  let report := StationLink.Service.report (args.map String.toList)
  for line in report.lines do
    IO.println (String.ofList line)
  return report.code.toUInt32
