import StationLink.Protocol.Mark
import StationLink.Text.Field

/-!
# Addresses and inbound data

The station's address is what follows the mark of the first address line, verbatim. Data from the
remote peer of the TCP session comes in lines of its own, among the answers to requests.
-/

namespace StationLink.Protocol

open Text

def address? (lines : List Text) : Option Text :=
  lines.findSome? (after? Mark.ip)

/-- The payloads of all data lines, in order. -/
def payloads (lines : List Text) : List Text :=
  lines.filterMap (after? Mark.tcpData)

theorem payloads_append (ls ms : List Text) : payloads (ls ++ ms) = payloads ls ++ payloads ms :=
  List.filterMap_append

end StationLink.Protocol
