import StationLink.Board.Transceiver
import StationLink.Host.Roaming
import StationLink.Main
import StationLink.Serial.Scripted
import StationLink.Proofs.Text.Encoding
import StationLink.Proofs.Text.Numbers
import StationLink.Proofs.Text.Parting
import StationLink.Proofs.Board.Around
import StationLink.Proofs.Board.Dispatch
import StationLink.Proofs.Board.Framing
import StationLink.Proofs.Board.Codec
import StationLink.Proofs.Host.Recording
import StationLink.Proofs.Host.Channel
import StationLink.Proofs.Host.Reassembly
import StationLink.Proofs.Time.Millis
import StationLink.Proofs.Host.Windows
import StationLink.Proofs.Host.Delivery
import StationLink.Proofs.Board.Plain
import StationLink.Proofs.Protocol.Status
import StationLink.Proofs.Board.Printing
import StationLink.Proofs.Board.Report
import StationLink.Proofs.Board.Answers
import StationLink.Proofs.Host.Exchange
import StationLink.Proofs.Host.Calls
import StationLink.Proofs.Host.Resting
import StationLink.Proofs.Host.Truth
import StationLink.Proofs.Board.Outcomes
import StationLink.Proofs.Board.Verdicts
import StationLink.Proofs.Board.WholeLines
import StationLink.Proofs.Serial.Conservation
import StationLink.Proofs.Board.Carrying
import StationLink.Proofs.Host.Hearing
import StationLink.Proofs.Host.Histories
import StationLink.Proofs.Host.Replies
import StationLink.Proofs.Host.Leftovers
import StationLink.Proofs.Host.Watching
import StationLink.Proofs.Board.Sockets
import StationLink.Proofs.Board.Pieces
import StationLink.Proofs.Board.Wireless
import StationLink.Proofs.Host.Commands
import StationLink.Proofs.Board.Inflow
import StationLink.Proofs.Host.Inbound
import StationLink.Proofs.Board.Wiring
import StationLink.Proofs.Board.Tame
import StationLink.Proofs.Protocol.Inbound
import StationLink.Proofs.Protocol.Telling
import StationLink.Proofs.Board.Abreast
import StationLink.Proofs.Host.Peers
import StationLink.Proofs.Board.Placing
import StationLink.Proofs.Board.Conserving
import StationLink.Proofs.Board.Rebooting
import StationLink.Proofs.Serial.Reopening
import StationLink.Proofs.Host.Lossless
import StationLink.Proofs.Board.Association
import StationLink.Proofs.Board.Reporting
import StationLink.Proofs.Board.Joining
import StationLink.Proofs.Host.Names
import StationLink.Proofs.Host.Ports
import StationLink.Proofs.Board.Batches
import StationLink.Proofs.Protocol.Malformed
import StationLink.Proofs.Host.Promised
import StationLink.Proofs.Board.Surveying
import StationLink.Proofs.Serial.Paired
import StationLink.Proofs.Serial.Reframed
import StationLink.Proofs.Host.Surveying
import StationLink.Proofs.Host.Ending
import StationLink.Proofs.Host.Spinning
import StationLink.Proofs.Host.Silence
import StationLink.Proofs.Host.Agreement
import StationLink.Proofs.Host.Ahead
import StationLink.Proofs.Host.Dialogues
import StationLink.Proofs.Host.Patrolling
import StationLink.Proofs.Host.Roaming
import StationLink.Proofs.Host.Unsent
import StationLink.Proofs.Service.Releasing
import StationLink.Proofs.Board.Transceiver
import StationLink.Proofs.Board.Operating
import StationLink.Proofs.Protocol.Folding
import StationLink.Proofs.Text.Openings
import StationLink.Proofs.Host.Deciding
