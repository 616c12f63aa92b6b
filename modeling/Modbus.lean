import Modbus.Connection.Session
import Modbus.Connection.Range
import Modbus.Proofs.BitPacking
import Modbus.Server.DeviceServer
import Modbus.Server.Gateway
import Modbus.Settings.Point
import Modbus.Settings.Source
import Modbus.Proofs.Framing.Wrapping
import Modbus.Proofs.Connection.Leftover
import Modbus.Proofs.Exchange
import Modbus.Proofs.Server.Alignment
import Modbus.Proofs.Connection.Jobs
import Modbus.Proofs.Connection.Serial
import Modbus.Proofs.Framing.Acceptance
import Modbus.Proofs.Identification.Merging
import Modbus.Proofs.Identification.Paging
import Modbus.Proofs.Identification.Reading
import Modbus.Proofs.Connection.Waiting
import Modbus.Proofs.Connection.Transmission
import Modbus.Proofs.Connection.Ended
import Modbus.Proofs.Framing.Independence
import Modbus.Proofs.Connection.Movers
import Modbus.Proofs.Connection.Custody
import Modbus.Proofs.Connection.Shifts
import Modbus.Proofs.Connection.Line
import Modbus.Proofs.Connection.Coherence
import Modbus.Proofs.Connection.IdleClose
import Modbus.Proofs.Connection.Docket
import Modbus.Proofs.Connection.Amendments
import Modbus.Proofs.Connection.Accounts
import Modbus.Proofs.Connection.Spans
import Modbus.Proofs.Connection.Breakdown
import Modbus.Proofs.Connection.Outcomes
import Modbus.Proofs.Connection.Retirement
import Modbus.Proofs.Connection.Disposal
import Modbus.Proofs.Connection.Calling
import Modbus.Proofs.Proxy.Requests
import Modbus.Proofs.Proxy.Transparency
import Modbus.Proofs.Grammar
import Modbus.Proofs.Server.Effects
import Modbus.Proofs.Framing.Spelling
import Modbus.Proofs.Server.Recovery
import Modbus.Proofs.Server.WriteLog
import Modbus.Proofs.Guarded.Framings
import Modbus.Proofs.Framing.Faults
import Modbus.Proofs.ReadReply
import Modbus.Proofs.Connection.Reconnecting
import Modbus.Proofs.Confirmation
import Modbus.Proofs.BatchOrder
import Modbus.Proofs.Proxy.Identification
import Modbus.Proofs.Proxy.Answers
import Modbus.Proofs.Identification.Storing
import Modbus.Proofs.Framing.Decoding
import Modbus.Proofs.Server.Relaying
import Modbus.Proofs.Framing.Monotonicity
import Modbus.Proofs.Framing.Transactions
import Modbus.Proofs.Connection.Trips
import Modbus.Proofs.Identification.Chaining
import Modbus.Proofs.Connection.Beats
import Modbus.Proofs.Connection.GuardTime
import Modbus.Proofs.Connection.Traffic
import Modbus.Proofs.BitRoundTrip
