import ReliableTransport.Exchange
import ReliableTransport.Proofs.Network.Delivery
import ReliableTransport.Proofs.Network.FlowControl
import ReliableTransport.Proofs.Network.Recovery
import ReliableTransport.Session.Schedule
import ReliableTransport.Proofs.Connection.Writing
import ReliableTransport.Proofs.Connection.Soundness
import ReliableTransport.Proofs.Connection.Reception
import ReliableTransport.Proofs.Station.Basic
import ReliableTransport.Proofs.Station.SendSpace
import ReliableTransport.Proofs.Station.Phases
import ReliableTransport.Proofs.Station.Wire
import ReliableTransport.Proofs.Endpoint
import ReliableTransport.Proofs.Stream
import ReliableTransport.Proofs.Session.Chronicle
import ReliableTransport.Proofs.Session.Mirror
import ReliableTransport.Proofs.Session.Preservation
import ReliableTransport.Proofs.Session.Delivery
import ReliableTransport.Proofs.Connection.Moderation
import ReliableTransport.Proofs.Session.Moderation
import ReliableTransport.Proofs.Fragments
import ReliableTransport.Proofs.Station.Intake
import ReliableTransport.Proofs.Station.Attention
import ReliableTransport.Proofs.Station.Acknowledgments
import ReliableTransport.Proofs.Station.Finality
import ReliableTransport.Proofs.Station.Totality
import ReliableTransport.Proofs.Connection.Transitions
import ReliableTransport.Proofs.Network.Agreement
import ReliableTransport.Proofs.Service.Basic
import ReliableTransport.Proofs.Service.Outcome
import ReliableTransport.Proofs.Service.Reporting
import ReliableTransport.Proofs.Service.Life
import ReliableTransport.Proofs.Station.Coverage
import ReliableTransport.Proofs.Service.Conclusion
import ReliableTransport.Proofs.Station.Accounts
import ReliableTransport.Proofs.Service.Honesty
import ReliableTransport.Proofs.Network.Extinction
import ReliableTransport.Proofs.Service.Conservation
import ReliableTransport.Proofs.Service.Vigilance
import ReliableTransport.Proofs.FlatWindow
import ReliableTransport.Proofs.FragmentOrder
import ReliableTransport.Proofs.Station.Redelivery
import ReliableTransport.Proofs.Station.Answering
import ReliableTransport.Proofs.CumulativeAcks
import ReliableTransport.Proofs.Station.Acceptance
import ReliableTransport.Proofs.Station.Timeouts
import ReliableTransport.Proofs.Station.Vigil
import ReliableTransport.Proofs.Station.Flushing
import ReliableTransport.Proofs.RoundTrip.Bounds
import ReliableTransport.Proofs.RoundTrip.Convergence
import ReliableTransport.Proofs.Station.Transits
import ReliableTransport.Proofs.Station.Measurement
import ReliableTransport.Proofs.Station.Aging
import ReliableTransport.Proofs.ReceiveWindow.Totality
import ReliableTransport.Proofs.SeqNum.HalfSpace
