import Lldp.Loopback.Reads
import Lldp.Main
import Lldp.Proofs.Attribution
import Lldp.Proofs.Convergence
import Lldp.Proofs.Delivery
import Lldp.Proofs.Exchange
import Lldp.Proofs.Isolation
import Lldp.Proofs.Station.CutOff
import Lldp.Proofs.Station.Paging
import Lldp.Receiver.Table
import Lldp.Transmitter.Beacon
import Lldp.Proofs.Desk
import Lldp.Proofs.Desk.Standing
import Lldp.Proofs.Answers
import Lldp.Proofs.Registry.Renaming
import Lldp.Proofs.Registry.Prompting
import Lldp.Proofs.Station.Prompting
import Lldp.Proofs.IterationOrder
import Lldp.Proofs.Registry.Layout
import Lldp.Proofs.Startup.Serving
import Lldp.Proofs.Station.Silence
import Lldp.Proofs.Startup.Progress
import Lldp.Proofs.Startup
import Lldp.Proofs.Registry.Remembering
import Lldp.Proofs.Station.Remembering
import Lldp.Proofs.Station.Pacing
import Lldp.Proofs.KeepAlive
import Lldp.Proofs.Frame.Verdict
import Lldp.Proofs.Shutdown
import Lldp.Proofs.Station.Counting
import Lldp.Proofs.Receiver
import Lldp.Proofs.Beacon.Prompt
import Lldp.Proofs.Reads
import Lldp.Proofs.Config
import Lldp.Proofs.Identifier
import Lldp.Proofs.LinkInfo
import Lldp.Proofs.Limits
