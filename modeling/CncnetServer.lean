import CncnetServer.Lib.Run
import CncnetServer.Lib.DashMap
import CncnetServer.Lib.Slots
import CncnetServer.Lib.Decimal
import CncnetServer.TunnelV2
import CncnetServer.TunnelV3
import CncnetServer.V3.Step
import CncnetServer.V3.Run
import CncnetServer.V2.Step
import CncnetServer.V2.Run
import CncnetServer.RelayAuthorisation
import CncnetServer.MaintenanceMode
import CncnetServer.V3.Isolation
import CncnetServer.Lib.Heap
import CncnetServer.Lib.Threads
import CncnetServer.V3.Threads
import CncnetServer.V3.LiveBindings
import CncnetServer.V3.Capacity
import CncnetServer.V2.Threads
import CncnetServer.Lib.History
import CncnetServer.V2.SlotOwnership
import CncnetServer.V2.Capacity
import CncnetServer.V2.SlotOrigin
import CncnetServer.BatchedMetrics
import CncnetServer.Prometheus
import CncnetServer.V2.Allocation
import CncnetServer.WholeDatagrams
import CncnetServer.V3.ReservedId
import CncnetServer.Established
import CncnetServer.Lib.Spacing
import CncnetServer.V3.Commands
import CncnetServer.V3.Administration
import CncnetServer.V3.AddressLimit
import CncnetServer.Amplification
import CncnetServer.Gauges
import CncnetServer.V3.Tables
import CncnetServer.MaintenancePassword
import CncnetServer.Lib.Acceptor
import CncnetServer.Listeners
import CncnetServer.Lib.Lease
import CncnetServer.V3.Heartbeat
import CncnetServer.V2.Heartbeat
import CncnetServer.Cleanup
import CncnetServer.Lib.Buffer
import CncnetServer.PeerToPeer
import CncnetServer.P2pReplies
import CncnetServer.Traffic
import CncnetServer.V2.Traffic
import CncnetServer.V3.Traffic
import CncnetServer.V3.Interleaving
import CncnetServer.V2.Interleaving
import CncnetServer.Forwarding
import CncnetServer.Sessions
import CncnetServer.Lib.Throttle
import CncnetServer.Limited
import CncnetServer.RateLimits
import CncnetServer.Lib.Url
import CncnetServer.Occupancy
import CncnetServer.Settings
import CncnetServer.Announcements
import CncnetServer.V2.HttpAccounts
import CncnetServer.V2.Status
import CncnetServer.Lib.Words
import CncnetServer.Headers
import CncnetServer.Shutdown
import CncnetServer.Lifecycle
import CncnetServer.P2pLimits
import CncnetServer.Lib.Sharing
import CncnetServer.Writes
import CncnetServer.Server
