import WormsAttack.Exporter.Isolation
import WormsAttack.Limiter.Isolation
import WormsAttack.Mitigation
import WormsAttack.Limiter.Tables
import WormsAttack.Ponder.Codec
import WormsAttack.Configurator.Transit
import WormsAttack.Udp.Feedback
import WormsAttack.Worm.Epidemic
import WormsAttack.Distack.Subscriptions
import WormsAttack.Distack.Stages
import WormsAttack.Distack.Delivery
import WormsAttack.Distack.FrameLimits
import WormsAttack.Distack.MessageQueue
import WormsAttack.Distack.Intervals
import WormsAttack.Distack.Conversion
import WormsAttack.Distack.PatriciaCopy
import WormsAttack.Limiter.Flows
import WormsAttack.Ids.Balance
import WormsAttack.Exporter.Ownership
import WormsAttack.Configurator.Reachability
import WormsAttack.Tcp.Ignored
import WormsAttack.Udp.Limit
import WormsAttack.Udp.Replies
import WormsAttack.TcpApp.Progress
import WormsAttack.Traffic.Files
import WormsAttack.Traffic.Selection
import WormsAttack.Traffic.Servers
import WormsAttack.Traffic.Users
import WormsAttack.Traffic.Ratios
import WormsAttack.Queue.DropTailTraceQueue
import WormsAttack.Distack.Sampling
import WormsAttack.Distack.Systematic
import WormsAttack.Distack.History
import WormsAttack.Distack.HostAnomalies
import WormsAttack.Distack.Analysis
import WormsAttack.Udp.SocketVector
import WormsAttack.Ddos.Ports
import WormsAttack.Distack.Alerts
import WormsAttack.Distack.Baseline
import WormsAttack.Ids.Victims
import WormsAttack.Monitor.Rates
import WormsAttack.Monitor.Threshold
import WormsAttack.Distack.Mpls
import WormsAttack.Distack.RoutingTable
import WormsAttack.Distack.RemoteSocket
import WormsAttack.Distack.ClearTree
import WormsAttack.Monitor.OutVectors
